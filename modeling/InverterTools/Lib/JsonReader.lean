import InverterTools.Lib.Json

/-! # Reading JSON

A reader for the texts that `Json.text` writes, and for no white space.  Numbers have no exponent
and one decimal at most, so a reader cannot tell a signed number that is not negative from an
unsigned one; `Json.norm` forgets the difference.

`readValue_text` is the round trip of a value in front of any text that does not continue a number,
by induction on the value; the bound on the calls is the length of the text.  `parse_text` follows.
-/

namespace InverterTools.Json

/-! ### The reader -/

/-- A digit of a `\u` escape. -/
def hexVal (b : UInt8) : Option ℕ :=
  if isDigit b then some (digitVal b)
  else if 0x61 ≤ b ∧ b ≤ 0x66 then some (b.toNat - 0x57)
  else none

/-- The character behind a backslash, other than `u`. -/
def unescape (b : UInt8) : Option UInt8 :=
  if b = 0x62 then some 0x08
  else if b = 0x74 then some 0x09
  else if b = 0x6E then some 0x0A
  else if b = 0x66 then some 0x0C
  else if b = 0x72 then some 0x0D
  else if b = 0x22 then some 0x22
  else if b = 0x5C then some 0x5C
  else none

/-- Where the reader is in a string literal: between two characters, behind a backslash, or in the
digits of a `\u` escape. -/
inductive Literal where
  | plain
  | escaped
  | hex (missing : ℕ) (value : ℕ)
deriving DecidableEq, Repr

/-- One more character. -/
def push (b : UInt8) (r : Option (Bytes × Bytes)) : Option (Bytes × Bytes) :=
  r.map fun p => (b :: p.1, p.2)

/-- A string literal behind its first quotation mark. -/
def readChars : Literal → Bytes → Option (Bytes × Bytes)
  | _, [] => none
  | .plain, b :: s =>
      if b = 0x22 then some ([], s)
      else if b = 0x5C then readChars .escaped s
      else push b (readChars .plain s)
  | .escaped, b :: s =>
      if b = 0x75 then readChars (.hex 4 0) s
      else match unescape b with
        | some c => push c (readChars .plain s)
        | none => none
  | .hex missing value, b :: s =>
      match hexVal b with
      | none => none
      | some d =>
          if missing = 1 then
            if 16 * value + d < 0x80 then push (UInt8.ofNat (16 * value + d)) (readChars .plain s)
            else none
          else readChars (.hex (missing - 1) (16 * value + d)) s

/-- A number. -/
def readNumber (s : Bytes) : Option (Json × Bytes) :=
  let negative := s.head? == some 0x2D
  let body := if negative then s.tail else s
  let digits := body.takeWhile isDigit
  let rest := body.dropWhile isDigit
  if digits = [] then none
  else if negative then some (.integer (-(numVal digits : ℤ)), rest)
  else if rest.head? = some 0x2E then
    match rest.tail with
    | d :: rest =>
        if isDigit d then some (.tenths (10 * numVal digits + digitVal d), rest) else none
    | [] => none
  else some (.unsigned (numVal digits), rest)

/-- The rest behind a word. -/
def readWord (word : Bytes) (s : Bytes) : Option Bytes :=
  if word.isPrefixOf s then some (s.drop word.length) else none

mutual

/-- A value; the first argument bounds the number of calls. -/
def readValue : ℕ → Bytes → Option (Json × Bytes)
  | 0, _ => none
  | fuel + 1, s =>
      match s.head? with
      | none => none
      | some b =>
          if b = 0x6E then (readWord (ascii "null") s).map fun s => (null, s)
          else if b = 0x74 then (readWord (ascii "true") s).map fun s => (bool true, s)
          else if b = 0x66 then (readWord (ascii "false") s).map fun s => (bool false, s)
          else if b = 0x22 then (readChars .plain s.tail).map fun p => (string p.1, p.2)
          else if b = 0x5B then
            if s.tail.head? = some 0x5D then some (array [], s.tail.tail)
            else (readElements fuel s.tail).map fun p => (array p.1, p.2)
          else if b = 0x7B then
            if s.tail.head? = some 0x7D then some (object [], s.tail.tail)
            else (readMembers fuel s.tail).map fun p => (object p.1, p.2)
          else readNumber s

/-- The elements of an array, and the bracket behind them. -/
def readElements : ℕ → Bytes → Option (List Json × Bytes)
  | 0, _ => none
  | fuel + 1, s =>
      match readValue fuel s with
      | none => none
      | some (j, s) =>
          if s.head? = some 0x2C then (readElements fuel s.tail).map fun p => (j :: p.1, p.2)
          else if s.head? = some 0x5D then some ([j], s.tail)
          else none

/-- The members of an object, and the brace behind them. -/
def readMembers : ℕ → Bytes → Option (List (Bytes × Json) × Bytes)
  | 0, _ => none
  | fuel + 1, s =>
      if s.head? = some 0x22 then
        match readChars .plain s.tail with
        | none => none
        | some (k, s) =>
            if s.head? = some 0x3A then
              match readValue fuel s.tail with
              | none => none
              | some (j, s) =>
                  if s.head? = some 0x2C then
                    (readMembers fuel s.tail).map fun p => ((k, j) :: p.1, p.2)
                  else if s.head? = some 0x7D then some ([(k, j)], s.tail)
                  else none
            else none
      else none

end

/-- A value and nothing else. -/
def parse (s : Bytes) : Option Json :=
  match readValue (s.length + 1) s with
  | some (j, []) => some j
  | _ => none

mutual

/-- The value that a reader sees. -/
def norm : Json → Json
  | integer z => if 0 ≤ z then unsigned z.toNat else integer z
  | array js => array (normElements js)
  | object ms => object (normMembers ms)
  | j => j

/-- The elements that a reader sees. -/
def normElements : List Json → List Json
  | [] => []
  | j :: js => j.norm :: normElements js

/-- The members that a reader sees. -/
def normMembers : List (Bytes × Json) → List (Bytes × Json)
  | [] => []
  | (k, j) :: ms => (k, j.norm) :: normMembers ms

end

theorem normElements_eq : ∀ js : List Json, normElements js = js.map norm
  | [] => rfl
  | j :: js => by rw [normElements, normElements_eq js, List.map_cons]

theorem normMembers_eq : ∀ ms : List (Bytes × Json),
    normMembers ms = ms.map fun m => (m.1, m.2.norm)
  | [] => rfl
  | (k, j) :: ms => by rw [normMembers, normMembers_eq ms, List.map_cons]

/-! ### Strings -/

theorem hexVal_pad : ∀ b < 0x20, ∃ c d : UInt8,
    zeroPad 4 (hexNumeral b) = [0x30, 0x30, c, d] ∧ hexVal c = some (b / 16) ∧
      hexVal d = some (b % 16) := by
  have h : ∀ b < 0x20, zeroPad 4 (hexNumeral b) =
      [0x30, 0x30, digit (b / 16), if b % 16 < 10 then digit (b % 16)
        else UInt8.ofNat (0x57 + b % 16)] ∧ hexVal (digit (b / 16)) = some (b / 16) ∧
      hexVal (if b % 16 < 10 then digit (b % 16) else UInt8.ofNat (0x57 + b % 16)) =
        some (b % 16) := by
    decide +kernel
  intro b hb
  exact ⟨_, _, h b hb⟩

theorem readChars_escape (b : UInt8) (s : Bytes) :
    readChars .plain (escape b ++ s) = push b (readChars .plain s) := by
  unfold escape
  split_ifs with h1 h2 h3 h4 h5 h6 h7 h8
  · rw [h1]; rfl
  · rw [h2]; rfl
  · rw [h3]; rfl
  · rw [h4]; rfl
  · rw [h5]; rfl
  · rw [h6]; rfl
  · rw [h7]; rfl
  · obtain ⟨c, d, hpad, hc, hd⟩ := hexVal_pad b.toNat h8
    have hlt : b.toNat < 0x80 := lt_trans h8 (by decide)
    have hvalue : 16 * (16 * (16 * (16 * 0 + 0) + 0) + b.toNat / 16) + b.toNat % 16 = b.toNat := by
      omega
    have hzero : hexVal 0x30 = some 0 := by decide
    rw [hpad]
    show readChars (.hex 4 0) (0x30 :: 0x30 :: c :: d :: s) = _
    simp only [readChars, hzero, hc, hd]
    rw [if_neg (by decide), if_neg (by decide), if_neg (by decide), if_pos trivial, hvalue,
      if_pos hlt, UInt8.ofNat_toNat]
  · show readChars .plain (b :: s) = _
    rw [readChars, if_neg h6, if_neg h7]

theorem readChars_literal (s t : Bytes) :
    readChars .plain (s.flatMap escape ++ 0x22 :: t) = some (s, t) := by
  induction s with
  | nil => rfl
  | cons b s ih =>
      rw [List.flatMap_cons, List.append_assoc, readChars_escape, ih]
      rfl

/-! ### Numbers -/

/-- A text does not go on with a number. -/
def EndsNumber (s : Bytes) : Prop := ∀ b, s.head? = some b → isDigit b = false ∧ b ≠ 0x2E

theorem span_digits {ds s : Bytes} (hds : AllDigits ds)
    (hs : ∀ b, s.head? = some b → isDigit b = false) :
    (ds ++ s).takeWhile isDigit = ds ∧ (ds ++ s).dropWhile isDigit = s := by
  rw [List.takeWhile_append_of_pos hds, List.dropWhile_append_of_pos hds]
  cases s with
  | nil => simp
  | cons b s =>
      have hb : ¬ isDigit b = true := by simp [hs b rfl]
      rw [List.takeWhile_cons_of_neg hb, List.dropWhile_cons_of_neg hb, List.append_nil]
      exact ⟨rfl, rfl⟩

theorem decimal_ne_nil (n : ℕ) : decimal n ≠ [] :=
  List.length_pos_iff.mp (decimal_length_pos n)

theorem exists_decimal (n : ℕ) : ∃ b t, decimal n = b :: t ∧ isDigit b = true := by
  obtain ⟨b, t, h⟩ := List.exists_cons_of_ne_nil (decimal_ne_nil n)
  exact ⟨b, t, h, allDigits_decimal n b (by rw [h]; exact List.mem_cons_self)⟩

theorem head?_decimal_ne_minus (n : ℕ) (s : Bytes) :
    ((decimal n ++ s).head? == some 0x2D) = false := by
  obtain ⟨b, t, h, hb⟩ := exists_decimal n
  rw [h, List.cons_append, List.head?_cons, beq_eq_false_iff_ne]
  intro hminus
  rw [Option.some.inj hminus] at hb
  exact absurd hb (by decide)

theorem readNumber_unsigned (n : ℕ) {s : Bytes} (hs : EndsNumber s) :
    readNumber (decimal n ++ s) = some (.unsigned n, s) := by
  obtain ⟨htake, hdrop⟩ := span_digits (allDigits_decimal n) fun b hb => (hs b hb).1
  have hpoint : s.head? ≠ some 0x2E := fun h => (hs _ h).2 rfl
  unfold readNumber
  simp only [head?_decimal_ne_minus, Bool.false_eq_true, if_false, htake, hdrop,
    if_neg (decimal_ne_nil n), if_neg hpoint, numVal_decimal]

theorem readNumber_integer {z : ℤ} (hz : z < 0) {s : Bytes} (hs : EndsNumber s) :
    readNumber (intDecimal z ++ s) = some (.integer z, s) := by
  obtain ⟨htake, hdrop⟩ := span_digits (allDigits_decimal z.natAbs) fun b hb => (hs b hb).1
  have habs : -(z.natAbs : ℤ) = z := by omega
  unfold readNumber
  rw [intDecimal, if_pos hz]
  simp only [List.cons_append, List.head?_cons, List.tail_cons, beq_self_eq_true, if_true, htake,
    hdrop, if_neg (decimal_ne_nil _), numVal_decimal, habs]

theorem readNumber_tenths (n : ℕ) (s : Bytes) :
    readNumber (decimal (n / 10) ++ ascii "." ++ decimal (n % 10) ++ s) =
      some (.tenths n, s) := by
  have hlt : n % 10 < 10 := Nat.mod_lt _ (by norm_num)
  have hpoint : ∀ b, (ascii "." ++ decimal (n % 10) ++ s).head? = some b → isDigit b = false := by
    intro b hb
    obtain rfl : b = 0x2E := (Option.some.inj hb).symm
    decide
  obtain ⟨htake, hdrop⟩ := span_digits (allDigits_decimal (n / 10)) hpoint
  have htail : (ascii "." ++ decimal (n % 10) ++ s).tail = digit (n % 10) :: s := by
    rw [decimal_of_lt hlt]
    rfl
  have hvalue : 10 * (n / 10) + n % 10 = n := by omega
  have hhead : (ascii "." ++ decimal (n % 10) ++ s).head? = some 0x2E := rfl
  unfold readNumber
  rw [List.append_assoc, List.append_assoc, ← List.append_assoc (ascii ".")]
  simp only [head?_decimal_ne_minus, Bool.false_eq_true, if_false, htake, hdrop, htail,
    if_neg (decimal_ne_nil _), numVal_decimal, isDigit_digit hlt, digitVal_digit hlt, hvalue,
    if_pos hhead, if_true]

/-- A number is not the start of any other value. -/
theorem readValue_of_number {fuel : ℕ} {s : Bytes} {b : UInt8} (hhead : s.head? = some b)
    (hb : isDigit b = true ∨ b = 0x2D) : readValue (fuel + 1) s = readNumber s := by
  have hne {c : UInt8} (hc : isDigit c = false ∧ c ≠ 0x2D) : b ≠ c := by
    rintro rfl
    cases hb with
    | inl hdigit => exact absurd hdigit (by simp [hc.1])
    | inr hminus => exact hc.2 hminus
  rw [readValue, hhead]
  dsimp only
  rw [if_neg (hne (by decide)), if_neg (hne (by decide)), if_neg (hne (by decide)),
    if_neg (hne (by decide)), if_neg (hne (by decide)), if_neg (hne (by decide))]

/-! ### The round trip -/

theorem endsNumber_cons {b : UInt8} (hb : isDigit b = false ∧ b ≠ 0x2E) (s : Bytes) :
    EndsNumber (b :: s) := by
  intro c hc
  obtain rfl := Option.some.inj hc
  exact hb

theorem elementTexts_cons_cons (j j' : Json) (js : List Json) :
    elementTexts (j :: j' :: js) = j.text ++ ascii "," ++ elementTexts (j' :: js) := by
  rw [elementTexts]
  simp

theorem memberTexts_cons_cons (k : Bytes) (j : Json) (m : Bytes × Json) (ms : List (Bytes × Json)) :
    memberTexts ((k, j) :: m :: ms) =
      quote k ++ ascii ":" ++ j.text ++ ascii "," ++ memberTexts (m :: ms) := by
  rw [memberTexts]
  simp

/-- No value starts with a closing bracket. -/
theorem head?_text (j : Json) (s : Bytes) : (j.text ++ s).head? ≠ some 0x5D := by
  have hdecimal (n : ℕ) (t : Bytes) : (decimal n ++ t).head? ≠ some 0x5D := by
    obtain ⟨b, u, h, hb⟩ := exists_decimal n
    rw [h, List.cons_append, List.head?_cons]
    intro hbracket
    rw [Option.some.inj hbracket] at hb
    exact absurd hb (by decide)
  cases j with
  | null => exact nofun
  | bool b => cases b <;> exact nofun
  | string s => exact nofun
  | array js => exact nofun
  | object ms => exact nofun
  | unsigned n => exact hdecimal n s
  | integer z =>
      rw [text, intDecimal]
      split_ifs
      · exact nofun
      · exact hdecimal _ s
  | tenths n =>
      rw [text, List.append_assoc, List.append_assoc]
      exact hdecimal _ _

theorem head?_elementTexts {js : List Json} (hne : js ≠ []) (s : Bytes) :
    (elementTexts js ++ s).head? ≠ some 0x5D := by
  cases js with
  | nil => exact absurd rfl hne
  | cons j js =>
      cases js with
      | nil => exact head?_text j s
      | cons j' js =>
          rw [elementTexts_cons_cons, List.append_assoc, List.append_assoc]
          exact head?_text j _

theorem head?_memberTexts {ms : List (Bytes × Json)} (hne : ms ≠ []) (s : Bytes) :
    (memberTexts ms ++ s).head? = some 0x22 := by
  cases ms with
  | nil => exact absurd rfl hne
  | cons m ms =>
      cases ms with
      | nil => rfl
      | cons m' ms =>
          rw [memberTexts_cons_cons]
          rfl

theorem readValue_array (fuel : ℕ) {s : Bytes} (h : s.head? ≠ some 0x5D) :
    readValue (fuel + 1) (0x5B :: s) = (readElements fuel s).map fun p => (array p.1, p.2) := by
  rw [readValue]
  exact if_neg h

theorem readValue_object (fuel : ℕ) {s : Bytes} (h : s.head? = some 0x22) :
    readValue (fuel + 1) (0x7B :: s) = (readMembers fuel s).map fun p => (object p.1, p.2) := by
  have hopen : s.head? ≠ some 0x7D := by
    rw [h]
    decide
  rw [readValue]
  exact if_neg hopen

theorem readMembers_succ (fuel : ℕ) (k : Bytes) (s : Bytes) :
    readMembers (fuel + 1) (quote k ++ ascii ":" ++ s) =
      match readValue fuel s with
      | none => none
      | some (j, s) =>
          if s.head? = some 0x2C then
            (readMembers fuel s.tail).map fun p => ((k, j) :: p.1, p.2)
          else if s.head? = some 0x7D then some ([(k, j)], s.tail)
          else none := by
  have hquote : quote k ++ ascii ":" ++ s = 0x22 :: (k.flatMap escape ++ 0x22 :: (0x3A :: s)) := by
    simp only [quote, List.append_assoc]
    rfl
  rw [hquote, readMembers]
  simp only [List.head?_cons, List.tail_cons, if_true, readChars_literal]

mutual

theorem readValue_text : ∀ (j : Json) (fuel : ℕ) (s : Bytes), j.text.length ≤ fuel →
    EndsNumber s → readValue fuel (j.text ++ s) = some (j.norm, s)
  | null, 0, s, hfuel, _ => by cases hfuel
  | null, fuel + 1, s, _, _ => rfl
  | bool false, 0, s, hfuel, _ => by cases hfuel
  | bool false, fuel + 1, s, _, _ => rfl
  | bool true, 0, s, hfuel, _ => by cases hfuel
  | bool true, fuel + 1, s, _, _ => rfl
  | unsigned n, 0, s, hfuel, _ =>
      absurd (decimal_length_pos n) (by rw [text] at hfuel; omega)
  | unsigned n, fuel + 1, s, _, hs => by
      obtain ⟨b, t, h, hb⟩ := exists_decimal n
      have hhead : ((unsigned n).text ++ s).head? = some b := by
        rw [text, h]
        rfl
      rw [readValue_of_number hhead (.inl hb), text, readNumber_unsigned n hs]
      rfl
  | integer z, 0, s, hfuel, _ => by
      rw [text, intDecimal] at hfuel
      split_ifs at hfuel
      · cases hfuel
      · exact absurd (decimal_length_pos z.natAbs) (by omega)
  | integer z, fuel + 1, s, _, hs => by
      by_cases hz : z < 0
      · have hhead : ((integer z).text ++ s).head? = some 0x2D := by
          rw [text, intDecimal, if_pos hz]
          rfl
        rw [readValue_of_number hhead (.inr rfl), text, readNumber_integer hz hs, norm,
          if_neg (not_le.mpr hz)]
      · have hnat : intDecimal z = decimal z.toNat := by
          rw [intDecimal, if_neg hz, show z.natAbs = z.toNat by omega]
        obtain ⟨b, t, h, hb⟩ := exists_decimal z.toNat
        have hhead : ((integer z).text ++ s).head? = some b := by
          rw [text, hnat, h]
          rfl
        rw [readValue_of_number hhead (.inl hb), text, hnat, readNumber_unsigned _ hs, norm,
          if_pos (not_lt.mp hz)]
  | tenths n, 0, s, hfuel, _ => by
      have hpos := decimal_length_pos (n / 10)
      rw [text, List.length_append, List.length_append] at hfuel
      omega
  | tenths n, fuel + 1, s, _, _ => by
      obtain ⟨b, t, h, hb⟩ := exists_decimal (n / 10)
      have hhead : ((tenths n).text ++ s).head? = some b := by
        rw [text, h]
        rfl
      rw [readValue_of_number hhead (.inl hb), text, readNumber_tenths]
      rfl
  | string u, 0, s, hfuel, _ => by cases hfuel
  | string u, fuel + 1, s, _, _ => by
      have hquote : (string u).text ++ s = 0x22 :: (u.flatMap escape ++ 0x22 :: s) := by
        simp only [text, quote, List.append_assoc]
        rfl
      rw [hquote, readValue]
      show (readChars .plain (u.flatMap escape ++ 0x22 :: s)).map _ = _
      rw [readChars_literal]
      rfl
  | array js, 0, s, hfuel, _ => by cases hfuel
  | array [], fuel + 1, s, _, _ => rfl
  | array (j :: js), fuel + 1, s, hfuel, _ => by
      have htext : (array (j :: js)).text ++ s = 0x5B :: (elementTexts (j :: js) ++ 0x5D :: s) := by
        simp only [text, List.append_assoc]
        rfl
      have hlen : (elementTexts (j :: js)).length + 1 ≤ fuel := by
        simp only [text, List.length_append] at hfuel
        have hone : (ascii "[").length = 1 ∧ (ascii "]").length = 1 := by decide
        omega
      have hread := readElements_text (j :: js) (List.cons_ne_nil _ _) fuel s hlen
      rw [htext, readValue_array fuel (head?_elementTexts (List.cons_ne_nil _ _) _), hread]
      rfl
  | object ms, 0, s, hfuel, _ => by cases hfuel
  | object [], fuel + 1, s, _, _ => rfl
  | object (m :: ms), fuel + 1, s, hfuel, _ => by
      have htext : (object (m :: ms)).text ++ s = 0x7B :: (memberTexts (m :: ms) ++ 0x7D :: s) := by
        simp only [text, List.append_assoc]
        rfl
      have hlen : (memberTexts (m :: ms)).length + 1 ≤ fuel := by
        simp only [text, List.length_append] at hfuel
        have hone : (ascii "\x7b").length = 1 ∧ (ascii "\x7d").length = 1 := by decide
        omega
      have hread := readMembers_text (m :: ms) (List.cons_ne_nil _ _) fuel s hlen
      have hhead := head?_memberTexts (List.cons_ne_nil m ms) (0x7D :: s)
      rw [htext, readValue_object fuel hhead, hread]
      rfl

theorem readElements_text : ∀ (js : List Json), js ≠ [] → ∀ (fuel : ℕ) (s : Bytes),
    (elementTexts js).length + 1 ≤ fuel →
      readElements fuel (elementTexts js ++ 0x5D :: s) = some (normElements js, s)
  | [], hne, _, _, _ => absurd rfl hne
  | _ :: _, _, 0, _, hfuel => by cases hfuel
  | [j], _, fuel + 1, s, hfuel => by
      have hread := readValue_text j fuel (0x5D :: s) (Nat.le_of_succ_le_succ hfuel)
        (endsNumber_cons (by decide) s)
      rw [elementTexts, readElements, hread]
      rfl
  | j :: j' :: js, _, fuel + 1, s, hfuel => by
      rw [elementTexts_cons_cons] at hfuel ⊢
      simp only [List.length_append] at hfuel
      have hone : (ascii ",").length = 1 := by decide
      have hread := readValue_text j fuel (0x2C :: (elementTexts (j' :: js) ++ 0x5D :: s))
        (by omega) (endsNumber_cons (by decide) _)
      have hrest := readElements_text (j' :: js) (List.cons_ne_nil _ _) fuel s (by omega)
      have hcomma : j.text ++ ascii "," ++ elementTexts (j' :: js) ++ 0x5D :: s =
          j.text ++ 0x2C :: (elementTexts (j' :: js) ++ 0x5D :: s) := by
        simp only [List.append_assoc]
        rfl
      rw [hcomma, readElements, hread]
      simp only [List.head?_cons, List.tail_cons, if_true, hrest]
      rfl

theorem readMembers_text : ∀ (ms : List (Bytes × Json)), ms ≠ [] → ∀ (fuel : ℕ) (s : Bytes),
    (memberTexts ms).length + 1 ≤ fuel →
      readMembers fuel (memberTexts ms ++ 0x7D :: s) = some (normMembers ms, s)
  | [], hne, _, _, _ => absurd rfl hne
  | _ :: _, _, 0, _, hfuel => by cases hfuel
  | [(k, j)], _, fuel + 1, s, hfuel => by
      rw [memberTexts] at hfuel ⊢
      simp only [List.length_append] at hfuel
      have hread := readValue_text j fuel (0x7D :: s) (by omega) (endsNumber_cons (by decide) s)
      rw [List.append_assoc, readMembers_succ, hread]
      rfl
  | (k, j) :: m :: ms, _, fuel + 1, s, hfuel => by
      rw [memberTexts_cons_cons] at hfuel ⊢
      simp only [List.length_append] at hfuel
      have hone : (ascii ",").length = 1 := by decide
      have hread := readValue_text j fuel (0x2C :: (memberTexts (m :: ms) ++ 0x7D :: s))
        (by omega) (endsNumber_cons (by decide) _)
      have hrest := readMembers_text (m :: ms) (List.cons_ne_nil _ _) fuel s (by omega)
      have hcomma : quote k ++ ascii ":" ++ j.text ++ ascii "," ++ memberTexts (m :: ms) ++
          0x7D :: s =
          quote k ++ ascii ":" ++ (j.text ++ 0x2C :: (memberTexts (m :: ms) ++ 0x7D :: s)) := by
        simp only [List.append_assoc]
        rfl
      rw [hcomma, readMembers_succ, hread]
      simp only [List.head?_cons, List.tail_cons, if_true, hrest]
      rfl

end

/-- A value is read back, up to the sign of its numbers. -/
theorem parse_text (j : Json) : parse j.text = some j.norm := by
  have hread := readValue_text j (j.text.length + 1) [] (Nat.le_succ _) nofun
  rw [List.append_nil] at hread
  rw [parse, hread]

@[simp] theorem norm_array (js : List Json) : (array js).norm = array (js.map norm) := by
  rw [norm, normElements_eq]

@[simp] theorem norm_object (ms : List (Bytes × Json)) :
    (object ms).norm = object (ms.map fun m => (m.1, m.2.norm)) := by
  rw [norm, normMembers_eq]

@[simp] theorem norm_string (s : Bytes) : (string s).norm = string s := rfl

theorem lookup_of_mem {k : Bytes} {j : Json} : ∀ {ms : List (Bytes × Json)},
    (ms.map Prod.fst).Nodup → (k, j) ∈ ms → ms.lookup k = some j
  | (k', j') :: ms, hnodup, hmem => by
      obtain ⟨hnot, hnodup⟩ := List.nodup_cons.mp hnodup
      rw [List.lookup_cons]
      cases List.mem_cons.mp hmem with
      | inl heq =>
          obtain ⟨rfl, rfl⟩ := Prod.mk.inj heq
          rw [beq_self_eq_true]
      | inr hin =>
          have hne : k ≠ k' := by
            rintro rfl
            exact hnot (List.mem_map.mpr ⟨(k, j), hin, rfl⟩)
          rw [beq_eq_false_iff_ne.mpr hne]
          exact lookup_of_mem hnodup hin

end InverterTools.Json

namespace InverterTools.Dumper

variable {ε : Type} {Kind : ε → Prop}

/-- The serialiser writes no white space. -/
def WritesText (D : Dumper ε Kind) : Prop := ∀ j s, D.dump j = .ok s → s = j.text

theorem compact_writesText {e : ε} (he : Kind e) : (compact he).WritesText := by
  intro j s h
  have h : (if j.Utf8 then Except.ok j.text else Except.error e) = .ok s := h
  split_ifs at h
  exact (Except.ok.inj h).symm

end InverterTools.Dumper
