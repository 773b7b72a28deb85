import InverterTools.Lib.Bytes

/-! # JSON values and UTF-8

JSON values as the serialiser sees them, with the texts that occur in them, and the well-formed
UTF-8 byte sequences as the language of an automaton.  `Json.text` writes a value without white
space; a `Dumper` is any serialiser that fails on texts that are not UTF-8. -/

namespace InverterTools

/-! ### UTF-8 -/

/-- What a UTF-8 text owes: nothing, or so many continuation bytes of which the next one lies in
a range. -/
inductive Utf8State where
  | boundary
  | expect (count : ℕ) (lo hi : UInt8)
  | reject
deriving DecidableEq, Repr

/-- The first byte of a character.  The ranges exclude overlong forms, surrogates and code points
above U+10FFFF. -/
def utf8Lead (b : UInt8) : Utf8State :=
  if b < 0x80 then .boundary
  else if b < 0xC2 then .reject
  else if b < 0xE0 then .expect 1 0x80 0xBF
  else if b < 0xF0 then
    .expect 2 (if b = 0xE0 then 0xA0 else 0x80) (if b = 0xED then 0x9F else 0xBF)
  else if b < 0xF5 then
    .expect 3 (if b = 0xF0 then 0x90 else 0x80) (if b = 0xF4 then 0x8F else 0xBF)
  else .reject

/-- The next byte of a text. -/
def utf8Next : Utf8State → UInt8 → Utf8State
  | .boundary, b => utf8Lead b
  | .expect count lo hi, b =>
      if lo ≤ b ∧ b ≤ hi then
        if count = 1 then .boundary else .expect (count - 1) 0x80 0xBF
      else .reject
  | .reject, _ => .reject

/-- Well-formed UTF-8. -/
def validUtf8 (s : Bytes) : Bool := decide (s.foldl utf8Next .boundary = .boundary)

/-- Every byte is below 128. -/
def isAscii (s : Bytes) : Bool := s.all (· < 0x80)

/-- Every byte is a blank or a visible ASCII character. -/
def isPrintable (s : Bytes) : Bool := s.all fun b => 0x20 ≤ b && b < 0x7F

/-- What follows a well-formed text decides. -/
theorem validUtf8_append {s : Bytes} (h : validUtf8 s = true) (t : Bytes) :
    validUtf8 (s ++ t) = validUtf8 t := by
  have hs := of_decide_eq_true h
  rw [validUtf8, List.foldl_append, hs, validUtf8]

theorem validUtf8_of_isAscii {s : Bytes} (h : isAscii s = true) : validUtf8 s = true := by
  induction s with
  | nil => rfl
  | cons b s ih =>
      rw [isAscii, List.all_cons, Bool.and_eq_true, decide_eq_true_eq] at h
      have hb : validUtf8 [b] = true := by simp [validUtf8, utf8Next, utf8Lead, h.1]
      rw [← List.singleton_append, validUtf8_append hb]
      exact ih h.2

theorem isAscii_of_isPrintable {s : Bytes} (h : isPrintable s = true) : isAscii s = true := by
  rw [isPrintable, List.all_eq_true] at h
  rw [isAscii, List.all_eq_true]
  intro b hb
  have hb := h b hb
  rw [Bool.and_eq_true, decide_eq_true_eq, decide_eq_true_eq, UInt8.lt_iff_toNat_lt] at hb
  rw [decide_eq_true_eq, UInt8.lt_iff_toNat_lt]
  exact hb.2.trans (by decide)

/-- No byte is a control character. -/
def NoControls (s : Bytes) : Prop := ∀ b ∈ s, 0x20 ≤ b

theorem noControls_append {s t : Bytes} : NoControls (s ++ t) ↔ NoControls s ∧ NoControls t :=
  List.forall_mem_append

theorem NoControls.notMem {s : Bytes} (h : NoControls s) {b : UInt8} (hb : b < 0x20) : b ∉ s :=
  fun hmem => UInt8.not_le.mpr hb (h b hmem)

theorem noControls_of_isPrintable {s : Bytes} (h : isPrintable s = true) : NoControls s := by
  rw [isPrintable, List.all_eq_true] at h
  intro b hb
  have := h b hb
  rw [Bool.and_eq_true, decide_eq_true_eq] at this
  exact this.1

theorem notMem_of_isPrintable {s : Bytes} (h : isPrintable s = true) {b : UInt8} (hb : b < 0x20) :
    b ∉ s := (noControls_of_isPrintable h).notMem hb

@[simp] theorem isPrintable_append (s t : Bytes) :
    isPrintable (s ++ t) = true ↔ isPrintable s = true ∧ isPrintable t = true := by
  simp [isPrintable]

theorem isPrintable_of_subset {s t : Bytes} (hst : s ⊆ t) (ht : isPrintable t = true) :
    isPrintable s = true := by
  rw [isPrintable, List.all_eq_true] at ht ⊢
  intro b hb
  exact ht b (hst hb)

theorem isPrintable_of_allDigits {s : Bytes} (h : AllDigits s) : isPrintable s = true := by
  refine List.all_eq_true.mpr fun b hb => ?_
  have := isDigit_iff.mp (h b hb)
  rw [Bool.and_eq_true, decide_eq_true_eq, decide_eq_true_eq, UInt8.le_iff_toNat_le,
    UInt8.lt_iff_toNat_lt]
  exact ⟨this.1.trans' (by decide), this.2.trans_lt (by decide)⟩

theorem isAscii_of_subset {s t : Bytes} (hst : s ⊆ t) (ht : isAscii t = true) :
    isAscii s = true := by
  rw [isAscii, List.all_eq_true] at ht ⊢
  intro b hb
  exact ht b (hst hb)

@[simp] theorem isPrintable_decimal (n : ℕ) : isPrintable (decimal n) = true :=
  isPrintable_of_allDigits (allDigits_decimal n)

@[simp] theorem isPrintable_hexNumeral (n : ℕ) : isPrintable (hexNumeral n) = true := by
  have hdigit : ∀ d < 16, let b := if d < 10 then digit d else UInt8.ofNat (0x57 + d)
      (0x20 ≤ b && b < 0x7F) = true := by
    decide
  unfold hexNumeral
  split_ifs with hn
  · rfl
  · rw [isPrintable, List.all_eq_true]
    intro b hb
    obtain ⟨d, hd, rfl⟩ := List.mem_map.mp hb
    apply hdigit
    exact Nat.digits_lt_base (by norm_num) (List.mem_reverse.mp hd)

/-! ### Values -/

/-- A JSON value.  Numbers are unsigned, signed, or a `double` of the form `n / 10.0`. -/
inductive Json where
  | null
  | bool (b : Bool)
  | unsigned (n : ℕ)
  | integer (z : ℤ)
  | tenths (n : ℕ)
  | string (s : Bytes)
  | array (js : List Json)
  | object (ms : List (Bytes × Json))

namespace Json

mutual

/-- The texts that occur in a value, keys included. -/
def strings : Json → List Bytes
  | string s => [s]
  | array js => elementStrings js
  | object ms => memberStrings ms
  | _ => []

/-- The texts of the elements of an array. -/
def elementStrings : List Json → List Bytes
  | [] => []
  | j :: js => j.strings ++ elementStrings js

/-- The texts of the members of an object. -/
def memberStrings : List (Bytes × Json) → List Bytes
  | [] => []
  | (k, j) :: ms => k :: (j.strings ++ memberStrings ms)

end

/-- Every text in the value is well-formed UTF-8. -/
def Utf8 (j : Json) : Prop := ∀ s ∈ j.strings, validUtf8 s = true

instance (j : Json) : Decidable j.Utf8 := inferInstanceAs (Decidable (∀ s ∈ j.strings, _))

@[simp] theorem utf8_string (s : Bytes) : (string s).Utf8 ↔ validUtf8 s = true := by
  simp [Utf8, strings]

@[simp] theorem utf8_array (js : List Json) : (array js).Utf8 ↔ ∀ j ∈ js, j.Utf8 := by
  unfold Utf8
  rw [strings]
  induction js with
  | nil => simp [elementStrings]
  | cons j js ih =>
      simp only [elementStrings, List.mem_append, or_imp, forall_and, List.forall_mem_cons, ih]

@[simp] theorem utf8_object (ms : List (Bytes × Json)) :
    (object ms).Utf8 ↔ ∀ m ∈ ms, validUtf8 m.1 = true ∧ m.2.Utf8 := by
  unfold Utf8
  rw [strings]
  induction ms with
  | nil => simp [memberStrings]
  | cons m ms ih =>
      simp only [memberStrings, List.mem_cons, List.mem_append, or_imp, forall_and,
        forall_eq] at ih ⊢
      rw [ih]
      tauto

/-- A character inside a string literal. -/
def escape (b : UInt8) : Bytes :=
  if b = 0x08 then ascii "\\b"
  else if b = 0x09 then ascii "\\t"
  else if b = 0x0A then ascii "\\n"
  else if b = 0x0C then ascii "\\f"
  else if b = 0x0D then ascii "\\r"
  else if b = 0x22 then ascii "\\\""
  else if b = 0x5C then ascii "\\\\"
  else if b < 0x20 then ascii "\\u" ++ zeroPad 4 (hexNumeral b.toNat)
  else [b]

/-- A string literal. -/
def quote (s : Bytes) : Bytes := [0x22] ++ s.flatMap escape ++ [0x22]

mutual

/-- The text of a value without white space. -/
def text : Json → Bytes
  | null => ascii "null"
  | bool b => if b then ascii "true" else ascii "false"
  | unsigned n => decimal n
  | integer z => intDecimal z
  | tenths n => decimal (n / 10) ++ ascii "." ++ decimal (n % 10)
  | string s => quote s
  | array js => ascii "[" ++ elementTexts js ++ ascii "]"
  | object ms => ascii "\x7b" ++ memberTexts ms ++ ascii "\x7d"

/-- The elements of an array, separated by commas. -/
def elementTexts : List Json → Bytes
  | [] => []
  | [j] => j.text
  | j :: js => j.text ++ ascii "," ++ elementTexts js

/-- The members of an object, separated by commas. -/
def memberTexts : List (Bytes × Json) → Bytes
  | [] => []
  | [(k, j)] => quote k ++ ascii ":" ++ j.text
  | (k, j) :: ms => quote k ++ ascii ":" ++ j.text ++ ascii "," ++ memberTexts ms

end

theorem noControls_escape (b : UInt8) : NoControls (escape b) := by
  have hescape {s : String} (hs : isPrintable (ascii s) = true) : NoControls (ascii s) :=
    noControls_of_isPrintable hs
  unfold escape
  split_ifs with h1 h2 h3 h4 h5 h6 h7 h8
  · exact hescape (by decide)
  · exact hescape (by decide)
  · exact hescape (by decide)
  · exact hescape (by decide)
  · exact hescape (by decide)
  · exact hescape (by decide)
  · exact hescape (by decide)
  · refine noControls_append.mpr ⟨hescape (by decide), ?_⟩
    refine noControls_append.mpr ⟨?_, noControls_of_isPrintable (isPrintable_hexNumeral _)⟩
    intro c hc
    rw [List.eq_of_mem_replicate hc]
    decide
  · intro c hc
    rw [List.mem_singleton.mp hc]
    exact UInt8.not_lt.mp h8

theorem noControls_quote (s : Bytes) : NoControls (quote s) := by
  have hquote : NoControls [0x22] := by
    intro b hb
    rw [List.mem_singleton.mp hb]
    decide
  refine noControls_append.mpr ⟨noControls_append.mpr ⟨hquote, ?_⟩, hquote⟩
  intro c hc
  obtain ⟨b, -, hb⟩ := List.mem_flatMap.mp hc
  exact noControls_escape b c hb

mutual

theorem noControls_text : ∀ j : Json, NoControls j.text
  | null => noControls_of_isPrintable (by decide)
  | bool b => noControls_of_isPrintable (by cases b <;> decide)
  | unsigned n => noControls_of_isPrintable (isPrintable_decimal n)
  | integer z => by
      rw [text, intDecimal]
      refine noControls_of_isPrintable ?_
      split_ifs
      · exact (isPrintable_append [0x2D] _).mpr ⟨by decide, isPrintable_decimal _⟩
      · exact isPrintable_decimal _
  | tenths n => by
      rw [text]
      refine noControls_of_isPrintable ?_
      simp only [isPrintable_append, isPrintable_decimal]
      decide
  | string s => noControls_quote s
  | array js => by
      rw [text]
      exact noControls_append.mpr ⟨noControls_append.mpr ⟨noControls_of_isPrintable (by decide),
        noControls_elementTexts js⟩, noControls_of_isPrintable (by decide)⟩
  | object ms => by
      rw [text]
      exact noControls_append.mpr ⟨noControls_append.mpr ⟨noControls_of_isPrintable (by decide),
        noControls_memberTexts ms⟩, noControls_of_isPrintable (by decide)⟩

theorem noControls_elementTexts : ∀ js : List Json, NoControls (elementTexts js)
  | [] => noControls_of_isPrintable rfl
  | [j] => noControls_text j
  | j :: j' :: js => by
      rw [elementTexts]
      · exact noControls_append.mpr ⟨noControls_append.mpr ⟨noControls_text j,
          noControls_of_isPrintable (by decide)⟩, noControls_elementTexts (j' :: js)⟩
      · simp

theorem noControls_memberTexts : ∀ ms : List (Bytes × Json), NoControls (memberTexts ms)
  | [] => noControls_of_isPrintable rfl
  | [(k, j)] => noControls_append.mpr ⟨noControls_append.mpr ⟨noControls_quote k,
      noControls_of_isPrintable (by decide)⟩, noControls_text j⟩
  | (k, j) :: m :: ms => by
      rw [memberTexts]
      · exact noControls_append.mpr ⟨noControls_append.mpr ⟨noControls_append.mpr
          ⟨noControls_append.mpr ⟨noControls_quote k, noControls_of_isPrintable (by decide)⟩,
          noControls_text j⟩, noControls_of_isPrintable (by decide)⟩,
          noControls_memberTexts (m :: ms)⟩
      · simp

end

end Json

/-- A serialiser that fails exactly on values with a text that is not well-formed UTF-8, with an
error of a given kind. -/
structure Dumper (ε : Type) (Kind : ε → Prop) where
  dump : Json → Except ε Bytes
  dump_of_utf8 : ∀ j : Json, j.Utf8 → ∃ s, dump j = .ok s
  dump_of_not_utf8 : ∀ j : Json, ¬ j.Utf8 → ∃ e, dump j = .error e ∧ Kind e

namespace Dumper

variable {ε : Type} {Kind : ε → Prop}

/-- What the serialiser writes has no control characters. -/
def EscapesControls (D : Dumper ε Kind) : Prop := ∀ j s, D.dump j = .ok s → NoControls s

/-- The serialiser that writes `Json.text` and fails with a fixed error. -/
def compact {e : ε} (he : Kind e) : Dumper ε Kind where
  dump j := if j.Utf8 then .ok j.text else .error e
  dump_of_utf8 j h := ⟨j.text, by simp [h]⟩
  dump_of_not_utf8 j h := ⟨e, by simp [h], he⟩

theorem compact_escapesControls {e : ε} (he : Kind e) : (compact he).EscapesControls := by
  intro j s h
  have h : (if j.Utf8 then Except.ok j.text else Except.error e) = .ok s := h
  split_ifs at h
  rw [← Except.ok.inj h]
  exact Json.noControls_text j

end Dumper

end InverterTools
