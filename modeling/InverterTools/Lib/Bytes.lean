import Mathlib.Tactic
import Mathlib.Data.Nat.Digits.Lemmas
import Mathlib.Data.List.TakeWhile

/-! # Byte strings

C++ strings and buffers are lists of bytes.  This module has the character classes of the C
locale, decimal numerals (`decimal`, `numVal`, `zeroPad`, `fixed`), overwriting a stretch of a
buffer (`splice`), C strings in a buffer (`cstr`) and substring search (`strstr`).

The numeral facts meet in `fixed_spec`: a number below `10 ^ w`, printed with `setfill('0')` and
`setw(w)`, is exactly `w` digits and reads back as itself. -/

namespace InverterTools

/-- A string or a buffer of `char`. -/
abbrev Bytes := List UInt8

/-- The bytes of a literal. -/
def ascii (s : String) : Bytes := s.toByteArray.data.toList

/-- Carriage return. -/
abbrev CR : UInt8 := 0x0D
/-- Line feed. -/
abbrev LF : UInt8 := 0x0A
/-- End of transmission, `'\4'` in the source. -/
abbrev EOT : UInt8 := 0x04
/-- `"\r\n"`. -/
abbrev crlf : Bytes := [CR, LF]

/-- `std::isdigit` in the C locale. -/
def isDigit (b : UInt8) : Bool := 0x30 ≤ b && b ≤ 0x39

/-- `std::isspace` in the C locale. -/
def isSpace (b : UInt8) : Bool := b == 0x20 || (0x09 ≤ b && b ≤ 0x0D)

/-- The value of a digit character. -/
def digitVal (b : UInt8) : ℕ := b.toNat - 0x30

/-- The character of a digit. -/
def digit (d : ℕ) : UInt8 := UInt8.ofNat (0x30 + d)

theorem exists_cons_cons {α : Type} {l : List α} (h : 2 ≤ l.length) :
    ∃ a b rest, l = a :: b :: rest := by
  obtain ⟨a, l, rfl⟩ := List.exists_cons_of_length_pos (Nat.zero_lt_of_lt h)
  obtain ⟨b, rest, rfl⟩ := List.exists_cons_of_length_pos (Nat.lt_of_succ_lt_succ h)
  exact ⟨a, b, rest, rfl⟩

/-- The first occurrence of a separator splits a list in one way only. -/
theorem eq_of_append_cons_eq {α : Type} {a : α} {x y s t : List α} (hx : a ∉ x) (hy : a ∉ y)
    (h : x ++ a :: s = y ++ a :: t) : x = y := by
  induction x generalizing y with
  | nil =>
      cases y with
      | nil => rfl
      | cons b y =>
          rw [List.nil_append, List.cons_append, List.cons.injEq] at h
          exact absurd (h.1 ▸ List.mem_cons_self) hy
  | cons b x ih =>
      rw [List.mem_cons, not_or] at hx
      cases y with
      | nil =>
          rw [List.nil_append, List.cons_append, List.cons.injEq] at h
          exact absurd h.1.symm hx.1
      | cons c y =>
          rw [List.cons_append, List.cons_append, List.cons.injEq] at h
          rw [List.mem_cons, not_or] at hy
          rw [h.1, ih hx.2 hy.2 h.2]

theorem exists_last_of_mem {α : Type} {a : α} {l : List α} (h : a ∈ l) :
    ∃ x s, l = x ++ a :: s ∧ a ∉ s := by
  obtain ⟨x, s, hl, hx⟩ := List.eq_append_cons_of_mem (List.mem_reverse.mpr h)
  refine ⟨s.reverse, x.reverse, ?_, by simpa using hx⟩
  rw [← List.reverse_reverse l, hl]
  simp

/-- The last occurrence of a separator splits a list in one way only. -/
theorem append_cons_inj_last {α : Type} {a : α} {x y s t : List α} (hs : a ∉ s) (ht : a ∉ t)
    (h : x ++ a :: s = y ++ a :: t) : x = y ∧ s = t := by
  have hrev : s.reverse ++ a :: x.reverse = t.reverse ++ a :: y.reverse := by
    simpa using congrArg List.reverse h
  have hst := eq_of_append_cons_eq (by simpa using hs) (by simpa using ht) hrev
  obtain rfl := List.reverse_injective hst
  exact ⟨List.append_cancel_right h, rfl⟩

/-- All characters are decimal digits. -/
def AllDigits (s : Bytes) : Prop := ∀ b ∈ s, isDigit b = true

instance (s : Bytes) : Decidable (AllDigits s) := inferInstanceAs (Decidable (∀ b ∈ s, _))

theorem isDigit_iff {b : UInt8} : isDigit b = true ↔ 0x30 ≤ b.toNat ∧ b.toNat ≤ 0x39 := by
  simp [isDigit, UInt8.le_iff_toNat_le]

theorem isDigit_digit {d : ℕ} (h : d < 10) : isDigit (digit d) = true := by
  interval_cases d <;> rfl

theorem digitVal_digit {d : ℕ} (h : d < 10) : digitVal (digit d) = d := by
  interval_cases d <;> rfl

theorem digitVal_lt {b : UInt8} (h : isDigit b = true) : digitVal b < 10 := by
  have := isDigit_iff.mp h
  unfold digitVal
  omega

theorem not_isSpace_of_isDigit {b : UInt8} (h : isDigit b = true) : isSpace b = false := by
  have := isDigit_iff.mp h
  simp only [isSpace, Bool.or_eq_false_iff, Bool.and_eq_false_iff, beq_eq_false_iff_ne, ne_eq,
    decide_eq_false_iff_not, UInt8.le_iff_toNat_le, ← UInt8.toNat_inj]
  simp only [UInt8.reduceToNat]
  omega

theorem allDigits_append {s t : Bytes} : AllDigits (s ++ t) ↔ AllDigits s ∧ AllDigits t := by
  simp only [AllDigits, List.mem_append, or_imp, forall_and]

/-! ### Decimal numerals -/

/-- The number a string of digits denotes. -/
def numVal (s : Bytes) : ℕ := s.foldl (fun n b => 10 * n + digitVal b) 0

/-- The decimal numeral of a number, as `operator<<` and `std::to_string` print it. -/
def decimal (n : ℕ) : Bytes :=
  if n < 10 then [digit n] else (Nat.digits 10 n).reverse.map digit

/-- Right-aligned output in a field of width `w` filled with zeros. -/
def zeroPad (w : ℕ) (s : Bytes) : Bytes := List.replicate (w - s.length) 0x30 ++ s

/-- `buf << std::setw(w) << n` under `std::setfill('0')`. -/
def fixed (w n : ℕ) : Bytes := zeroPad w (decimal n)

/-- The decimal numeral of a signed integer. -/
def intDecimal (z : ℤ) : Bytes := if z < 0 then 0x2D :: decimal z.natAbs else decimal z.natAbs

theorem intDecimal_natCast (n : ℕ) : intDecimal n = decimal n := by
  rw [intDecimal, if_neg (by omega), Int.natAbs_natCast]

/-- The numeral `operator<<` prints under `std::hex`. -/
def hexNumeral (n : ℕ) : Bytes :=
  if n = 0 then [digit 0]
  else (Nat.digits 16 n).reverse.map (fun d => if d < 10 then digit d else UInt8.ofNat (0x57 + d))

theorem decimal_of_lt {n : ℕ} (h : n < 10) : decimal n = [digit n] := if_pos h

theorem decimal_of_ge {n : ℕ} (h : 10 ≤ n) : decimal n = decimal (n / 10) ++ [digit (n % 10)] := by
  have hd : Nat.digits 10 n = n % 10 :: Nat.digits 10 (n / 10) :=
    Nat.digits_def' (by norm_num) (by omega)
  rw [decimal, if_neg (by omega), hd, List.reverse_cons, List.map_append]
  congr 1
  unfold decimal
  split_ifs with h1
  · rw [Nat.digits_of_lt 10 (n / 10) (by omega) h1]
    rfl
  · rfl

theorem numVal_append_singleton (s : Bytes) (b : UInt8) :
    numVal (s ++ [b]) = 10 * numVal s + digitVal b := by
  simp [numVal, List.foldl_append]

theorem numVal_append (s t : Bytes) : numVal (s ++ t) = numVal s * 10 ^ t.length + numVal t := by
  induction t using List.reverseRecOn with
  | nil => simp [numVal]
  | append_singleton t b ih =>
      rw [← List.append_assoc, numVal_append_singleton, numVal_append_singleton, ih,
        List.length_append, List.length_singleton, pow_succ]
      ring

theorem numVal_replicate_zero (k : ℕ) : numVal (List.replicate k 0x30) = 0 := by
  induction k with
  | zero => rfl
  | succ k ih => rw [List.replicate_succ', numVal_append_singleton, ih]; rfl

theorem numVal_decimal (n : ℕ) : numVal (decimal n) = n := by
  induction n using Nat.strong_induction_on with
  | _ n ih =>
      rcases Nat.lt_or_ge n 10 with h | h
      · rw [decimal_of_lt h]
        simpa [numVal] using digitVal_digit h
      · rw [decimal_of_ge h, numVal_append_singleton, ih _ (by omega),
          digitVal_digit (Nat.mod_lt _ (by norm_num))]
        omega

theorem allDigits_decimal (n : ℕ) : AllDigits (decimal n) := by
  induction n using Nat.strong_induction_on with
  | _ n ih =>
      rcases Nat.lt_or_ge n 10 with h | h
      · rw [decimal_of_lt h]
        simpa [AllDigits] using isDigit_digit h
      · rw [decimal_of_ge h, allDigits_append]
        exact ⟨ih _ (by omega), by
          simpa [AllDigits] using isDigit_digit (Nat.mod_lt n (by norm_num : 10 > 0))⟩

theorem numVal_lt_pow {s : Bytes} (h : AllDigits s) : numVal s < 10 ^ s.length := by
  induction s using List.reverseRecOn with
  | nil => simp [numVal]
  | append_singleton s b ih =>
      obtain ⟨hs, hb⟩ := allDigits_append.mp h
      have := digitVal_lt (hb b List.mem_cons_self)
      have := ih hs
      rw [numVal_append_singleton, List.length_append, List.length_singleton, pow_succ]
      omega

theorem decimal_length_pos (n : ℕ) : 0 < (decimal n).length := by
  rcases Nat.lt_or_ge n 10 with h | h
  · simp [decimal_of_lt h]
  · simp [decimal_of_ge h]

theorem decimal_length_le_iff {n w : ℕ} (hw : 0 < w) : (decimal n).length ≤ w ↔ n < 10 ^ w := by
  induction n using Nat.strong_induction_on generalizing w with
  | _ n ih =>
      rcases Nat.lt_or_ge n 10 with h | h
      · have h10 : 10 ^ 1 ≤ 10 ^ w := Nat.pow_le_pow_right (by norm_num) hw
        simp only [decimal_of_lt h, List.length_singleton]
        omega
      · rw [decimal_of_ge h, List.length_append, List.length_singleton]
        have hpos := decimal_length_pos (n / 10)
        obtain ⟨v, rfl⟩ : ∃ v, w = v + 1 := ⟨w - 1, by omega⟩
        rcases Nat.eq_zero_or_pos v with rfl | hv
        · simp only [Nat.zero_add, pow_one]
          omega
        · have := ih (n / 10) (by omega) hv
          rw [Nat.add_le_add_iff_right, this, Nat.div_lt_iff_lt_mul (by norm_num), pow_succ]

theorem zeroPad_length (w : ℕ) (s : Bytes) : (zeroPad w s).length = max w s.length := by
  simp only [zeroPad, List.length_append, List.length_replicate]
  omega

theorem numVal_zeroPad (w : ℕ) (s : Bytes) : numVal (zeroPad w s) = numVal s := by
  rw [zeroPad, numVal_append, numVal_replicate_zero]
  simp

theorem allDigits_zeroPad {w : ℕ} {s : Bytes} (h : AllDigits s) : AllDigits (zeroPad w s) := by
  rw [zeroPad, allDigits_append]
  exact ⟨fun b hb => by rw [List.eq_of_mem_replicate hb]; rfl, h⟩

theorem fixed_length_ge (w n : ℕ) : w ≤ (fixed w n).length := by
  rw [fixed, zeroPad_length]
  omega

/-- **Fixed-width output**: a number below `10 ^ w` takes exactly `w` digits, which denote it. -/
theorem fixed_spec {w n : ℕ} (hw : 0 < w) (h : n < 10 ^ w) :
    (fixed w n).length = w ∧ AllDigits (fixed w n) ∧ numVal (fixed w n) = n := by
  have hlen := (decimal_length_le_iff hw).mpr h
  refine ⟨?_, allDigits_zeroPad (allDigits_decimal n), ?_⟩
  · rw [fixed, zeroPad_length]
    omega
  · rw [fixed, numVal_zeroPad, numVal_decimal]

theorem digitVal_inj {a b : UInt8} (ha : isDigit a = true) (hb : isDigit b = true)
    (h : digitVal a = digitVal b) : a = b := by
  have ha := isDigit_iff.mp ha
  have hb := isDigit_iff.mp hb
  unfold digitVal at h
  rw [← UInt8.toNat_inj]
  omega

theorem numVal_inj {s t : Bytes} (hs : AllDigits s) (ht : AllDigits t)
    (hlen : s.length = t.length) (h : numVal s = numVal t) : s = t := by
  induction s using List.reverseRecOn generalizing t with
  | nil => exact (List.eq_nil_of_length_eq_zero hlen.symm).symm
  | append_singleton s a ih =>
      cases t using List.reverseRecOn with
      | nil => simp at hlen
      | append_singleton t b =>
          obtain ⟨hs, ha⟩ := allDigits_append.mp hs
          obtain ⟨ht, hb⟩ := allDigits_append.mp ht
          have ha := ha a List.mem_cons_self
          have hb := hb b List.mem_cons_self
          rw [numVal_append_singleton, numVal_append_singleton] at h
          have := digitVal_lt ha
          have := digitVal_lt hb
          rw [List.length_append, List.length_append] at hlen
          rw [ih hs ht (Nat.add_right_cancel hlen) (by omega), digitVal_inj ha hb (by omega)]

theorem fixed_numVal {s : Bytes} (h : AllDigits s) (hs : s ≠ []) :
    fixed s.length (numVal s) = s := by
  obtain ⟨hlen, hdigits, hval⟩ := fixed_spec (List.length_pos_of_ne_nil hs) (numVal_lt_pow h)
  exact numVal_inj hdigits h hlen hval

/-! ### Buffers -/

/-- The buffer `mem` after `s` was stored from index `off` on. -/
def splice (mem : Bytes) (off : ℕ) (s : Bytes) : Bytes :=
  mem.take off ++ s ++ mem.drop (off + s.length)

theorem splice_length {mem : Bytes} {off : ℕ} {s : Bytes} (h : off + s.length ≤ mem.length) :
    (splice mem off s).length = mem.length := by
  simp only [splice, List.length_append, List.length_take, List.length_drop]
  omega

theorem splice_take {mem : Bytes} {off : ℕ} {s : Bytes} (h : off ≤ mem.length) :
    (splice mem off s).take (off + s.length) = mem.take off ++ s := by
  have hlen : (mem.take off ++ s).length = off + s.length := by
    rw [List.length_append, List.length_take]
    omega
  rw [splice, ← hlen, List.take_left]

/-- The C string that starts at the head of `mem`: the bytes before the first NUL. -/
def cstr (mem : Bytes) : Bytes := mem.takeWhile (· != 0)

theorem bne_zero_of_notMem {s : Bytes} (h : 0 ∉ s) : ∀ b ∈ s, (b != 0) = true := by
  rintro b hb
  rw [bne_iff_ne]
  rintro rfl
  exact h hb

theorem cstr_append_of_notMem {s t : Bytes} (h : 0 ∉ s) : cstr (s ++ t) = s ++ cstr t :=
  List.takeWhile_append_of_pos (bne_zero_of_notMem h)

theorem cstr_append_zero {s t : Bytes} (h : 0 ∉ s) : cstr (s ++ 0 :: t) = s := by
  rw [cstr_append_of_notMem h]
  simp [cstr]

theorem zero_notMem_cstr (mem : Bytes) : 0 ∉ cstr mem := fun h => by
  have := List.mem_takeWhile_imp h
  simp at this

theorem cstr_isPrefix (mem : Bytes) : cstr mem <+: mem := List.takeWhile_prefix _

theorem cstr_of_notMem {s : Bytes} (h : 0 ∉ s) : cstr s = s := by
  simpa [cstr] using cstr_append_of_notMem (t := []) h

theorem cstr_append_of_mem {s t : Bytes} (h : 0 ∈ s) : cstr (s ++ t) = cstr s := by
  refine List.takeWhile_append.trans (if_neg fun hlen => ?_)
  rw [← (cstr_isPrefix s).eq_of_length hlen] at h
  exact zero_notMem_cstr s h

theorem cstr_append_cons_zero (s t : Bytes) : cstr (s ++ 0 :: t) = cstr s := by
  by_cases h : 0 ∈ s
  · exact cstr_append_of_mem h
  · rw [cstr_append_zero h, cstr_of_notMem h]

/-! ### Substring search -/

/-- `strstr`: the index of the first occurrence of `needle`. -/
def strstr (needle : Bytes) : Bytes → Option ℕ
  | [] => if needle = [] then some 0 else none
  | b :: s => if needle.isPrefixOf (b :: s) then some 0 else (strstr needle s).map (· + 1)

theorem strstr_isSome_iff {needle : Bytes} : ∀ {s : Bytes}, (strstr needle s).isSome ↔ needle <:+: s
  | [] => by
      rw [strstr, List.infix_nil]
      split_ifs with h <;> simp [h]
  | b :: s => by
      rw [strstr, List.infix_cons_iff]
      split_ifs with h
      · simp [List.isPrefixOf_iff_prefix.mp h]
      · rw [List.isPrefixOf_iff_prefix] at h
        simp [h, strstr_isSome_iff (s := s)]

theorem strstr_eq_none_iff {needle s : Bytes} : strstr needle s = none ↔ ¬ needle <:+: s := by
  rw [← strstr_isSome_iff]
  cases strstr needle s <;> simp

/-- The search returns a position at which the needle stands. -/
theorem strstr_some {needle : Bytes} : ∀ {s : Bytes} {i : ℕ}, strstr needle s = some i →
    s.take i ++ needle <+: s ∧ i + needle.length ≤ s.length
  | [], i, h => by
      simp only [strstr] at h
      split_ifs at h with hn
      obtain rfl := Option.some.inj h
      simp [hn]
  | b :: s, i, h => by
      simp only [strstr] at h
      split_ifs at h with hp
      · obtain rfl := Option.some.inj h
        have hpre := List.isPrefixOf_iff_prefix.mp hp
        exact ⟨by simpa using hpre, by simpa using hpre.length_le⟩
      · obtain ⟨j, hj, rfl⟩ := Option.map_eq_some_iff.mp h
        obtain ⟨hpre, hlen⟩ := strstr_some hj
        refine ⟨by simpa using hpre, ?_⟩
        simpa using Nat.add_le_add_right hlen 1 |>.trans_eq' (by omega)

theorem strstr_first {needle : Bytes} (hne : needle ≠ []) : ∀ {s : Bytes} {i : ℕ},
    strstr needle s = some i → ¬ needle <:+: s.take i
  | [], i, _ => by simpa using hne
  | b :: s, i, h => by
      simp only [strstr] at h
      split_ifs at h with hp
      · obtain rfl := Option.some.inj h
        simpa using hne
      · obtain ⟨j, hj, rfl⟩ := Option.map_eq_some_iff.mp h
        rw [List.take_succ_cons, List.infix_cons_iff]
        rintro (hpre | hin)
        · have hcons : b :: s.take j <+: b :: s :=
            (List.prefix_cons_inj b).mpr (List.take_prefix j s)
          exact hp (List.isPrefixOf_iff_prefix.mpr (hpre.trans hcons))
        · exact strstr_first hne hj hin

end InverterTools
