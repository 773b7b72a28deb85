import InverterTools.Lib.Bytes

/-! # Reading integers from text

`strtoul` and `strtol` in base 10 for the 64-bit `long` of the targets: white space, an optional
sign, then as many digits as there are; whatever follows is ignored.  `strtoul` takes a minus
sign as negation modulo `2 ^ 64`. -/

namespace InverterTools

/-- Result of a conversion that reports through `endptr` and `errno`. -/
inductive Conv (α : Type) where
  | noConversion
  | outOfRange
  | ok (a : α)
deriving DecidableEq, Repr

/-- An optional sign at the head of a text. -/
def takeSign : Bytes → Bool × Bytes
  | 0x2D :: s => (true, s)
  | 0x2B :: s => (false, s)
  | s => (false, s)

/-- Sign and magnitude of the decimal integer at the head of a text, if there is one. -/
def scanInt (s : Bytes) : Option (Bool × ℕ) :=
  let t := takeSign (s.dropWhile isSpace)
  let ds := t.2.takeWhile isDigit
  if ds = [] then none else some (t.1, numVal ds)

/-- `strtoul(s, &end, 10)`. -/
def strtoul (s : Bytes) : Conv ℕ :=
  match scanInt s with
  | none => .noConversion
  | some (neg, n) =>
      if 2 ^ 64 ≤ n then .outOfRange else .ok (if neg then (2 ^ 64 - n) % 2 ^ 64 else n)

/-- `strtol(s, &end, 10)`. -/
def strtol (s : Bytes) : Conv ℤ :=
  match scanInt s with
  | none => .noConversion
  | some (neg, n) =>
      let z : ℤ := if neg then -n else n
      if z < -2 ^ 63 ∨ 2 ^ 63 ≤ z then .outOfRange else .ok z

/-- The integer a text begins with. -/
def intValue (s : Bytes) : Option ℤ :=
  (scanInt s).map fun n => if n.1 then -(n.2 : ℤ) else n.2

theorem takeSign_of_isDigit {b : UInt8} {s : Bytes} (h : isDigit b = true) :
    takeSign (b :: s) = (false, b :: s) := by
  have hb := isDigit_iff.mp h
  unfold takeSign
  split
  · next heq => obtain ⟨rfl, -⟩ := List.cons.inj heq; simp at hb
  · next heq => obtain ⟨rfl, -⟩ := List.cons.inj heq; simp at hb
  · rfl

/-- A non-empty string of digits, whatever follows it, is read as the number it denotes. -/
theorem scanInt_digits {s t : Bytes} (h : AllDigits s) (hs : s ≠ [])
    (ht : ∀ b ∈ t.head?, isDigit b = false) : scanInt (s ++ t) = some (false, numVal s) := by
  cases s with
  | nil => exact absurd rfl hs
  | cons b s =>
      have hb := h b (by simp)
      have htake : (b :: s ++ t).takeWhile isDigit = b :: s := by
        rw [List.takeWhile_append_of_pos h]
        cases t with
        | nil => simp
        | cons c t => simp [ht c (by simp)]
      have hdrop : (b :: s ++ t).dropWhile isSpace = b :: s ++ t := by
        simp [not_isSpace_of_isDigit hb]
      simp only [scanInt, hdrop]
      rw [List.cons_append, takeSign_of_isDigit hb, ← List.cons_append, htake]
      simp

theorem scanInt_allDigits {s : Bytes} (h : AllDigits s) (hs : s ≠ []) :
    scanInt s = some (false, numVal s) := by
  simpa using scanInt_digits (t := []) h hs (by simp)

theorem strtoul_allDigits {s : Bytes} (h : AllDigits s) (hs : s ≠ []) (hv : numVal s < 2 ^ 64) :
    strtoul s = .ok (numVal s) := by
  rw [strtoul, scanInt_allDigits h hs]
  simp only [if_neg (Nat.not_le.mpr hv)]
  rfl

theorem strtol_allDigits {s : Bytes} (h : AllDigits s) (hs : s ≠ []) (hv : numVal s < 2 ^ 63) :
    strtol s = .ok (numVal s) := by
  rw [strtol, scanInt_allDigits h hs]
  simp only [Bool.false_eq_true, if_false]
  rw [if_neg (by omega)]

theorem takeSign_suffix (s : Bytes) : (takeSign s).2 <:+ s := by
  unfold takeSign
  split
  · exact List.suffix_cons _ _
  · exact List.suffix_cons _ _
  · exact List.suffix_rfl

/-- The text begins with a number below `2 ^ 64`. -/
def HasNumber (s : Bytes) : Prop := ∃ p, scanInt s = some p ∧ p.2 < 2 ^ 64

theorem hasNumber_iff {s : Bytes} : HasNumber s ↔ ∃ n, strtoul s = .ok n := by
  unfold HasNumber strtoul
  cases scanInt s with
  | none => simp
  | some p =>
      simp only [Option.some.injEq, exists_eq_left']
      by_cases hp : 2 ^ 64 ≤ p.2
      · rw [if_pos hp]
        exact iff_of_false (by omega) (by simp)
      · rw [if_neg hp]
        exact iff_of_true (by omega) ⟨_, rfl⟩

theorem exists_isDigit_of_scanInt {s : Bytes} {p : Bool × ℕ} (h : scanInt s = some p) :
    ∃ b ∈ s, isDigit b = true := by
  simp only [scanInt] at h
  split_ifs at h with hds
  obtain ⟨b, hb⟩ := List.exists_mem_of_ne_nil _ hds
  have hsuffix := (takeSign_suffix (s.dropWhile isSpace)).trans (List.dropWhile_suffix _)
  exact ⟨b, hsuffix.subset (List.takeWhile_subset _ hb), List.mem_takeWhile_imp hb⟩

theorem scanInt_lt_pow {s : Bytes} {neg : Bool} {n : ℕ} (h : scanInt s = some (neg, n)) :
    n < 10 ^ s.length := by
  simp only [scanInt] at h
  split_ifs at h
  obtain ⟨-, rfl⟩ := Prod.mk.inj (Option.some.inj h)
  have hdigits : AllDigits ((takeSign (s.dropWhile isSpace)).2.takeWhile isDigit) :=
    fun b hb => List.mem_takeWhile_imp hb
  refine (numVal_lt_pow hdigits).trans_le (Nat.pow_le_pow_right (by norm_num) ?_)
  exact (List.takeWhile_prefix _).length_le.trans
    ((takeSign_suffix _).length_le.trans (List.dropWhile_suffix _).length_le)

/-- A short text is read as a small number or as one that is small modulo `2 ^ 64`. -/
theorem strtoul_lt_pow {s : Bytes} {n : ℕ} (h : strtoul s = .ok n) :
    n < 10 ^ s.length ∨ 2 ^ 64 < n + 10 ^ s.length := by
  unfold strtoul at h
  split at h
  · cases h
  · next neg m hs =>
      have := scanInt_lt_pow hs
      split_ifs at h <;> injection h <;> omega

/-- A magnitude below `2 ^ 64`. -/
def FitsULong (z : ℤ) : Prop := -2 ^ 64 < z ∧ z < 2 ^ 64

instance (z : ℤ) : Decidable (FitsULong z) := inferInstanceAs (Decidable (_ ∧ _))

/-- `strtoul` takes the integer modulo `2 ^ 64`. -/
theorem strtoul_eq (s : Bytes) : strtoul s = match intValue s with
    | none => .noConversion
    | some z => if FitsULong z then .ok (z % 2 ^ 64).toNat else .outOfRange := by
  unfold strtoul intValue
  cases scanInt s with
  | none => rfl
  | some p =>
      obtain ⟨neg, m⟩ := p
      simp only [Option.map_some]
      generalize hz : (if neg = true then -(m : ℤ) else m) = z
      have hsign : z = -(m : ℤ) ∧ neg = true ∨ z = m ∧ neg = false := by
        cases neg <;> simp [← hz]
      have hfits : FitsULong z ↔ ¬ 2 ^ 64 ≤ m := by
        unfold FitsULong
        omega
      by_cases hm : 2 ^ 64 ≤ m
      · rw [if_pos hm, if_neg (by rwa [hfits, not_not])]
      · rw [if_neg hm, if_pos (hfits.mpr hm), Conv.ok.injEq]
        rcases hsign with ⟨rfl, rfl⟩ | ⟨rfl, rfl⟩
        · rw [if_pos rfl]
          omega
        · rw [if_neg (by simp)]
          omega

theorem strtoul_eq_ok_iff {s : Bytes} {n : ℕ} : strtoul s = .ok n ↔
    ∃ z, intValue s = some z ∧ FitsULong z ∧ (n : ℤ) = z % 2 ^ 64 := by
  rw [strtoul_eq]
  cases intValue s with
  | none => simp
  | some z =>
      simp only [Option.some.injEq, exists_eq_left']
      by_cases hz : FitsULong z
      · rw [if_pos hz, Conv.ok.injEq]
        have hpos := Int.emod_nonneg z (show (2 : ℤ) ^ 64 ≠ 0 by norm_num)
        exact ⟨fun h => ⟨hz, by omega⟩, fun h => by omega⟩
      · rw [if_neg hz]
        simp [hz]

theorem strtol_eq_ok_iff {s : Bytes} {z : ℤ} : strtol s = .ok z ↔
    intValue s = some z ∧ -2 ^ 63 ≤ z ∧ z < 2 ^ 63 := by
  unfold strtol intValue
  cases scanInt s with
  | none => simp
  | some p =>
      simp only [Option.map_some, Option.some.injEq]
      generalize (if p.1 = true then -(p.2 : ℤ) else p.2) = v
      by_cases h : v < -2 ^ 63 ∨ 2 ^ 63 ≤ v
      · rw [if_pos h]
        exact iff_of_false (by simp) (by omega)
      · rw [if_neg h, Conv.ok.injEq]
        omega

theorem strtoul_strtol {s : Bytes} {n : ℕ} {z : ℤ} (hu : strtoul s = .ok n)
    (hl : strtol s = .ok z) : (n : ℤ) = z % 2 ^ 64 := by
  unfold strtoul at hu
  unfold strtol at hl
  cases hs : scanInt s with
  | none => simp [hs] at hu
  | some p =>
      obtain ⟨neg, m⟩ := p
      simp only [hs] at hu hl
      cases neg <;> simp only [Bool.false_eq_true, if_false, if_true] at hu hl <;>
        split_ifs at hu hl <;> injection hu with hu <;> injection hl with hl <;> omega

end InverterTools
