import InverterTools.Lib.Numeral
import InverterTools.Lib.Rounding

/-! # Reading floating-point numbers from text

`CFloat` is a floating-point value: a rational, an infinity or not a number (the sign of zero is
not kept).  `strtod after F` is the C conversion to the format `F` in the C locale: decimal and
hexadecimal numerals, `inf`, `nan`, with trailing text ignored and overflow and inexact underflow
reported as out of range; `after` says whether the processor decides underflow after rounding.

Two readings of one text at different precisions round the same number (`strtod_eq_ok_fin`), so by
monotonicity a bound on one is, up to representable numbers, a bound on the other
(`strtod_le_of_le`, `strtod_nonneg`). -/

namespace InverterTools

/-- A floating-point value. -/
inductive CFloat where
  | nan
  | inf (neg : Bool)
  | fin (q : ℚ)
deriving DecidableEq, Repr

namespace CFloat

/-- `a < b`; every comparison with a NaN is false. -/
def lt : CFloat → CFloat → Bool
  | nan, _ => false
  | _, nan => false
  | inf true, inf neg => !neg
  | inf true, fin _ => true
  | inf false, _ => false
  | fin _, inf neg => !neg
  | fin p, fin q => decide (p < q)

/-- `a == b`; a NaN equals nothing. -/
def eq : CFloat → CFloat → Bool
  | inf a, inf b => a == b
  | fin p, fin q => decide (p = q)
  | _, _ => false

/-- Nearest integer, halfway cases away from zero: `round` of `<cmath>`. -/
def roundAway (q : ℚ) : ℤ := if q < 0 then -⌊-q + 1 / 2⌋ else ⌊q + 1 / 2⌋

end CFloat

namespace FloatFormat

variable (F : FloatFormat)

/-- The value an exact result is rounded to. -/
def round (q : ℚ) : CFloat :=
  let r := F.roundPos |q|
  if (2 : ℚ) ^ (F.emax + 1) ≤ r then .inf (decide (q < 0)) else .fin (if q < 0 then -r else r)

theorem round_of_lt {q : ℚ} (h0 : 0 ≤ q) (h : F.roundPos q < 2 ^ (F.emax + 1)) :
    F.round q = .fin (F.roundPos q) := by
  rw [round, abs_of_nonneg h0]
  simp only [if_neg (not_le.mpr h), if_neg (not_lt.mpr h0)]

theorem round_zero : F.round 0 = .fin 0 := by
  have hlt : F.roundPos 0 < 2 ^ (F.emax + 1) := by
    rw [F.roundPos_zero]
    exact zpow_pos (by norm_num) _
  rw [F.round_of_lt le_rfl hlt, F.roundPos_zero]

end FloatFormat

/-- What a text denotes before rounding; `q` is the magnitude. -/
inductive FloatText where
  | nan
  | inf (neg : Bool)
  | num (neg : Bool) (q : ℚ)
deriving DecidableEq, Repr

/-- Lower case of an ASCII letter. -/
def toLower (b : UInt8) : UInt8 := if 0x41 ≤ b ∧ b ≤ 0x5A then b + 0x20 else b

/-- `std::isxdigit`. -/
def isHexDigit (b : UInt8) : Bool := isDigit b || (0x61 ≤ toLower b && toLower b ≤ 0x66)

/-- The value of a hexadecimal digit. -/
def hexVal (b : UInt8) : ℕ := if isDigit b then digitVal b else (toLower b).toNat - 0x57

/-- The number a string of hexadecimal digits denotes. -/
def hexNumVal (s : Bytes) : ℕ := s.foldl (fun n b => 16 * n + hexVal b) 0

/-- Integer digits, fraction digits and what follows them. -/
def scanMantissa (p : UInt8 → Bool) (s : Bytes) : Bytes × Bytes × Bytes :=
  let rest := s.dropWhile p
  match rest with
  | 0x2E :: t => (s.takeWhile p, t.takeWhile p, t.dropWhile p)
  | _ => (s.takeWhile p, [], rest)

/-- The exponent after the letter `mark`, or zero where there is no complete one. -/
def scanExponent (mark : UInt8) : Bytes → ℤ
  | [] => 0
  | b :: s =>
      if toLower b = mark then
        let t := takeSign s
        let ds := t.2.takeWhile isDigit
        if t.1 then -numVal ds else numVal ds
      else 0

/-- The magnitude of a decimal numeral. -/
def scanDecimal (s : Bytes) : Option ℚ :=
  let m := scanMantissa isDigit s
  if m.1 = [] ∧ m.2.1 = [] then none
  else some (numVal (m.1 ++ m.2.1) * 10 ^ (scanExponent 0x65 m.2.2 - m.2.1.length))

/-- The magnitude of a hexadecimal numeral, after its `0x`. -/
def scanHex (s : Bytes) : Option ℚ :=
  let m := scanMantissa isHexDigit s
  if m.1 = [] ∧ m.2.1 = [] then none
  else some (hexNumVal (m.1 ++ m.2.1) * 2 ^ (scanExponent 0x70 m.2.2 - 4 * m.2.1.length))

/-- The number, infinity or NaN at the head of a text. -/
def scanFloat (s : Bytes) : Option FloatText :=
  let t := takeSign (s.dropWhile isSpace)
  let body := t.2
  if (body.take 3).map toLower = ascii "inf" then some (.inf t.1)
  else if (body.take 3).map toLower = ascii "nan" then some .nan
  else
    let hex := if (body.take 2).map toLower = ascii "0x" then scanHex (body.drop 2) else none
    match hex with
    | some q => some (.num t.1 q)
    | none => (scanDecimal body).map (FloatText.num t.1)

/-- `strtof` and `strtod`. -/
def strtod (after : Bool) (F : FloatFormat) (s : Bytes) : Conv CFloat :=
  match scanFloat s with
  | none => .noConversion
  | some .nan => .ok .nan
  | some (.inf neg) => .ok (.inf neg)
  | some (.num neg q) =>
      let r := F.roundPos q
      if (2 : ℚ) ^ (F.emax + 1) ≤ r then .outOfRange
      else if F.Tiny after q ∧ r ≠ q then .outOfRange
      else .ok (.fin (if neg then -r else r))

theorem scanDecimal_nonneg {s : Bytes} {q : ℚ} (h : scanDecimal s = some q) : 0 ≤ q := by
  simp only [scanDecimal] at h
  split_ifs at h
  obtain rfl := Option.some.inj h
  positivity

theorem scanHex_nonneg {s : Bytes} {q : ℚ} (h : scanHex s = some q) : 0 ≤ q := by
  simp only [scanHex] at h
  split_ifs at h
  obtain rfl := Option.some.inj h
  positivity

theorem scanFloat_nonneg {s : Bytes} {neg : Bool} {q : ℚ} (h : scanFloat s = some (.num neg q)) :
    0 ≤ q := by
  unfold scanFloat at h
  simp only at h
  split_ifs at h with h1 h2 h3
  · simp at h
  · simp at h
  · split at h
    · next q' hq' =>
        simp only [Option.some.injEq, FloatText.num.injEq] at h
        exact h.2 ▸ scanHex_nonneg hq'
    · obtain ⟨q', hq', he⟩ := Option.map_eq_some_iff.mp h
      simp only [FloatText.num.injEq] at he
      exact he.2 ▸ scanDecimal_nonneg hq'
  · obtain ⟨q', hq', he⟩ := Option.map_eq_some_iff.mp h
    simp only [FloatText.num.injEq] at he
    exact he.2 ▸ scanDecimal_nonneg hq'

theorem toLower_of_isDigit {b : UInt8} (h : isDigit b = true) : toLower b = b := by
  have hb := isDigit_iff.mp h
  rw [toLower, if_neg]
  rintro ⟨h1, -⟩
  have := UInt8.le_iff_toNat_le.mp h1
  simp only [UInt8.reduceToNat] at this
  omega

theorem scanMantissa_decimal {i f : Bytes} (hi : AllDigits i) (hf : AllDigits f) :
    scanMantissa isDigit (i ++ 0x2E :: f) = (i, f, []) := by
  have hpoint : isDigit 0x2E = false := rfl
  have hdrop : (i ++ 0x2E :: f).dropWhile isDigit = 0x2E :: f := by
    rw [List.dropWhile_append_of_pos hi, List.dropWhile_cons_of_neg (by simp [hpoint])]
  have htake : (i ++ 0x2E :: f).takeWhile isDigit = i := by
    rw [List.takeWhile_append_of_pos hi, List.takeWhile_cons_of_neg (by simp [hpoint]),
      List.append_nil]
  have htake' : f.takeWhile isDigit = f := List.takeWhile_eq_self_iff.mpr hf
  have hdrop' : f.dropWhile isDigit = [] := List.dropWhile_eq_nil_iff.mpr hf
  simp only [scanMantissa, hdrop, htake, htake', hdrop']

theorem scanFloat_decimal {i f : Bytes} (hi : AllDigits i) (hne : i ≠ []) (hf : AllDigits f) :
    scanFloat (i ++ 0x2E :: f) = some (.num false (numVal (i ++ f) / 10 ^ f.length)) := by
  obtain ⟨b, t, rfl⟩ := List.exists_cons_of_ne_nil hne
  have hb : isDigit b = true := hi b List.mem_cons_self
  have hlow := toLower_of_isDigit hb
  have hsign : takeSign ((b :: t ++ 0x2E :: f).dropWhile isSpace) =
      (false, b :: t ++ 0x2E :: f) := by
    rw [List.cons_append, List.dropWhile_cons_of_neg (by simp [not_isSpace_of_isDigit hb]),
      takeSign_of_isDigit hb]
  have hhead : ∀ x : UInt8, ∀ w : Bytes, isDigit x = false → ∀ k,
      ((b :: t ++ 0x2E :: f).take (k + 1)).map toLower ≠ x :: w := by
    intro x w hx k h
    rw [List.cons_append, List.take_succ_cons, List.map_cons, hlow] at h
    rw [← (List.cons.inj h).1, hb] at hx
    cases hx
  have hhex : ((b :: t ++ 0x2E :: f).take 2).map toLower ≠ ascii "0x" := by
    intro h
    cases t with
    | nil => cases (List.cons.inj (List.cons.inj h).2).1
    | cons c t =>
        have hc : isDigit c = true := hi c (List.mem_cons_of_mem _ List.mem_cons_self)
        have hx := (List.cons.inj (List.cons.inj h).2).1
        rw [toLower_of_isDigit hc] at hx
        rw [hx] at hc
        cases hc
  have hinf : ((b :: t ++ 0x2E :: f).take 3).map toLower ≠ ascii "inf" := hhead 0x69 _ rfl 2
  have hnan : ((b :: t ++ 0x2E :: f).take 3).map toLower ≠ ascii "nan" := hhead 0x6E _ rfl 2
  unfold scanFloat
  simp only [hsign]
  rw [if_neg hinf, if_neg hnan, if_neg hhex]
  simp only [scanDecimal, scanMantissa_decimal hi hf]
  rw [if_neg (by simp)]
  simp only [Option.map_some, scanExponent, zero_sub, zpow_neg, zpow_natCast, div_eq_mul_inv]

variable {after : Bool}

/-- A finite reading is the rounding of the number in the text. -/
theorem strtod_eq_ok_fin {F : FloatFormat} {s : Bytes} {r : ℚ}
    (h : strtod after F s = .ok (.fin r)) :
    ∃ neg q, scanFloat s = some (.num neg q) ∧ 0 ≤ q ∧
      r = if neg then -F.roundPos q else F.roundPos q := by
  unfold strtod at h
  split at h
  · cases h
  · cases h
  · cases h
  · next neg q hs =>
      simp only at h
      split_ifs at h with h1 h2 h3 <;> injection h with h <;> injection h with h <;>
        exact ⟨neg, q, hs, scanFloat_nonneg hs, by simp [*]⟩

/-- A number that neither overflows nor underflows is read, rounded to the format. -/
theorem strtod_of_num {F : FloatFormat} {s : Bytes} {neg : Bool} {q : ℚ}
    (hs : scanFloat s = some (.num neg q)) (hlt : F.roundPos q < 2 ^ (F.emax + 1))
    (hq : q = 0 ∨ 2 ^ F.emin ≤ q) :
    strtod after F s = .ok (.fin (if neg then -F.roundPos q else F.roundPos q)) := by
  unfold strtod
  simp only [hs]
  rw [if_neg (not_le.mpr hlt), if_neg]
  rintro ⟨hmin, hne⟩
  rcases hq with rfl | hq
  · exact hne F.roundPos_zero
  · exact F.not_tiny hq hmin

theorem strtod_eq_ok_nan_iff {F : FloatFormat} {s : Bytes} :
    strtod after F s = .ok .nan ↔ scanFloat s = some .nan := by
  unfold strtod
  split
  · next hs => simp [hs]
  · next hs => simp [hs]
  · next hs => simp [hs]
  · next hs =>
      simp only [hs]
      split_ifs <;> simp

theorem strtod_eq_ok_inf {F : FloatFormat} {s : Bytes} {neg : Bool}
    (h : strtod after F s = .ok (.inf neg)) : scanFloat s = some (.inf neg) := by
  unfold strtod at h
  split at h
  · cases h
  · cases h
  · next hs => injection h with h; injection h with h; rw [hs, h]
  · simp only at h
    split_ifs at h <;> injection h with h <;> cases h

/-- A reading is zero only for a text that denotes zero: anything smaller is out of range. -/
theorem scanFloat_of_strtod_zero {F : FloatFormat} {s : Bytes}
    (h : strtod after F s = .ok (.fin 0)) :
    ∃ neg, scanFloat s = some (.num neg 0) := by
  unfold strtod at h
  split at h
  · cases h
  · cases h
  · cases h
  · next neg q hs =>
      refine ⟨neg, ?_⟩
      simp only at h
      split_ifs at h with h1 h2 h3
      all_goals
        injection h with h
        injection h with h
        have hz : F.roundPos q = 0 := by simpa using h
        rw [hz] at h2
        have hq : q = 0 := by
          by_contra hne
          have hpos : 0 < q := lt_of_le_of_ne (scanFloat_nonneg hs) (Ne.symm hne)
          exact h2 ⟨F.tiny_of_roundPos_eq_zero hpos hz, Ne.symm hne⟩
        rw [hs, hq]

/-- A text that reads as a non-negative number in one format reads so in the other. -/
theorem strtod_nonneg {F G : FloatFormat} {s : Bytes} {r r' : ℚ}
    (hF : strtod after F s = .ok (.fin r)) (hG : strtod after G s = .ok (.fin r')) (hr : 0 ≤ r) :
    0 ≤ r' := by
  obtain ⟨neg', q', hs', hq', rfl⟩ := strtod_eq_ok_fin hG
  have hGq := G.roundPos_nonneg hq'
  cases neg' with
  | false => simpa using hGq
  | true =>
      obtain ⟨neg, q, hs, hq, rfl⟩ := strtod_eq_ok_fin hF
      obtain ⟨rfl, rfl⟩ : neg = true ∧ q = q' := by simpa [hs] using hs'
      have hFq := F.roundPos_nonneg hq
      simp only [if_true] at hr hF
      have hz : F.roundPos q = 0 := by linarith
      rw [hz, neg_zero] at hF
      obtain ⟨neg, hs0⟩ := scanFloat_of_strtod_zero hF
      obtain ⟨-, rfl⟩ : neg = true ∧ 0 = q := by simpa [hs0] using hs'
      simp [G.roundPos_zero]

theorem strtod_le_of_le {F G : FloatFormat} {s : Bytes} {r r' : ℚ}
    (hF : strtod after F s = .ok (.fin r)) (hG : strtod after G s = .ok (.fin r')) {n : ℕ}
    (hFn : n < 2 ^ F.prec) (hGn : n < 2 ^ G.prec) (hr : r < n) : r' ≤ n := by
  obtain ⟨neg, q, hs, hq, rfl⟩ := strtod_eq_ok_fin hF
  obtain ⟨neg', q', hs', -, rfl⟩ := strtod_eq_ok_fin hG
  obtain ⟨rfl, rfl⟩ : neg = neg' ∧ q = q' := by simpa [hs] using hs'
  have hGq := G.roundPos_nonneg hq
  have hn' : (0 : ℚ) ≤ n := by positivity
  cases neg with
  | true => simp only [if_true]; linarith
  | false =>
      simp only [Bool.false_eq_true, if_false] at hr ⊢
      by_contra hgt
      have hqn : (n : ℚ) ≤ q := by
        by_contra hlt
        have := G.roundPos_mono hq (not_le.mp hlt).le
        rw [G.roundPos_natCast hGn] at this
        exact hgt this
      have := F.roundPos_mono hn' hqn
      rw [F.roundPos_natCast hFn] at this
      linarith

end InverterTools
