import Mathlib.Tactic
import Mathlib.Data.Int.Log
import Mathlib.Data.Rat.Floor

/-! # Rounding to a binary floating-point format

Values are exact rationals.  `roundPos F q` is the value nearest to `q ≥ 0` among the numbers
with `F.prec` significant bits and exponent at least `F.emin`, ties to the even significand.
Rounding is monotone (`roundPos_mono`) and fixes the natural numbers below `2 ^ prec`
(`roundPos_natCast`); these two facts carry every range argument about parsed numbers. -/

namespace InverterTools

/-- The nearest integer, ties to even. -/
def roundEven (q : ℚ) : ℤ :=
  if q - ⌊q⌋ < 1 / 2 then ⌊q⌋
  else if 1 / 2 < q - ⌊q⌋ then ⌊q⌋ + 1
  else if ⌊q⌋ % 2 = 0 then ⌊q⌋ else ⌊q⌋ + 1

theorem floor_le_roundEven (q : ℚ) : ⌊q⌋ ≤ roundEven q := by
  unfold roundEven
  split_ifs <;> omega

theorem roundEven_le_floor_add_one (q : ℚ) : roundEven q ≤ ⌊q⌋ + 1 := by
  unfold roundEven
  split_ifs <;> omega

@[simp] theorem roundEven_intCast (z : ℤ) : roundEven (z : ℚ) = z := by
  rw [roundEven, Int.floor_intCast, if_pos (by simp)]

theorem roundEven_mono {p q : ℚ} (h : p ≤ q) : roundEven p ≤ roundEven q := by
  have hf : ⌊p⌋ ≤ ⌊q⌋ := Int.floor_le_floor h
  rcases hf.lt_or_eq with hlt | heq
  · have h1 := roundEven_le_floor_add_one p
    have h2 := floor_le_roundEven q
    omega
  · unfold roundEven
    rw [heq]
    split_ifs with h1 h2 h3 h4 h5 h6 <;> first | omega | (exfalso; linarith)

/-- The numbers that round to an integer or above: those behind the half before it, and this half
itself when the integer is even. -/
theorem le_roundEven_iff (k : ℤ) (x : ℚ) :
    k ≤ roundEven x ↔ (k : ℚ) - 1 / 2 < x ∨ (x = k - 1 / 2 ∧ k % 2 = 0) := by
  have hlo := Int.floor_le x
  have hhi := Int.lt_floor_add_one x
  rcases lt_trichotomy k (⌊x⌋ + 1) with hk | rfl | hk
  · have hkf : (k : ℚ) ≤ ⌊x⌋ := by exact_mod_cast Int.lt_add_one_iff.mp hk
    refine iff_of_true ((Int.lt_add_one_iff.mp hk).trans (floor_le_roundEven x)) (.inl ?_)
    linarith
  · -- the integer next to `x`: the three cases of the rounding
    push_cast
    unfold roundEven
    split_ifs with h1 h2 h3
    · refine iff_of_false (by omega) ?_
      rintro (h | ⟨h, -⟩) <;> linarith
    · refine iff_of_true le_rfl (.inl ?_)
      linarith
    · refine iff_of_false (by omega) ?_
      rintro (h | ⟨-, h⟩)
      · linarith
      · omega
    · refine iff_of_true le_rfl (.inr ⟨?_, by omega⟩)
      linarith
  · have hkf : (⌊x⌋ : ℚ) + 2 ≤ k := by exact_mod_cast (show ⌊x⌋ + 2 ≤ k by omega)
    have := roundEven_le_floor_add_one x
    refine iff_of_false (by omega) ?_
    rintro (h | ⟨h, -⟩) <;> linarith

theorem abs_roundEven_sub_le (q : ℚ) : |(roundEven q : ℚ) - q| ≤ 1 / 2 := by
  have hlo := Int.floor_le q
  have hhi := Int.lt_floor_add_one q
  rw [abs_le]
  unfold roundEven
  split_ifs <;> push_cast <;> constructor <;> linarith

/-- A binary format: bits of precision and the range of exponents. -/
structure FloatFormat where
  prec : ℕ
  emin : ℤ
  emax : ℤ
  prec_pos : 0 < prec
  emin_nonpos : emin ≤ 0

/-- IEEE 754 binary32, the type `float`. -/
def binary32 : FloatFormat := ⟨24, -126, 127, by norm_num, by norm_num⟩
/-- IEEE 754 binary64, the type `double`. -/
def binary64 : FloatFormat := ⟨53, -1022, 1023, by norm_num, by norm_num⟩

namespace FloatFormat

variable (F : FloatFormat)

/-- Exponent of the leading bit, no smaller than the least normal exponent. -/
def expOf (q : ℚ) : ℤ := max (Int.log 2 q) F.emin

/-- Distance of neighbouring values around `q`. -/
def ulp (q : ℚ) : ℚ := 2 ^ (F.expOf q - F.prec + 1)

/-- Round a non-negative number to the format, exponents unbounded above. -/
def roundPos (q : ℚ) : ℚ := roundEven (q / F.ulp q) * F.ulp q

/-- Round to the precision of the format, exponents unbounded below too. -/
def roundNormal (q : ℚ) : ℚ :=
  let unit : ℚ := 2 ^ (Int.log 2 q - F.prec + 1)
  roundEven (q / unit) * unit

/-- `q` is tiny.  IEEE 754 leaves open whether this is decided before rounding or after it. -/
def Tiny (afterRounding : Bool) (q : ℚ) : Prop :=
  (if afterRounding then F.roundNormal q else q) < 2 ^ F.emin

instance (afterRounding : Bool) (q : ℚ) : Decidable (F.Tiny afterRounding q) :=
  inferInstanceAs (Decidable (_ < _))

theorem ulp_pos (q : ℚ) : 0 < F.ulp q := zpow_pos (by norm_num) _

theorem roundPos_zero : F.roundPos 0 = 0 := by
  simp only [roundPos, zero_div]
  rw [show (0 : ℚ) = ((0 : ℤ) : ℚ) by norm_num, roundEven_intCast]
  simp

theorem roundPos_nonneg {q : ℚ} (h : 0 ≤ q) : 0 ≤ F.roundPos q := by
  have h0 : (0 : ℤ) ≤ roundEven (q / F.ulp q) := by
    have := roundEven_mono (div_nonneg h (F.ulp_pos q).le)
    rwa [show (0 : ℚ) = ((0 : ℤ) : ℚ) by norm_num, roundEven_intCast] at this
  exact mul_nonneg (by exact_mod_cast h0) (F.ulp_pos q).le

theorem roundPos_le_two_zpow {q : ℚ} (hq : q < 2 ^ (F.expOf q + 1)) :
    F.roundPos q ≤ 2 ^ (F.expOf q + 1) := by
  have hu := F.ulp_pos q
  have hsplit : (2 : ℚ) ^ (F.expOf q + 1) = ((2 ^ F.prec : ℤ) : ℚ) * F.ulp q := by
    rw [ulp, Int.cast_pow, Int.cast_ofNat, ← zpow_natCast, ← zpow_add₀ (by norm_num)]
    congr 1
    ring
  have hdiv : q / F.ulp q ≤ ((2 ^ F.prec : ℤ) : ℚ) := by
    rw [div_le_iff₀ hu, ← hsplit]
    exact hq.le
  have := roundEven_mono hdiv
  rw [roundEven_intCast] at this
  rw [hsplit]
  exact mul_le_mul_of_nonneg_right (by exact_mod_cast this) hu.le

/-- Numbers at or above their leading power of two stay there. -/
theorem two_zpow_le_roundPos {q : ℚ} (hq : (2 : ℚ) ^ F.expOf q ≤ q) :
    (2 : ℚ) ^ F.expOf q ≤ F.roundPos q := by
  have hu := F.ulp_pos q
  have hsplit : (2 : ℚ) ^ F.expOf q = ((2 ^ (F.prec - 1) : ℤ) : ℚ) * F.ulp q := by
    have hp := F.prec_pos
    rw [ulp, Int.cast_pow, Int.cast_ofNat, ← zpow_natCast, ← zpow_add₀ (by norm_num)]
    congr 1
    omega
  have hdiv : ((2 ^ (F.prec - 1) : ℤ) : ℚ) ≤ q / F.ulp q := by
    rw [le_div_iff₀ hu, ← hsplit]
    exact hq
  have := roundEven_mono hdiv
  rw [roundEven_intCast] at this
  rw [hsplit]
  exact mul_le_mul_of_nonneg_right (by exact_mod_cast this) hu.le

theorem lt_two_zpow_expOf (q : ℚ) : q < 2 ^ (F.expOf q + 1) := by
  have h := Int.lt_zpow_succ_log_self (b := 2) (by norm_num) q
  refine lt_of_lt_of_le (by exact_mod_cast h) ?_
  have hexp := le_max_left (Int.log 2 q) F.emin
  exact zpow_le_zpow_right₀ (by norm_num) (by unfold expOf; omega)

theorem two_zpow_expOf_le {q : ℚ} (hq : (2 : ℚ) ^ F.emin ≤ q) : (2 : ℚ) ^ F.expOf q ≤ q := by
  have hpos : 0 < q := lt_of_lt_of_le (zpow_pos (by norm_num) _) hq
  rcases max_choice (Int.log 2 q) F.emin with h | h <;> rw [expOf, h]
  · exact_mod_cast Int.zpow_log_le_self (b := 2) (by norm_num) hpos
  · exact hq

theorem roundPos_pos {q : ℚ} (hq : (2 : ℚ) ^ F.emin ≤ q) : 0 < F.roundPos q :=
  lt_of_lt_of_le (zpow_pos (by norm_num) _) (F.two_zpow_le_roundPos (F.two_zpow_expOf_le hq))

theorem roundNormal_le {q : ℚ} : F.roundNormal q ≤ 2 ^ (Int.log 2 q + 1) := by
  have hunit : (0 : ℚ) < 2 ^ (Int.log 2 q - F.prec + 1) := zpow_pos (by norm_num) _
  have hsplit : (2 : ℚ) ^ (Int.log 2 q + 1) =
      ((2 ^ F.prec : ℤ) : ℚ) * 2 ^ (Int.log 2 q - F.prec + 1) := by
    rw [Int.cast_pow, Int.cast_ofNat, ← zpow_natCast, ← zpow_add₀ (by norm_num)]
    congr 1
    ring
  have hlt : q < 2 ^ (Int.log 2 q + 1) := by
    exact_mod_cast Int.lt_zpow_succ_log_self (b := 2) (by norm_num) q
  have hround := roundEven_mono ((div_le_iff₀ hunit).mpr (hsplit ▸ hlt.le))
  rw [roundEven_intCast] at hround
  rw [hsplit]
  exact mul_le_mul_of_nonneg_right (by exact_mod_cast hround) hunit.le

/-- In the last binade before the normal numbers only the last half unit rounds up to them. -/
theorem roundNormal_lt_iff {q : ℚ} (heq : Int.log 2 q + 1 = F.emin) :
    F.roundNormal q < 2 ^ F.emin ↔ q < 2 ^ F.emin - 2 ^ (F.emin - F.prec - 1) := by
  have hunit : (2 : ℚ) ^ (Int.log 2 q - F.prec + 1) = 2 * 2 ^ (F.emin - F.prec - 1) := by
    rw [← zpow_one_add₀ (by norm_num)]
    congr 1
    omega
  have hemin : (2 : ℚ) ^ F.emin =
      ((2 ^ F.prec : ℤ) : ℚ) * (2 * 2 ^ (F.emin - F.prec - 1)) := by
    rw [← hunit, Int.cast_pow, Int.cast_ofNat, ← zpow_natCast, ← zpow_add₀ (by norm_num)]
    congr 1
    omega
  have heven : (2 ^ F.prec : ℤ) % 2 = 0 :=
    Int.emod_eq_zero_of_dvd (dvd_pow_self 2 F.prec_pos.ne')
  have hpos : (0 : ℚ) < 2 * 2 ^ (F.emin - F.prec - 1) := by positivity
  rw [roundNormal, hunit, hemin, mul_lt_mul_iff_of_pos_right hpos, Int.cast_lt, ← not_le,
    le_roundEven_iff]
  have hscaled : q / (2 * 2 ^ (F.emin - F.prec - 1)) * (2 * 2 ^ (F.emin - F.prec - 1)) = q :=
    div_mul_cancel₀ q hpos.ne'
  constructor
  · intro hnot
    by_contra hle
    apply hnot
    rcases lt_or_eq_of_le (not_lt.mp hle) with hlt | heq'
    · left
      rw [lt_div_iff₀ hpos]
      linarith
    · right
      refine ⟨?_, heven⟩
      rw [div_eq_iff hpos.ne']
      linarith
  · rintro hq (hlt | ⟨heq', -⟩)
    · rw [lt_div_iff₀ hpos] at hlt
      linarith
    · rw [heq'] at hscaled
      linarith

/-- Which numbers are tiny: those below the normal ones, less half a unit when the decision comes
after rounding. -/
theorem tiny_iff {after : Bool} {q : ℚ} (h0 : 0 < q) :
    F.Tiny after q ↔ q < 2 ^ F.emin - if after then 2 ^ (F.emin - F.prec - 1) else 0 := by
  cases after with
  | false => simp [Tiny]
  | true =>
      show F.roundNormal q < 2 ^ F.emin ↔ q < 2 ^ F.emin - 2 ^ (F.emin - F.prec - 1)
      have hhalf : (0 : ℚ) < 2 ^ (F.emin - F.prec - 1) := zpow_pos (by norm_num) _
      rcases lt_trichotomy (Int.log 2 q + 1) F.emin with hlt | heq | hgt
      · -- one binade further down neither side can be reached
        have hq : q < 2 ^ (Int.log 2 q + 1) := by
          exact_mod_cast Int.lt_zpow_succ_log_self (b := 2) (by norm_num) q
        have hdown : (2 : ℚ) ^ (Int.log 2 q + 1) ≤ 2 ^ (F.emin - 1) :=
          zpow_le_zpow_right₀ (by norm_num) (by omega)
        have hhalf' : (2 : ℚ) ^ (F.emin - F.prec - 1) ≤ 2 ^ (F.emin - 1) :=
          zpow_le_zpow_right₀ (by norm_num) (by omega)
        have hemin : (2 : ℚ) ^ F.emin = 2 * 2 ^ (F.emin - 1) := by
          rw [← zpow_one_add₀ (by norm_num)]
          congr 1
          ring
        have hpos : (0 : ℚ) < 2 ^ (F.emin - 1) := zpow_pos (by norm_num) _
        have hround := F.roundNormal_le (q := q)
        exact iff_of_true (by linarith) (by linarith)
      · exact F.roundNormal_lt_iff heq
      · have hlog : F.emin ≤ Int.log 2 q := by omega
        have hle : (2 : ℚ) ^ F.emin ≤ q := by
          have hself : (2 : ℚ) ^ Int.log 2 q ≤ q := by
            exact_mod_cast Int.zpow_log_le_self (b := 2) (by norm_num) h0
          exact (zpow_le_zpow_right₀ (by norm_num) hlog).trans hself
        have hround : F.roundNormal q = F.roundPos q := by
          rw [roundNormal, roundPos, ulp, expOf, max_eq_left hlog]
        have hup := F.two_zpow_le_roundPos (F.two_zpow_expOf_le hle)
        rw [expOf, max_eq_left hlog] at hup
        have hpow : (2 : ℚ) ^ F.emin ≤ 2 ^ Int.log 2 q := zpow_le_zpow_right₀ (by norm_num) hlog
        rw [hround]
        exact iff_of_false (by linarith) (by linarith)

theorem not_tiny {after : Bool} {q : ℚ} (hq : (2 : ℚ) ^ F.emin ≤ q) : ¬ F.Tiny after q := by
  have hhalf : (0 : ℚ) < 2 ^ (F.emin - F.prec - 1) := zpow_pos (by norm_num) _
  rw [F.tiny_iff (lt_of_lt_of_le (zpow_pos (by norm_num) _) hq)]
  split_ifs <;> linarith

/-- A positive number that rounds to zero is tiny, whichever way this is decided. -/
theorem tiny_of_roundPos_eq_zero {after : Bool} {q : ℚ} (h0 : 0 < q) (hq : F.roundPos q = 0) :
    F.Tiny after q := by
  by_contra hnot
  rcases le_or_gt ((2 : ℚ) ^ F.emin) q with hle | hlt
  · exact (F.roundPos_pos hle).ne' hq
  have hlog : Int.log 2 q < F.emin :=
    (Int.lt_zpow_iff_log_lt (by norm_num) h0).mp (by exact_mod_cast hlt)
  have hp := F.prec_pos
  have hulp : F.ulp q ≤ 2 ^ F.emin := by
    rw [ulp, expOf, max_eq_right hlog.le]
    exact zpow_le_zpow_right₀ (by norm_num) (by omega)
  -- what is not tiny is more than half of the unit
  have hbound : (2 : ℚ) ^ F.emin / 2 < q := by
    have hquarter : (2 : ℚ) ^ (F.emin - F.prec - 1) ≤ 2 ^ (F.emin - 2) :=
      zpow_le_zpow_right₀ (by norm_num) (by omega)
    have hemin : (2 : ℚ) ^ F.emin = 4 * 2 ^ (F.emin - 2) := by
      rw [show (4 : ℚ) = 2 ^ (2 : ℤ) by norm_num, ← zpow_add₀ (by norm_num)]
      congr 1
      ring
    have hpos : (0 : ℚ) < 2 ^ (F.emin - 2) := zpow_pos (by norm_num) _
    rw [F.tiny_iff h0, not_lt] at hnot
    split_ifs at hnot <;> linarith
  have hone : 1 ≤ roundEven (q / F.ulp q) := by
    apply (le_roundEven_iff 1 _).mpr
    left
    rw [lt_div_iff₀ (F.ulp_pos q)]
    push_cast
    linarith
  have hone : (1 : ℚ) ≤ roundEven (q / F.ulp q) := by exact_mod_cast hone
  have hpos := mul_pos (zero_lt_one.trans_le hone) (F.ulp_pos q)
  exact hpos.ne' hq

/-- **Rounding is monotone** on non-negative numbers. -/
theorem roundPos_mono {p q : ℚ} (hp : 0 ≤ p) (h : p ≤ q) : F.roundPos p ≤ F.roundPos q := by
  rcases hp.eq_or_lt with rfl | hp
  · rw [roundPos_zero]
    exact F.roundPos_nonneg h
  have hlog : Int.log 2 p ≤ Int.log 2 q := Int.log_mono_right hp h
  have hexp : F.expOf p ≤ F.expOf q := max_le_max_right _ hlog
  rcases hexp.lt_or_eq with hlt | heq
  · -- the leading power of two of `q` separates the two results
    have hq : F.expOf q = Int.log 2 q := by
      have h1 := le_max_right (Int.log 2 p) F.emin
      unfold expOf at hlt ⊢
      omega
    have hle : (2 : ℚ) ^ F.expOf q ≤ q := by
      rw [hq]
      exact_mod_cast Int.zpow_log_le_self (b := 2) (by norm_num) (hp.trans_le h)
    calc F.roundPos p ≤ 2 ^ (F.expOf p + 1) := F.roundPos_le_two_zpow (F.lt_two_zpow_expOf p)
      _ ≤ 2 ^ F.expOf q := zpow_le_zpow_right₀ (by norm_num) (by omega)
      _ ≤ F.roundPos q := F.two_zpow_le_roundPos hle
  · have hu : F.ulp p = F.ulp q := by rw [ulp, ulp, heq]
    have hdiv : p / F.ulp q ≤ q / F.ulp q := div_le_div_of_nonneg_right h (F.ulp_pos q).le
    rw [roundPos, roundPos, hu]
    exact mul_le_mul_of_nonneg_right (by exact_mod_cast roundEven_mono hdiv) (F.ulp_pos q).le

theorem lt_of_roundPos_lt {p q : ℚ} (hq : 0 ≤ q) (h : F.roundPos p < F.roundPos q) : p < q := by
  by_contra hle
  exact absurd h (not_lt.mpr (F.roundPos_mono hq (not_lt.mp hle)))

theorem abs_roundPos_sub_le (q : ℚ) : |F.roundPos q - q| ≤ F.ulp q / 2 := by
  have hu := F.ulp_pos q
  have hsplit : F.roundPos q - q = (roundEven (q / F.ulp q) - q / F.ulp q) * F.ulp q := by
    rw [roundPos, sub_mul, div_mul_cancel₀ q hu.ne']
  calc |F.roundPos q - q| = |(roundEven (q / F.ulp q) : ℚ) - q / F.ulp q| * F.ulp q := by
        rw [hsplit, abs_mul, abs_of_pos hu]
    _ ≤ 1 / 2 * F.ulp q := mul_le_mul_of_nonneg_right (abs_roundEven_sub_le _) hu.le
    _ = F.ulp q / 2 := by ring

theorem roundPos_near {q : ℚ} {e : ℤ} {s : ℕ} (he : F.emin ≤ e) (hs : e - F.prec + 1 = -s)
    (h0 : 0 < q) (h : q < (2 : ℚ) ^ (e + 1)) : |F.roundPos q - q| ≤ 1 / 2 ^ (s + 1) := by
  have hlog : Int.log 2 q < e + 1 :=
    (Int.lt_zpow_iff_log_lt (by norm_num) h0).mp (by exact_mod_cast h)
  have hexp : F.expOf q ≤ e := max_le (Int.lt_add_one_iff.mp hlog) he
  have hulp : F.ulp q ≤ 1 / 2 ^ s := by
    calc F.ulp q ≤ (2 : ℚ) ^ (e - F.prec + 1) := zpow_le_zpow_right₀ (by norm_num) (by omega)
      _ = 1 / 2 ^ s := by rw [hs, zpow_neg, zpow_natCast, one_div]
  calc |F.roundPos q - q| ≤ F.ulp q / 2 := F.abs_roundPos_sub_le q
    _ ≤ 1 / 2 ^ s / 2 := div_le_div_of_nonneg_right hulp (by norm_num)
    _ = 1 / 2 ^ (s + 1) := by rw [pow_succ, div_div]

theorem expOf_eq {q : ℚ} {e : ℤ} (he : F.emin ≤ e) (h1 : (2 : ℚ) ^ e ≤ q)
    (h2 : q < (2 : ℚ) ^ (e + 1)) : F.expOf q = e := by
  have hpos : 0 < q := lt_of_lt_of_le (zpow_pos (by norm_num) _) h1
  have hle : e ≤ Int.log 2 q :=
    (Int.zpow_le_iff_le_log (by norm_num) hpos).mp (by exact_mod_cast h1)
  have hlt : Int.log 2 q < e + 1 :=
    (Int.lt_zpow_iff_log_lt (by norm_num) hpos).mp (by exact_mod_cast h2)
  unfold expOf
  omega

theorem roundPos_natCast {n : ℕ} (h : n < 2 ^ F.prec) : F.roundPos n = n := by
  rcases Nat.eq_zero_or_pos n with rfl | hn
  · simpa using F.roundPos_zero
  have hlog : Int.log 2 (n : ℚ) < F.prec := by
    rw [Int.log_natCast]
    exact_mod_cast Nat.log_lt_of_lt_pow (by omega) h
  obtain ⟨k, hk⟩ : ∃ k : ℕ, F.expOf n - F.prec + 1 = -(k : ℤ) := by
    refine ⟨(-(F.expOf n - F.prec + 1)).toNat, ?_⟩
    have h1 := F.emin_nonpos
    have h2 := F.prec_pos
    have h3 : F.expOf n ≤ F.prec - 1 := max_le (by omega) (by omega)
    omega
  have hulp : F.ulp n = ((2 : ℚ) ^ k)⁻¹ := by rw [ulp, hk, zpow_neg, zpow_natCast]
  have hdiv : (n : ℚ) / F.ulp n = ((n * 2 ^ k : ℤ) : ℚ) := by
    rw [hulp]
    push_cast
    field_simp
  rw [roundPos, hdiv, roundEven_intCast, hulp]
  push_cast
  field_simp

theorem natCast_le_roundPos {n : ℕ} (hn : n < 2 ^ F.prec) {q : ℚ} (h : (n : ℚ) ≤ q) :
    (n : ℚ) ≤ F.roundPos q := by
  have := F.roundPos_mono (Nat.cast_nonneg n) h
  rwa [F.roundPos_natCast hn] at this

theorem roundPos_le_natCast {n : ℕ} (hn : n < 2 ^ F.prec) {q : ℚ} (h0 : 0 ≤ q)
    (h : q ≤ (n : ℚ)) : F.roundPos q ≤ n := by
  have := F.roundPos_mono h0 h
  rwa [F.roundPos_natCast hn] at this

/-- Between two powers of two the values are the multiples of a unit `1 / 2 ^ s`. -/
theorem roundPos_of_binade {q : ℚ} {e : ℤ} {s : ℕ} (he : F.emin ≤ e) (hs : e - F.prec + 1 = -s)
    (h1 : (2 : ℚ) ^ e ≤ q) (h2 : q < (2 : ℚ) ^ (e + 1)) :
    F.roundPos q = (roundEven (q * 2 ^ s) : ℚ) / 2 ^ s := by
  have hulp : F.ulp q = 1 / 2 ^ s := by
    rw [ulp, F.expOf_eq he h1 h2, hs, zpow_neg, zpow_natCast, one_div]
  rw [roundPos, hulp, mul_one_div, div_div_eq_mul_div, div_one]

/-- Which numbers round to such a multiple or above. -/
theorem le_roundPos_iff {q : ℚ} {e : ℤ} {s : ℕ} (he : F.emin ≤ e) (hs : e - F.prec + 1 = -s)
    (h1 : (2 : ℚ) ^ e ≤ q) (h2 : q < (2 : ℚ) ^ (e + 1)) (k : ℤ) :
    (k : ℚ) / 2 ^ s ≤ F.roundPos q ↔
      (k : ℚ) - 1 / 2 < q * 2 ^ s ∨ (q * 2 ^ s = k - 1 / 2 ∧ k % 2 = 0) := by
  rw [F.roundPos_of_binade he hs h1 h2, div_le_div_iff_of_pos_right (by positivity),
    ← le_roundEven_iff]
  norm_cast

end FloatFormat

end InverterTools
