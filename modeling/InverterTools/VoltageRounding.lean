import InverterTools.Voltages

/-! # Which voltages are accepted, and how they are rounded

The numbers that a range check accepts end where the `float` next to a number does: `58.4` itself
reads as a `float` above the `double` it is compared with.

The product `val * 10` is rounded before `round` sees it.  For the half tenths `n - 1/2` that are
concerned there is a least `double` whose product rounds to the half or above (`firstDouble`), so a
number right below a half tenth that reads as this `double` is rounded up (`Slips`); every other
number is rounded as it should be (`tenths_eq_iff`). -/

namespace InverterTools.P18

/-! ### Rounding to tenths -/

/-- The voltage half a tenth below `n` tenths. -/
def halfTenth (n : ℤ) : ℚ := (2 * n - 1) / 20

/-- The least `double` that gives at least `n - 1/2` when it is multiplied by ten, in units of
`2 ^ -47`. -/
def firstDouble (n : ℤ) : ℤ :=
  if n ≤ 512 then ((2 * n - 1) * 2 ^ 45 + 2) / 5 else (2 * n - 1) * 2 ^ 45 / 5

/-- The number reads as this `double` or as one above it. -/
def ReadsUp (n : ℤ) (v : ℚ) : Prop :=
  (firstDouble n : ℚ) - 1 / 2 < v * 2 ^ 47 ∨
    (v * 2 ^ 47 = firstDouble n - 1 / 2 ∧ firstDouble n % 2 = 0)

/-- The number is below a half tenth, but reads as a `double` that is rounded up. -/
def Slips (v : ℚ) : Prop := ∃ n : ℤ, v < halfTenth n ∧ ReadsUp n v

theorem half_before_even_iff {k a d : ℤ} (hd : 0 < d) (hk : k % 2 = 0) :
    ((k : ℚ) - 1 / 2 < a / (2 * d) ∨ ((a : ℚ) / (2 * d) = k - 1 / 2 ∧ k % 2 = 0)) ↔
      2 * d * k - d ≤ a := by
  have hpos : (0 : ℚ) < 2 * d := by exact_mod_cast (show 0 < 2 * d by omega)
  have hle : (k : ℚ) - 1 / 2 ≤ a / (2 * d) ↔ 2 * d * k - d ≤ a := by
    rw [le_div_iff₀ hpos, show ((k : ℚ) - 1 / 2) * (2 * d) = 2 * d * k - d by ring]
    exact_mod_cast Iff.rfl
  rw [← hle, le_iff_lt_or_eq, eq_comm (a := (k : ℚ) - 1 / 2)]
  simp only [hk, and_true]

/-- Ten times a `double` from 25.6 to 102.4. -/
theorem le_product_iff {j : ℤ} (h1 : 2 ^ 8 * 2 ^ 47 ≤ 10 * j) (h2 : 10 * j < 2 ^ 10 * 2 ^ 47)
    (n : ℤ) : (n : ℚ) - 1 / 2 ≤ binary64.roundPos ((j : ℚ) / 2 ^ 47 * 10) ↔ firstDouble n ≤ j := by
  have h1' : (2 ^ 8 * 2 ^ 47 : ℚ) ≤ 10 * j := by exact_mod_cast h1
  have h2' : (10 * j : ℚ) < 2 ^ 10 * 2 ^ 47 := by exact_mod_cast h2
  unfold firstDouble
  rcases lt_or_ge (10 * j) (2 ^ 9 * 2 ^ 47) with hlow | hhigh
  · -- the product is below 512, so the unit is `2 ^ -44`
    have hlow' : (10 * j : ℚ) < 2 ^ 9 * 2 ^ 47 := by exact_mod_cast hlow
    have hhalf : (n : ℚ) - 1 / 2 = (((2 * n - 1) * 2 ^ 43 : ℤ) : ℚ) / 2 ^ 44 := by
      push_cast
      ring
    have hscale : (j : ℚ) / 2 ^ 47 * 10 * 2 ^ 44 = ((5 * j : ℤ) : ℚ) / (2 * (2 : ℤ)) := by
      push_cast
      ring
    rw [hhalf, binary64.le_roundPos_iff (e := 8) (s := 44) (by decide) rfl (by norm_num; linarith)
      (by norm_num; linarith), hscale, half_before_even_iff (by norm_num) (by omega)]
    split_ifs <;> omega
  · have hhigh' : (2 ^ 9 * 2 ^ 47 : ℚ) ≤ 10 * j := by exact_mod_cast hhigh
    have hhalf : (n : ℚ) - 1 / 2 = (((2 * n - 1) * 2 ^ 42 : ℤ) : ℚ) / 2 ^ 43 := by
      push_cast
      ring
    have hscale : (j : ℚ) / 2 ^ 47 * 10 * 2 ^ 43 = ((5 * j : ℤ) : ℚ) / (2 * (4 : ℤ)) := by
      push_cast
      ring
    rw [hhalf, binary64.le_roundPos_iff (e := 9) (s := 43) (by decide) rfl (by norm_num; linarith)
      (by norm_num; linarith), hscale, half_before_even_iff (by norm_num) (by omega)]
    split_ifs <;> omega

/-- **When at least `n` tenths are sent**, for a number from 32 to 59. -/
theorem le_tenths_iff {v : ℚ} (h32 : 32 ≤ v) (h59 : v ≤ 59) (n : ℤ) :
    n ≤ tenths v ↔ ReadsUp n v := by
  -- the `double` that is read
  set j := roundEven (v * 2 ^ 47) with hj
  have hread : binary64.roundPos v = (j : ℚ) / 2 ^ 47 :=
    binary64.roundPos_of_binade (e := 5) (s := 47) (by decide) rfl (by norm_num; linarith)
      (by norm_num; linarith)
  have hlo : 32 * 2 ^ 47 ≤ j := by
    refine (le_roundEven_iff _ _).mpr (.inl ?_)
    push_cast
    linarith
  have hhi : j ≤ 59 * 2 ^ 47 := by
    have := roundEven_mono (show v * 2 ^ 47 ≤ ((59 * 2 ^ 47 : ℤ) : ℚ) by push_cast; linarith)
    rwa [roundEven_intCast] at this
  rw [tenths_eq_floor (by linarith), Int.le_floor, hread, ← sub_le_iff_le_add,
    le_product_iff (by omega) (by omega), hj, le_roundEven_iff]
  rfl

theorem halfTenth_le_iff (v : ℚ) (n : ℤ) : n ≤ ⌊10 * v + 1 / 2⌋ ↔ halfTenth n ≤ v := by
  rw [Int.le_floor, halfTenth, div_le_iff₀ (by norm_num)]
  constructor <;> intro h <;> linarith

/-- From a half tenth on, a number reads as a `double` that is rounded up. -/
theorem readsUp_of_le {v : ℚ} {n : ℤ} (h : halfTenth n ≤ v) : ReadsUp n v := by
  have hfirst : 5 * firstDouble n ≤ (2 * n - 1) * 2 ^ 45 + 2 := by
    unfold firstDouble
    split_ifs <;> omega
  have hfirst' : 5 * (firstDouble n : ℚ) ≤ (2 * n - 1) * 2 ^ 45 + 2 := by exact_mod_cast hfirst
  unfold halfTenth at h
  rw [div_le_iff₀ (by norm_num)] at h
  left
  linarith

/-- **When a voltage is rounded as it should be**: tenths, halves away from zero. -/
theorem tenths_eq_iff {v : ℚ} (h32 : 32 ≤ v) (h59 : v ≤ 59) :
    tenths v = ⌊10 * v + 1 / 2⌋ ↔ ¬ Slips v := by
  constructor
  · rintro heq ⟨n, hlt, hup⟩
    have hle := (le_tenths_iff h32 h59 n).mpr hup
    rw [heq, halfTenth_le_iff] at hle
    linarith
  · intro hslip
    apply le_antisymm
    · rw [halfTenth_le_iff]
      by_contra hlt
      exact hslip ⟨_, not_le.mp hlt, (le_tenths_iff h32 h59 _).mp le_rfl⟩
    · rw [le_tenths_iff h32 h59]
      exact readsUp_of_le ((halfTenth_le_iff v _).mp le_rfl)

/-! ### The ends of the ranges -/

/-- The least number that reads as a `float` above `58.4`: halfway between two `float`s. -/
def refusedFrom : ℚ := 58.3999996185302734375

theorem voltageIn_of_le {r lo hi l h : ℚ} {err : String} (hlo : binary64.round lo = .fin l)
    (hhi : binary64.round hi = .fin h) :
    voltageIn (.fin r) lo hi err = .ok () ↔ l ≤ r ∧ r ≤ h := by
  simp [voltageIn, check_eq_ok, hlo, hhi, CFloat.lt]

theorem chargeVoltage_iff {v : ℚ} (h48 : 48 ≤ v) (h59 : v ≤ 59) (err : String) :
    voltageIn (.fin (binary32.roundPos v)) 48.0 58.4 err = .ok () ↔ v < refusedFrom := by
  obtain ⟨-, hlo, hhi⟩ := round_bounds
  have hge : (48 : ℚ) ≤ binary32.roundPos v := by
    have hprec : 48 < 2 ^ binary32.prec := by decide
    exact_mod_cast binary32.natCast_le_roundPos hprec (by push_cast; exact h48)
  set j := roundEven (v * 2 ^ 18) with hj
  have hread : binary32.roundPos v = (j : ℚ) / 2 ^ 18 :=
    binary32.roundPos_of_binade (e := 5) (s := 18) (by decide) rfl (by norm_num; linarith)
      (by norm_num; linarith)
  -- 15309210 of the units is the first `float` above the `double`
  have hnext : binary32.roundPos v ≤ 8219069319951155 / 140737488355328 ↔ ¬ 15309210 ≤ j := by
    rw [hread, not_le, div_le_iff₀ (by norm_num)]
    constructor
    · intro h
      have : (j : ℚ) < ((15309210 : ℤ) : ℚ) := h.trans_lt (by norm_num)
      exact_mod_cast this
    · intro h
      have : (j : ℚ) ≤ ((15309209 : ℤ) : ℚ) := by exact_mod_cast Int.le_of_lt_add_one h
      refine this.trans ?_
      norm_num
  rw [voltageIn_of_le hlo hhi, hnext, hj, le_roundEven_iff]
  simp only [hge, true_and]
  unfold refusedFrom
  constructor
  · intro h
    by_contra hle
    refine h ((le_iff_lt_or_eq.mp (show ((15309210 : ℤ) : ℚ) - 1 / 2 ≤ v * 2 ^ 18 by
      push_cast; linarith)).imp_right fun heq => ⟨heq.symm, by norm_num⟩)
  · rintro hlt (h | ⟨h, -⟩) <;> push_cast at h <;> linarith

/-- Every number from 40 to 48 passes the check for the cut-off voltage. -/
theorem cutOffVoltage_ok {v : ℚ} (h40 : 40 ≤ v) (h48 : v ≤ 48) (err : String) :
    voltageIn (.fin (binary32.roundPos v)) 40.0 48.0 err = .ok () := by
  obtain ⟨hlo, hhi, -⟩ := round_bounds
  rw [voltageIn_of_le hlo hhi]
  have h40' : 40 < 2 ^ binary32.prec := by decide
  have h48' : 48 < 2 ^ binary32.prec := by decide
  constructor
  · exact_mod_cast binary32.natCast_le_roundPos h40' (by push_cast; exact h40)
  · exact_mod_cast binary32.roundPos_le_natCast h48' (by linarith) (by push_cast; exact h48)

theorem listed_accepted :
    (∀ n ∈ rechargeTenths, voltageListed (.fin (binary32.roundPos ((n : ℚ) / 10)))
      [batACRechargeVoltages12V, batACRechargeVoltages24V, batACRechargeVoltages48V]
        "invalid CV" = .ok ()) ∧
    ∀ n ∈ redischargeTenths, voltageListed (.fin (binary32.roundPos ((n : ℚ) / 10)))
      [batACRedischargeVoltages12V, batACRedischargeVoltages24V, batACRedischargeVoltages48V]
        "invalid DV" = .ok () := by
  decide +kernel

theorem listed_bounds :
    (∀ n ∈ rechargeTenths, n = 0 ∨ (10 ≤ n ∧ n ≤ 580)) ∧
      ∀ n ∈ redischargeTenths, n = 0 ∨ (10 ≤ n ∧ n ≤ 580) := by
  decide

/-- The text is a numeral with this value. -/
def ReadsAs (s : Bytes) (v : ℚ) : Prop :=
  ∃ neg q, scanFloat s = some (.num neg q) ∧ v = if neg then -q else q

/-- A decimal numeral has the value of its digits over a power of ten. -/
theorem readsAs_decimal {i f : Bytes} (hi : AllDigits i) (hne : i ≠ []) (hf : AllDigits f) :
    ReadsAs (i ++ 0x2E :: f) (numVal (i ++ f) / 10 ^ f.length) :=
  ⟨false, _, scanFloat_decimal hi hne hf, rfl⟩

theorem ReadsAs.scan_of_pos {s : Bytes} {v : ℚ} (h : ReadsAs s v) (hv : 0 < v) :
    scanFloat s = some (.num false v) := by
  obtain ⟨neg, q, hs, rfl⟩ := h
  cases neg with
  | false => exact hs
  | true =>
      have hq := scanFloat_nonneg hs
      rw [if_pos rfl] at hv
      linarith

theorem ReadsAs.scan_of_zero {s : Bytes} (h : ReadsAs s 0) :
    ∃ neg, scanFloat s = some (.num neg 0) := by
  obtain ⟨neg, q, hs, h0⟩ := h
  have hq : q = 0 := by
    cases neg
    · exact h0.symm
    · exact neg_eq_zero.mp h0.symm
  exact ⟨neg, hq ▸ hs⟩

theorem ReadsAs.denotes {s : Bytes} {v : ℚ} (h : ReadsAs s v) (h1 : 1 ≤ v) (h59 : v ≤ 59) :
    Denotes s v :=
  ⟨h.scan_of_pos (by linarith), .inr h1, h59⟩

theorem ReadsAs.listed {s : Bytes} {n : ℕ} (h : ReadsAs s ((n : ℚ) / 10))
    (hn : n = 0 ∨ (10 ≤ n ∧ n ≤ 580)) (m : Machine) :
    stof m s = .ok (.fin (binary32.roundPos ((n : ℚ) / 10))) ∧
      packVoltage m s = .ok (fixedInt 3 n) := by
  rcases hn with rfl | ⟨h10, h580⟩
  · rw [Nat.cast_zero, zero_div] at h
    obtain ⟨neg, hs⟩ := h.scan_of_zero
    have hlt := roundPos_lt_max (F := binary32) (by decide) (by decide) le_rfl (by norm_num)
    have hnum := @strtod_of_num m.tinyAfterRounding binary32 s neg 0 hs hlt (.inl rfl)
    have hread := stof_eq_ok.mpr hnum
    rw [binary32.roundPos_zero, neg_zero, ite_self] at hread
    rw [Nat.cast_zero, zero_div, binary32.roundPos_zero]
    exact ⟨hread, packVoltage_zero hread⟩
  · have h10' : (10 : ℚ) ≤ n := by exact_mod_cast h10
    have h580' : (n : ℚ) ≤ 580 := by exact_mod_cast h580
    have hd := h.denotes (by linarith) (by linarith)
    have htenths : tenths ((n : ℚ) / 10) = n :=
      tenths_of_near (by linarith) (by linarith) (by linarith) (by linarith)
    refine ⟨hd.stof_eq m, ?_⟩
    rw [hd.packVoltage_eq m, htenths]

/-! ### Accepted and sent -/

/-- A command is accepted with the given texts, and what is packed are the given values, rounded to
tenths. -/
def SentRounded (m : Machine) (command : Bytes) (texts : List Bytes) (values : List ℚ) : Prop :=
  ∃ c args, validateInput m (getArgs texts) command = .ok (c, args) ∧
    packArguments m c args =
      .ok ((ascii ",").intercalate (values.map fun v => fixedInt 3 ⌊10 * v + 1 / 2⌋))

/-- The command name determines what is validated and packed. -/
theorem sentRounded_iff {m : Machine} {command : Bytes} {c : CommandType} {n : ℕ}
    {texts : List Bytes} {values : List ℚ} (hc : clientCommand command = some c)
    (hn : argCount c = some n) (hlen : texts.length = n) :
    SentRounded m command texts values ↔ ∃ args, validateArgs m c texts = .ok args ∧
      packArguments m c args =
        .ok ((ascii ",").intercalate (values.map fun v => fixedInt 3 ⌊10 * v + 1 / 2⌋)) := by
  have hgiven : givenArgs (getArgs texts) c = .ok texts := by
    rw [givenArgs, hn]
    show getArgs texts n = .ok texts
    rw [getArgs, if_neg (by omega), List.take_of_length_le hlen.le]
  constructor
  · rintro ⟨d, args, hv, hp⟩
    obtain ⟨hd, given, hg, hvalid⟩ := validateInput_eq_ok.mp hv
    obtain rfl := Option.some.inj (hc.symm.trans hd)
    obtain rfl := Except.ok.inj (hgiven.symm.trans hg)
    exact ⟨args, hvalid, hp⟩
  · rintro ⟨args, hvalid, hp⟩
    exact ⟨c, args, validateInput_eq_ok.mpr ⟨hc, texts, hgiven, hvalid⟩, hp⟩

theorem fixedInt_inj {w : ℕ} {z z' : ℤ} (h : fixedInt w z = fixedInt w z') : z = z' := by
  rw [← fieldInt_zeroPad w z, ← fieldInt_zeroPad w z']
  exact congrArg fieldInt h

theorem pair_inj {z w z' w' : ℤ}
    (h : fixedInt 3 z ++ ascii "," ++ fixedInt 3 w =
      (ascii ",").intercalate [fixedInt 3 z', fixedInt 3 w']) : z = z' ∧ w = w' := by
  rw [List.intercalate_cons_cons, List.intercalate_singleton, List.append_assoc,
    List.append_assoc] at h
  have hfirst := eq_of_append_cons_eq (comma_notMem_intDecimal 3 z)
    (comma_notMem_intDecimal 3 z') h
  rw [fixedInt, fixedInt, hfirst] at h
  have hsecond := (List.cons.inj (List.append_cancel_left h)).2
  exact ⟨fixedInt_inj hfirst, fixedInt_inj hsecond⟩

/-- The documented values of the arguments of a command. -/
def Documented : CommandType → List ℚ → Prop
  | .setBatteryMaxChargeVoltage, [v, w] => (48 ≤ v ∧ v ≤ 58.4) ∧ (48 ≤ w ∧ w ≤ 58.4)
  | .setBatteryCutOffVoltage, [v] => 40 ≤ v ∧ v ≤ 48
  | .setBatteryChargeThresholds, [v, w] =>
      (∃ n ∈ rechargeTenths, v = n / 10) ∧ ∃ n ∈ redischargeTenths, w = n / 10
  | _, _ => False

/-- The number is below the end of the ranges, and does not slip. -/
def ReadsRight (v : ℚ) : Prop := v < refusedFrom ∧ ¬ Slips v

/-- A whole number of tenths does not slip: the next half tenth is too far away. -/
theorem not_slips_tenths (k : ℕ) : ¬ Slips ((k : ℚ) / 10) := by
  rintro ⟨n, hlt, hup⟩
  have hkn : (k : ℤ) < n := by
    have h : (k : ℚ) < n := by
      unfold halfTenth at hlt
      linarith
    exact_mod_cast h
  have hle : (k : ℚ) ≤ n - 1 := by exact_mod_cast Int.le_sub_one_of_lt hkn
  have hfirst : (2 * n - 1) * 2 ^ 45 - 4 ≤ 5 * firstDouble n := by
    unfold firstDouble
    split_ifs <;> omega
  have hfirst' : (2 * n - 1) * 2 ^ 45 - 4 ≤ 5 * (firstDouble n : ℚ) := by exact_mod_cast hfirst
  rcases hup with h | ⟨h, -⟩ <;> linarith

theorem Denotes.packVoltage_rounded_iff {s : Bytes} {v : ℚ} (h : Denotes s v) (m : Machine)
    (h32 : 32 ≤ v) :
    packVoltage m s = .ok (fixedInt 3 ⌊10 * v + 1 / 2⌋) ↔ ¬ Slips v := by
  rw [h.packVoltage_eq, ← tenths_eq_iff h32 h.le, Except.ok.injEq]
  exact ⟨fixedInt_inj, congrArg _⟩

theorem packVoltages_iff {m : Machine} {c : CommandType}
    (hc : c = .setBatteryMaxChargeVoltage ∨ c = .setBatteryChargeThresholds) {s t : Bytes}
    {z w z' w' : ℤ} (hz : packVoltage m s = .ok (fixedInt 3 z))
    (hw : packVoltage m t = .ok (fixedInt 3 w)) :
    packArguments m c [s, t] = .ok ((ascii ",").intercalate [fixedInt 3 z', fixedInt 3 w']) ↔
      z = z' ∧ w = w' := by
  have hpack : packArguments m c [s, t] = .ok (fixedInt 3 z ++ ascii "," ++ fixedInt 3 w) :=
    (twoVoltages_packed hc).mpr ⟨_, _, hz, hw, rfl⟩
  rw [hpack, Except.ok.injEq]
  constructor
  · exact pair_inj
  · rintro ⟨rfl, rfl⟩
    rw [List.intercalate_cons_cons, List.intercalate_singleton]

theorem exists_valid_iff {m : Machine} {c : CommandType} {texts : List Bytes} {P : Prop}
    {fields : Bytes} (h : ∀ args, validateArgs m c texts = .ok args ↔ P ∧ args = texts) :
    (∃ args, validateArgs m c texts = .ok args ∧ packArguments m c args = .ok fields) ↔
      P ∧ packArguments m c texts = .ok fields := by
  constructor
  · rintro ⟨args, hvalid, hpack⟩
    obtain ⟨hP, rfl⟩ := (h args).mp hvalid
    exact ⟨hP, hpack⟩
  · rintro ⟨hP, hpack⟩
    exact ⟨texts, (h texts).mpr ⟨hP, rfl⟩, hpack⟩

theorem readsRight_listed {n : ℕ} (hn : n = 0 ∨ (10 ≤ n ∧ n ≤ 580)) :
    ReadsRight ((n : ℚ) / 10) := by
  have hle : (n : ℚ) ≤ 580 := by
    have : n ≤ 580 := by omega
    exact_mod_cast this
  refine ⟨?_, not_slips_tenths n⟩
  unfold refusedFrom
  linarith

theorem chargeVoltage_sent_iff {m : Machine} {s t : Bytes} {v w : ℚ} (hs : Denotes s v)
    (ht : Denotes t w) (hv : 48 ≤ v) (hw : 48 ≤ w) :
    (∃ args, validateArgs m .setBatteryMaxChargeVoltage [s, t] = .ok args ∧
      packArguments m .setBatteryMaxChargeVoltage args = .ok ((ascii ",").intercalate
        [fixedInt 3 ⌊10 * v + 1 / 2⌋, fixedInt 3 ⌊10 * w + 1 / 2⌋])) ↔
      ReadsRight v ∧ ReadsRight w := by
  have hvalid : ∀ args, validateArgs m .setBatteryMaxChargeVoltage [s, t] = .ok args ↔
      (v < refusedFrom ∧ w < refusedFrom) ∧ args = [s, t] := by
    intro args
    unfold validateArgs
    simp only [bind_eq_ok, pure_eq_ok, List.getD_cons_zero, List.getD_cons_succ, hs.stof_eq,
      ht.stof_eq, Except.ok.injEq, exists_eq_left', chargeVoltage_iff hv hs.le,
      chargeVoltage_iff hw ht.le, exists_const, and_assoc, eq_comm (a := args)]
  rw [exists_valid_iff hvalid, packVoltages_iff (.inl rfl) (hs.packVoltage_eq m)
    (ht.packVoltage_eq m), tenths_eq_iff (by linarith) hs.le, tenths_eq_iff (by linarith) ht.le]
  exact and_and_and_comm

theorem cutOffVoltage_sent_iff {m : Machine} {s : Bytes} {v : ℚ} (hs : Denotes s v) (h40 : 40 ≤ v)
    (h48 : v ≤ 48) :
    (∃ args, validateArgs m .setBatteryCutOffVoltage [s] = .ok args ∧
      packArguments m .setBatteryCutOffVoltage args = .ok (fixedInt 3 ⌊10 * v + 1 / 2⌋)) ↔
      ReadsRight v := by
  have hvalid : ∀ args, validateArgs m .setBatteryCutOffVoltage [s] = .ok args ↔
      v < refusedFrom ∧ args = [s] := by
    intro args
    have hlt : v < refusedFrom := h48.trans_lt (by norm_num [refusedFrom])
    unfold validateArgs
    simp only [bind_eq_ok, pure_eq_ok, List.getD_cons_zero, hs.stof_eq, Except.ok.injEq,
      exists_eq_left', cutOffVoltage_ok h40 h48, hlt, true_and, eq_comm (a := args), exists_const]
  rw [exists_valid_iff hvalid]
  exact and_congr_right' (hs.packVoltage_rounded_iff m (by linarith))

/-- Listed thresholds are always accepted, and sent as they are. -/
theorem thresholds_sent {m : Machine} {s t : Bytes} {n k : ℕ} (hn : n ∈ rechargeTenths)
    (hk : k ∈ redischargeTenths) (hs : ReadsAs s ((n : ℚ) / 10)) (ht : ReadsAs t ((k : ℚ) / 10)) :
    ∃ args, validateArgs m .setBatteryChargeThresholds [s, t] = .ok args ∧
      packArguments m .setBatteryChargeThresholds args = .ok ((ascii ",").intercalate
        [fixedInt 3 ⌊10 * ((n : ℚ) / 10) + 1 / 2⌋, fixedInt 3 ⌊10 * ((k : ℚ) / 10) + 1 / 2⌋]) := by
  have hcv := listed_accepted.1 n hn
  have hdv := listed_accepted.2 k hk
  obtain ⟨hs', hpack⟩ := hs.listed (listed_bounds.1 n hn) m
  obtain ⟨ht', hpack'⟩ := ht.listed (listed_bounds.2 k hk) m
  have hfloor : ∀ j : ℕ, ⌊10 * ((j : ℚ) / 10) + 1 / 2⌋ = j := by
    intro j
    rw [Int.floor_eq_iff]
    constructor <;> push_cast <;> linarith
  refine ⟨[s, t], ?_, ?_⟩
  · unfold validateArgs
    simp only [bind_eq_ok, pure_eq_ok, List.getD_cons_zero, List.getD_cons_succ, hs', ht',
      Except.ok.injEq, exists_eq_left', hcv, hdv, exists_const, and_self]
  · rw [packVoltages_iff (.inr rfl) hpack hpack', hfloor, hfloor]
    exact ⟨rfl, rfl⟩

/-- **The documented voltages are accepted and sent rounded to tenths** exactly when they lie below
the end of the ranges and do not slip. -/
theorem documented_sent_iff (m : Machine) {command : Bytes} {c : CommandType} {texts : List Bytes}
    {values : List ℚ} (hc : clientCommand command = some c) (hdoc : Documented c values)
    (hread : List.Forall₂ ReadsAs texts values) :
    SentRounded m command texts values ↔ ∀ v ∈ values, ReadsRight v := by
  unfold Documented at hdoc
  split at hdoc
  · -- both charge voltages
    obtain ⟨s, ss, hs, hss, rfl⟩ := List.forall₂_cons_right_iff.mp hread
    obtain ⟨t, ts, ht, hts, rfl⟩ := List.forall₂_cons_right_iff.mp hss
    obtain rfl := List.forall₂_nil_right_iff.mp hts
    obtain ⟨⟨hv, hv'⟩, hw, hw'⟩ := hdoc
    rw [sentRounded_iff hc rfl rfl]
    simp only [List.map_cons, List.map_nil, List.forall_mem_cons, List.not_mem_nil,
      IsEmpty.forall_iff, implies_true, and_true]
    exact chargeVoltage_sent_iff (hs.denotes (by linarith) (by linarith))
      (ht.denotes (by linarith) (by linarith)) hv hw
  · obtain ⟨s, ss, hs, hss, rfl⟩ := List.forall₂_cons_right_iff.mp hread
    obtain rfl := List.forall₂_nil_right_iff.mp hss
    obtain ⟨h40, h48⟩ := hdoc
    rw [sentRounded_iff hc rfl rfl]
    simp only [List.map_cons, List.map_nil, List.forall_mem_cons, List.not_mem_nil,
      IsEmpty.forall_iff, implies_true, and_true, List.intercalate_singleton]
    exact cutOffVoltage_sent_iff (hs.denotes (by linarith) (by linarith)) h40 h48
  · obtain ⟨s, ss, hs, hss, rfl⟩ := List.forall₂_cons_right_iff.mp hread
    obtain ⟨t, ts, ht, hts, rfl⟩ := List.forall₂_cons_right_iff.mp hss
    obtain rfl := List.forall₂_nil_right_iff.mp hts
    obtain ⟨⟨n, hn, rfl⟩, k, hk, rfl⟩ := hdoc
    rw [sentRounded_iff hc rfl rfl]
    refine iff_of_true (thresholds_sent hn hk hs ht) ?_
    simp only [List.forall_mem_cons, List.not_mem_nil, IsEmpty.forall_iff, implies_true, and_true]
    exact ⟨readsRight_listed (listed_bounds.1 n hn), readsRight_listed (listed_bounds.2 k hk)⟩
  · exact hdoc.elim

/-- `set-battery-cutoff-voltage 44.04`. -/
theorem documented_sent_cutoff :
    SentRounded x86 (ascii "set-battery-cutoff-voltage") [ascii "44.04"] [44.04] ↔
      ∀ v ∈ [(44.04 : ℚ)], ReadsRight v :=
  documented_sent_iff x86 (c := .setBatteryCutOffVoltage) rfl (by norm_num [Documented])
    (.cons ⟨false, 44.04, by decide +kernel, rfl⟩ .nil)

/-- The end of the range itself is refused, and a number below a half tenth is rounded up. -/
theorem documented_not_sent :
    (Documented .setBatteryMaxChargeVoltage [58.4, 58.4] ∧
      ReadsAs (ascii "58.4") 58.4 ∧
      ¬ SentRounded x86 (ascii "set-max-charge-voltage") [ascii "58.4", ascii "58.4"]
        [58.4, 58.4]) ∧
    (Documented .setBatteryCutOffVoltage [44.0499999999999999] ∧
      ReadsAs (ascii "44.0499999999999999") 44.0499999999999999 ∧
      ¬ SentRounded x86 (ascii "set-battery-cutoff-voltage") [ascii "44.0499999999999999"]
        [44.0499999999999999]) := by
  refine ⟨⟨by norm_num [Documented], ⟨false, 58.4, by decide +kernel, rfl⟩, ?_⟩,
    by norm_num [Documented], ⟨false, 44.0499999999999999, by decide +kernel, rfl⟩, ?_⟩
  · rintro ⟨c, args, hv, -⟩
    have hrefused : validateInput x86 (getArgs [ascii "58.4", ascii "58.4"])
        (ascii "set-max-charge-voltage") = .error (invalidArgument "invalid CV") := by
      decide +kernel
    cases hrefused.symm.trans hv
  · rintro ⟨c, args, hv, hp⟩
    have haccepted : validateInput x86 (getArgs [ascii "44.0499999999999999"])
        (ascii "set-battery-cutoff-voltage") =
          .ok (.setBatteryCutOffVoltage, [ascii "44.0499999999999999"]) := by
      decide +kernel
    obtain ⟨rfl, rfl⟩ := Prod.mk.inj (Except.ok.inj (haccepted.symm.trans hv))
    have hsent : packArguments x86 .setBatteryCutOffVoltage [ascii "44.0499999999999999"] =
        .ok (fixedInt 3 441) := by
      decide +kernel
    have hfloor : ⌊10 * (44.0499999999999999 : ℚ) + 1 / 2⌋ = 440 := by
      rw [Int.floor_eq_iff]
      norm_num
    simp only [List.map_cons, List.map_nil, List.intercalate_singleton, hfloor] at hp
    have heq := fixedInt_inj (Except.ok.inj (hsent.symm.trans hp))
    omega

end InverterTools.P18
