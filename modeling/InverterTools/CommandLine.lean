import InverterTools.ArgumentErrors
import InverterTools.Options

/-! # Which command lines `inverterctl` takes

`Admissible` says of the arguments of a command, as they were typed, when `validate_input` takes
them, and `Taken` says of the value of an option when the option loop takes it.  Neither mentions
the conversions of the program: texts are compared, have digits only, or begin with a number in some
range.  What is not taken raises `std::invalid_argument`, unless a number does not fit its type
(`NumbersFit`, `NumberFits`).  So the first `try` block refuses a command line with
`std::invalid_argument` when it is `Refused` (`readArguments_refused_iff`). -/

namespace InverterTools

/-! ### Texts -/

/-- The value of a number as a `float`. -/
def FloatText.toFloat : FloatText → CFloat
  | .nan => .nan
  | .inf neg => .inf neg
  | .num neg q => .fin (if neg then -binary32.roundPos q else binary32.roundPos q)

/-- The text begins with an integer that fits `unsigned long`, and `ok` holds of its last `w`
bits. -/
def CastWith (w : ℕ) (ok : ℕ → Prop) (s : Bytes) : Prop :=
  ∃ z, intValue s = some z ∧ FitsULong z ∧ ok (z % 2 ^ w).toNat

/-- The text begins with a number that fits `float`, and `ok` holds of this `float`. -/
def FloatWith (m : P18.Machine) (ok : CFloat → Prop) (s : Bytes) : Prop :=
  ∃ x, scanFloat s = some x ∧ FloatText.Fits m x ∧ ok x.toFloat

/-- One or two digits, with a value in range. -/
def DigitsIn (lo hi : ℕ) (s : Bytes) : Prop :=
  isNumeric s = true ∧ s.length ≤ 2 ∧ lo ≤ numVal s ∧ numVal s ≤ hi

/-- One of these words. -/
def OneOf (allowed : List String) (s : Bytes) : Prop := ∃ t ∈ allowed, s = ascii t

theorem stoul_castWith {w : ℕ} (hw : w ≤ 64) {s : Bytes} {n : ℕ} :
    (∃ k, stoul s = .ok k ∧ k % 2 ^ w = n) ↔
      ∃ z, intValue s = some z ∧ FitsULong z ∧ n = (z % 2 ^ w).toNat := by
  simp only [stoul_eq_ok, strtoul_eq_ok_iff]
  have hcast : ∀ z : ℤ, z % 2 ^ 64 % 2 ^ w = z % 2 ^ w := fun z =>
    Int.emod_emod_of_dvd z (pow_dvd_pow 2 hw)
  constructor
  · rintro ⟨k, ⟨z, hz, hfits, hk⟩, rfl⟩
    refine ⟨z, hz, hfits, ?_⟩
    rw [← hcast z, ← hk]
    norm_cast
  · rintro ⟨z, hz, hfits, rfl⟩
    have hpos : 0 ≤ z % 2 ^ 64 := Int.emod_nonneg z (by norm_num)
    refine ⟨(z % 2 ^ 64).toNat, ⟨z, hz, hfits, Int.toNat_of_nonneg hpos⟩, ?_⟩
    rw [← hcast z, Int.toNat_emod hpos (by positivity)]
    norm_cast

theorem stou_castWith {s : Bytes} {n : ℕ} :
    stou s = .ok n ↔ ∃ z, intValue s = some z ∧ FitsULong z ∧ n = (z % 2 ^ 32).toNat := by
  rw [stou, map_eq_ok]
  exact stoul_castWith (by norm_num)

theorem stouh_castWith {s : Bytes} {n : ℕ} :
    stouh s = .ok n ↔ ∃ z, intValue s = some z ∧ FitsULong z ∧ n = (z % 2 ^ 16).toNat := by
  rw [stouh, map_eq_ok]
  exact stoul_castWith (by norm_num)

theorem castWith_congr {w : ℕ} {ok ok' : ℕ → Prop} {s : Bytes} (h : ∀ n < 2 ^ w, ok n ↔ ok' n) :
    CastWith w ok s ↔ CastWith w ok' s := by
  refine exists_congr fun z => and_congr_right fun _ => and_congr_right fun _ => h _ ?_
  have hlt : z % 2 ^ w < 2 ^ w := Int.emod_lt_of_pos z (by positivity)
  have hpos : 0 ≤ z % 2 ^ w := Int.emod_nonneg z (by positivity)
  zify
  rwa [Int.toNat_of_nonneg hpos]

theorem toFloat_of_stof {m : P18.Machine} {s : Bytes} {x : FloatText} {v : CFloat}
    (hx : scanFloat s = some x) (hv : stof m s = .ok v) : v = x.toFloat := by
  have hv := stof_eq_ok.mp hv
  unfold strtod at hv
  rw [hx] at hv
  cases x with
  | nan => exact (Conv.ok.inj hv).symm
  | inf neg => exact (Conv.ok.inj hv).symm
  | num neg q =>
      dsimp only at hv
      split_ifs at hv with h1 h2 h3
      · rw [← Conv.ok.inj hv, FloatText.toFloat, if_pos h3]
      · rw [← Conv.ok.inj hv, FloatText.toFloat, if_neg h3]

theorem stof_floatWith {m : P18.Machine} {s : Bytes} {v : CFloat} :
    stof m s = .ok v ↔ ∃ x, scanFloat s = some x ∧ FloatText.Fits m x ∧ v = x.toFloat := by
  rcases stof_converts m s with ⟨hs, e, he, -⟩ | ⟨x, hs, ⟨hfit, a, ha⟩ | ⟨hfit, e, he, -⟩⟩
  · simp [hs, he]
  · rw [ha, toFloat_of_stof hs ha]
    constructor
    · intro hv
      exact ⟨x, hs, hfit, (Except.ok.inj hv).symm⟩
    · rintro ⟨y, hy, -, rfl⟩
      rw [Option.some.inj (hs.symm.trans hy)]
  · simp [hs, he, hfit]

/-- What holds of a value that is found holds of what it was found from. -/
theorem exists_image_iff {α β : Type} {P Q : α → Prop} {g : α → β} {ok : β → Prop} :
    (∃ b, (∃ a, P a ∧ Q a ∧ b = g a) ∧ ok b) ↔ ∃ a, P a ∧ Q a ∧ ok (g a) := by
  constructor
  · rintro ⟨_, ⟨a, hP, hQ, rfl⟩, hok⟩
    exact ⟨a, hP, hQ, hok⟩
  · rintro ⟨a, hP, hQ, hok⟩
    exact ⟨_, ⟨a, hP, hQ, rfl⟩, hok⟩

theorem exists_stou {s : Bytes} {ok : ℕ → Prop} :
    (∃ n, stou s = .ok n ∧ ok n) ↔ CastWith 32 ok s := by
  simp only [stou_castWith]
  exact exists_image_iff

theorem exists_stouh {s : Bytes} {ok : ℕ → Prop} :
    (∃ n, stouh s = .ok n ∧ ok n) ↔ CastWith 16 ok s := by
  simp only [stouh_castWith]
  exact exists_image_iff

theorem exists_stof {m : P18.Machine} {s : Bytes} {ok : CFloat → Prop} :
    (∃ v, stof m s = .ok v ∧ ok v) ↔ FloatWith m ok s := by
  simp only [stof_floatWith]
  exact exists_image_iff

namespace P18

/-! ### The arguments of a command -/

/-- Four digits, from 2000 to 2099. -/
def YearIn (s : Bytes) : Prop :=
  isNumeric s = true ∧ s.length = 4 ∧ 2000 ≤ numVal s ∧ numVal s ≤ 2099

/-- A day of the calendar. -/
def DateIn (y m d : Bytes) : Prop :=
  YearIn y ∧ DigitsIn 1 12 m ∧ DigitsIn 1 31 d ∧
    isDateValid (numVal y) (numVal m) (numVal d) = true

/-- Neither below the one `double` nor above the other. -/
def Between (lo hi : ℚ) (v : CFloat) : Prop :=
  v.lt (binary64.round lo) = false ∧ (binary64.round hi).lt v = false

/-- Equal to an entry of one of the tables. -/
def Listed (tables : List (List CFloat)) (v : CFloat) : Prop :=
  ∃ table ∈ tables, ∃ x ∈ table, x.eq v = true

/-- A clock time in two parts, as they are cast. -/
def ClockIn (parts : List Bytes) : Prop :=
  parts.length = 2 ∧ CastWith 16 (· ≤ 23) (parts.getD 0 []) ∧ CastWith 16 (· ≤ 59) (parts.getD 1 [])

/-- The arguments of a command are ones that it takes. -/
def Admissible (m : Machine) (c : CommandType) (args : List Bytes) : Prop :=
  let arg := fun i => args.getD i []
  match c with
  | .getYearGenerated => YearIn (arg 0)
  | .getMonthGenerated => YearIn (arg 0) ∧ DigitsIn 1 12 (arg 1)
  | .getDayGenerated => DateIn (arg 0) (arg 1) (arg 2)
  | .getParallelRatedInformation | .getParallelGeneralStatus =>
      isNumeric (arg 0) = true ∧ (arg 0).length ≤ 1
  | .setACSupply => OneOf ["0", "1"] (arg 0)
  | .setFlag => (∃ f ∈ flags, arg 0 = ascii f.flag) ∧ OneOf ["0", "1"] (arg 1)
  | .setBatteryMaxChargeCurrent | .setBatteryMaxACChargeCurrent =>
      CastWith 32 (· ≤ 6) (arg 0) ∧ CastWith 32 (· ≤ 999) (arg 1)
  | .setACOutputFreq => OneOf ["50", "60"] (arg 0)
  | .setBatteryMaxChargeVoltage =>
      FloatWith m (Between 48.0 58.4) (arg 0) ∧ FloatWith m (Between 48.0 58.4) (arg 1)
  | .setACOutputVoltage => CastWith 32 (· ∈ acOutputVoltages) (arg 0)
  | .setOutputSourcePriority => OneOf ["SUB", "SBU"] (arg 0)
  | .setBatteryChargeThresholds =>
      FloatWith m (Listed [batACRechargeVoltages12V, batACRechargeVoltages24V,
        batACRechargeVoltages48V]) (arg 0) ∧
      FloatWith m (Listed [batACRedischargeVoltages12V, batACRedischargeVoltages24V,
        batACRedischargeVoltages48V]) (arg 1)
  | .setChargeSourcePriority => CastWith 32 (· ≤ 6) (arg 0) ∧ OneOf ["SF", "SU", "S"] (arg 1)
  | .setSolarPowerPriority => OneOf ["BLU", "LBU"] (arg 0)
  | .setACInputVoltageRange => OneOf ["APPLIANCE", "UPS"] (arg 0)
  | .setBatteryType => OneOf ["AGM", "FLOODED", "USER"] (arg 0)
  | .setOutputMode => CastWith 32 (· ≤ 6) (arg 0) ∧ OneOf ["S", "P", "1", "2", "3"] (arg 1)
  | .setBatteryCutOffVoltage => FloatWith m (Between 40.0 48.0) (arg 0)
  | .setSolarConfig => isNumeric (arg 0) = true ∧ (arg 0).length ≤ 20
  | .setDateTime => DateIn (arg 0) (arg 1) (arg 2) ∧ DigitsIn 0 23 (arg 3) ∧
      DigitsIn 0 59 (arg 4) ∧ DigitsIn 0 59 (arg 5)
  | .setACChargeTimeBucket | .setACSupplyTimeBucket =>
      ClockIn (split (arg 0) 0x3A) ∧ ClockIn (split (arg 1) 0x3A)
  | _ => True

/-! ### The checks of `validate_input` -/

theorem twoDigits_eq_ok_iff {lo hi : ℕ} {err : String} {s : Bytes} {z : ℤ} :
    twoDigits lo hi err (some s) = .ok z ↔ DigitsIn lo hi s ∧ z = numVal s := by
  simp only [twoDigits, bind_eq_ok, pure_eq_ok, check_eq_ok, Bool.and_eq_true, decide_eq_true_eq,
    DigitsIn]
  constructor
  · rintro ⟨_, ⟨hnum, hlen⟩, n, hn, _, ⟨hlo, hhi⟩, rfl⟩
    rw [(stoi_of_isNumeric hnum hlen (by norm_num)).1] at hn
    obtain rfl := Except.ok.inj hn
    exact ⟨⟨hnum, hlen, by omega, by omega⟩, rfl⟩
  · rintro ⟨⟨hnum, hlen, hlo, hhi⟩, rfl⟩
    exact ⟨(), ⟨hnum, hlen⟩, _, (stoi_of_isNumeric hnum hlen (by norm_num)).1, (),
      ⟨by omega, by omega⟩, rfl⟩

/-- The part of `validate_date_args` that all its callers share. -/
theorem yearIn_iff {s : Bytes} {f : ℤ → Except Exn Unit} :
    (do
      check (isNumeric s && decide (s.length = 4)) "invalid year"
      let y ← stoi s
      check (decide (2000 ≤ y ∧ y ≤ 2099)) "invalid year"
      f y) = .ok () ↔ YearIn s ∧ f (numVal s) = .ok () := by
  simp only [bind_eq_ok, check_eq_ok, Bool.and_eq_true, decide_eq_true_eq, YearIn]
  constructor
  · rintro ⟨_, ⟨hnum, hlen⟩, y, hy, _, hrange, hf⟩
    rw [(stoi_of_isNumeric hnum hlen.le (by norm_num)).1] at hy
    obtain rfl := Except.ok.inj hy
    exact ⟨⟨hnum, hlen, by omega, by omega⟩, hf⟩
  · rintro ⟨⟨hnum, hlen, hlo, hhi⟩, hf⟩
    exact ⟨(), ⟨hnum, hlen⟩, _, (stoi_of_isNumeric hnum hlen.le (by norm_num)).1, (),
      ⟨by omega, by omega⟩, hf⟩

theorem validateYear_iff {y : Bytes} : validateDateArgs y none none = .ok () ↔ YearIn y := by
  refine yearIn_iff.trans ?_
  simp [twoDigits, pure, Except.pure, bind, Except.bind]

theorem validateMonth_iff {y mo : Bytes} :
    validateDateArgs y (some mo) none = .ok () ↔ YearIn y ∧ DigitsIn 1 12 mo := by
  refine yearIn_iff.trans (and_congr_right fun hy => ?_)
  simp only [bind_eq_ok]
  constructor
  · rintro ⟨mo', hmo, -⟩
    exact (twoDigits_eq_ok_iff.mp hmo).1
  · intro hmo
    exact ⟨_, twoDigits_eq_ok_iff.mpr ⟨hmo, rfl⟩, 0, rfl, by simp [pure, Except.pure]⟩

theorem validateDate_iff {y mo d : Bytes} :
    validateDateArgs y (some mo) (some d) = .ok () ↔ DateIn y mo d := by
  refine yearIn_iff.trans (and_congr_right fun hy => ?_)
  have hnonzero (hmo : DigitsIn 1 12 mo) (hd : DigitsIn 1 31 d) :
      (numVal y : ℤ) ≠ 0 ∧ (numVal mo : ℤ) ≠ 0 ∧ (numVal d : ℤ) ≠ 0 := by
    have hyear : 2000 ≤ numVal y := hy.2.2.1
    have hmonth : 1 ≤ numVal mo := hmo.2.2.1
    have hday : 1 ≤ numVal d := hd.2.2.1
    omega
  simp only [bind_eq_ok]
  constructor
  · rintro ⟨mo', hmo, d', hd, h⟩
    obtain ⟨hmonth, rfl⟩ := twoDigits_eq_ok_iff.mp hmo
    obtain ⟨hday, rfl⟩ := twoDigits_eq_ok_iff.mp hd
    rw [if_pos (hnonzero hmonth hday)] at h
    exact ⟨hmonth, hday, check_eq_ok.mp h⟩
  · rintro ⟨hmo, hd, hvalid⟩
    refine ⟨_, twoDigits_eq_ok_iff.mpr ⟨hmo, rfl⟩, _, twoDigits_eq_ok_iff.mpr ⟨hd, rfl⟩, ?_⟩
    rw [if_pos (hnonzero hmo hd)]
    exact check_eq_ok.mpr hvalid

theorem validateClock_iff {s : Bytes} {hi : ℕ} {err : String} :
    validateClockArg s hi err = .ok () ↔ DigitsIn 0 hi s := by
  simp only [validateClockArg, bind_eq_ok, check_eq_ok, Bool.and_eq_true, decide_eq_true_eq,
    DigitsIn]
  have hread : isNumeric s = true → s.length ≤ 2 →
      stoul s = .ok (numVal s) ∧ toUnsigned (numVal s) = numVal s := by
    intro hnum hlen
    obtain ⟨hne, hdigits⟩ := isNumeric_iff.mp hnum
    have hlt := (stoi_of_isNumeric hnum hlen (by norm_num)).2
    refine ⟨stoul_allDigits hdigits hne (by omega), ?_⟩
    rw [toUnsigned, Nat.mod_eq_of_lt (by omega)]
  constructor
  · rintro ⟨_, ⟨hnum, hlen⟩, n, hn, hle⟩
    obtain ⟨hn', hcast⟩ := hread hnum hlen
    obtain rfl := Except.ok.inj (hn'.symm.trans hn)
    exact ⟨hnum, hlen, Nat.zero_le _, hcast ▸ hle⟩
  · rintro ⟨hnum, hlen, -, hle⟩
    obtain ⟨hn, hcast⟩ := hread hnum hlen
    exact ⟨(), ⟨hnum, hlen⟩, _, hn, hcast.symm ▸ hle⟩

theorem oneOf_iff {allowed : List String} {s : Bytes} {err : String} :
    oneOf allowed s err = .ok () ↔ OneOf allowed s := by
  simp only [oneOf, check_eq_ok, List.any_eq_true, beq_iff_eq, OneOf]
  exact exists_congr fun t => and_congr_right fun _ => eq_comm

theorem chooseIndex_iff {allowed : List String} {s : Bytes} (err : String) :
    (∃ index, chooseIndex allowed s err = .ok index) ↔ OneOf allowed s := by
  have hfind : (∃ i, indexOf (fun a b => ascii a == b) allowed s = some i) ↔ OneOf allowed s := by
    rw [← Option.isSome_iff_exists, indexOf, List.findIdx?_isSome, List.any_eq_true]
    simp only [beq_iff_eq, OneOf]
    exact exists_congr fun t => and_congr_right fun _ => eq_comm
  rw [← hfind]
  unfold chooseIndex
  cases indexOf (fun a b => ascii a == b) allowed s <;> simp

theorem voltageIn_iff (err : String) {v : CFloat} {lo hi : ℚ} :
    voltageIn v lo hi err = .ok () ↔ Between lo hi v := by
  simp [voltageIn, check_eq_ok, Between]

theorem voltageListed_iff {v : CFloat} {tables : List (List CFloat)} {err : String} :
    voltageListed v tables err = .ok () ↔ Listed tables v := by
  simp [voltageListed, check_eq_ok, Listed, indexOf, List.findIdx?_isSome]

theorem bucketArgs_iff {start stop : Bytes} :
    (∃ args, bucketArgs start stop = .ok args) ↔
      ClockIn (split start 0x3A) ∧ ClockIn (split stop 0x3A) := by
  simp only [bucketArgs, ClockIn, ← exists_stouh, bind_eq_ok, pure_eq_ok, check_eq_ok,
    decide_eq_true_eq]
  constructor
  · rintro ⟨_, _, hstart, _, hstop, h1, eh1, m1, em1, _, ⟨hh1, hm1⟩, h2, eh2, m2, em2, _,
      ⟨hh2, hm2⟩, -⟩
    exact ⟨⟨hstart, ⟨h1, eh1, hh1⟩, m1, em1, hm1⟩, hstop, ⟨h2, eh2, hh2⟩, m2, em2, hm2⟩
  · rintro ⟨⟨hstart, ⟨h1, eh1, hh1⟩, m1, em1, hm1⟩, hstop, ⟨h2, eh2, hh2⟩, m2, em2, hm2⟩
    exact ⟨_, (), hstart, (), hstop, h1, eh1, m1, em1, (), ⟨hh1, hm1⟩, h2, eh2, m2, em2, (),
      ⟨hh2, hm2⟩, rfl⟩

/-! ### All commands -/

section

variable {m : Machine} {args : List Bytes}

theorem checked_iff {x : Except Exn Unit} :
    (∃ args', (x >>= fun _ => pure args) = .ok args') ↔ x = .ok () := by
  simp only [bind_eq_ok, pure_eq_ok]
  exact ⟨fun ⟨_, (), hx, _⟩ => hx, fun hx => ⟨args, (), hx, rfl⟩⟩

theorem chosen_iff {allowed : List String} {s : Bytes} {err : String} {f : Bytes → List Bytes} :
    (∃ args', (chooseIndex allowed s err >>= fun index => pure (f index)) = .ok args') ↔
      OneOf allowed s := by
  rw [← chooseIndex_iff err]
  simp only [bind_eq_ok, pure_eq_ok]
  constructor
  · exact fun ⟨_, index, hindex, _⟩ => ⟨index, hindex⟩
  · exact fun ⟨index, hindex⟩ => ⟨_, index, hindex, rfl⟩

theorem idAndChoice_iff {allowed : List String} {s t : Bytes} {err₁ err₂ : String}
    {f : Bytes → List Bytes} :
    (∃ args', (do
      let id ← parallelId s
      check (isValidParallelId id) err₁
      let index ← chooseIndex allowed t err₂
      pure (f index)) = .ok args') ↔ CastWith 32 (· ≤ 6) s ∧ OneOf allowed t := by
  rw [← exists_stou, ← chooseIndex_iff err₂]
  simp only [bind_eq_ok, pure_eq_ok, check_eq_ok, isValidParallelId, decide_eq_true_eq]
  constructor
  · rintro ⟨_, id, hid, _, hle, index, hindex, -⟩
    exact ⟨⟨id, hid, hle⟩, index, hindex⟩
  · rintro ⟨⟨id, hid, hle⟩, index, hindex⟩
    exact ⟨_, id, hid, (), hle, index, hindex, rfl⟩

theorem maxCurrent_iff :
    (∃ args', validateArgs m .setBatteryMaxChargeCurrent args = .ok args') ↔
      CastWith 32 (· ≤ 6) (args.getD 0 []) ∧ CastWith 32 (· ≤ 999) (args.getD 1 []) := by
  rw [← exists_stou, ← exists_stou]
  unfold validateArgs
  simp only [bind_eq_ok, pure_eq_ok, check_eq_ok, isValidParallelId, decide_eq_true_eq]
  constructor
  · rintro ⟨_, id, hid, amps, hamps, _, hle, _, hle', -⟩
    exact ⟨⟨id, hid, hle⟩, amps, hamps, hle'⟩
  · rintro ⟨⟨id, hid, hle⟩, amps, hamps, hle'⟩
    exact ⟨_, id, hid, amps, hamps, (), hle, (), hle', rfl⟩

theorem voltages_iff {s t : Bytes} {check₁ check₂ : CFloat → Except Exn Unit}
    {ok₁ ok₂ : CFloat → Prop} (h₁ : ∀ v, check₁ v = .ok () ↔ ok₁ v)
    (h₂ : ∀ v, check₂ v = .ok () ↔ ok₂ v) :
    (∃ args', (do
      let v ← stof m s
      let w ← stof m t
      check₁ v
      check₂ w
      pure args) = .ok args') ↔ FloatWith m ok₁ s ∧ FloatWith m ok₂ t := by
  rw [← exists_stof, ← exists_stof]
  simp only [bind_eq_ok, pure_eq_ok]
  constructor
  · rintro ⟨_, v, hv, w, hw, _, hcheck, _, hcheck', -⟩
    exact ⟨⟨v, hv, (h₁ v).mp hcheck⟩, w, hw, (h₂ w).mp hcheck'⟩
  · rintro ⟨⟨v, hv, hok⟩, w, hw, hok'⟩
    exact ⟨_, v, hv, w, hw, (), (h₁ v).mpr hok, (), (h₂ w).mpr hok', rfl⟩

theorem flag_iff : (∃ args', validateArgs m .setFlag args = .ok args') ↔
    (∃ f ∈ flags, args.getD 0 [] = ascii f.flag) ∧ OneOf ["0", "1"] (args.getD 1 []) := by
  unfold validateArgs
  dsimp only
  cases hf : flags.find? (fun f => ascii f.flag == args.getD 0 []) with
  | none =>
      refine iff_of_false nofun ?_
      rintro ⟨⟨f, hmem, heq⟩, -⟩
      have hnone := List.find?_eq_none.mp hf f hmem
      exact hnone (beq_iff_eq.mpr heq.symm)
  | some f =>
      have heq : args.getD 0 [] = ascii f.flag := by
        have hbeq := List.find?_some hf
        exact (beq_iff_eq.mp hbeq).symm
      rw [and_iff_right ⟨f, List.mem_of_find?_eq_some hf, heq⟩, ← oneOf_iff]
      simp only [bind_eq_ok, pure_eq_ok]
      exact ⟨fun ⟨_, (), hone, _⟩ => hone, fun hone => ⟨_, (), hone, rfl⟩⟩

end

/-- **What `validate_input` takes**: the arguments that are admissible. -/
theorem validateArgs_accepted_iff (m : Machine) (c : CommandType) (args : List Bytes) :
    (∃ args', validateArgs m c args = .ok args') ↔ Admissible m c args := by
  cases c with
  | getYearGenerated => exact checked_iff.trans validateYear_iff
  | getMonthGenerated => exact checked_iff.trans validateMonth_iff
  | getDayGenerated => exact checked_iff.trans validateDate_iff
  | getParallelRatedInformation =>
      refine checked_iff.trans ?_
      simp [check_eq_ok, Admissible]
  | getParallelGeneralStatus =>
      refine checked_iff.trans ?_
      simp [check_eq_ok, Admissible]
  | setACSupply => exact checked_iff.trans oneOf_iff
  | setFlag => exact flag_iff
  | setBatteryMaxChargeCurrent => exact maxCurrent_iff
  | setBatteryMaxACChargeCurrent => exact maxCurrent_iff (m := m)
  | setACOutputFreq => exact checked_iff.trans oneOf_iff
  | setBatteryMaxChargeVoltage =>
      exact voltages_iff (fun _ => voltageIn_iff _) fun _ => voltageIn_iff _
  | setACOutputVoltage =>
      unfold validateArgs Admissible
      simp only [← exists_stou, bind_eq_ok, pure_eq_ok, check_eq_ok, List.contains_iff_mem]
      exact ⟨fun ⟨_, v, hv, _, hmem, _⟩ => ⟨v, hv, hmem⟩,
        fun ⟨v, hv, hmem⟩ => ⟨_, v, hv, (), hmem, rfl⟩⟩
  | setOutputSourcePriority => exact chosen_iff
  | setBatteryChargeThresholds =>
      exact voltages_iff (fun _ => voltageListed_iff) fun _ => voltageListed_iff
  | setChargeSourcePriority => exact idAndChoice_iff
  | setSolarPowerPriority => exact chosen_iff
  | setACInputVoltageRange => exact chosen_iff
  | setBatteryType => exact chosen_iff
  | setOutputMode => exact idAndChoice_iff
  | setBatteryCutOffVoltage =>
      unfold validateArgs Admissible
      simp only [← exists_stof, ← voltageIn_iff "invalid voltage", bind_eq_ok, pure_eq_ok]
      exact ⟨fun ⟨_, v, hv, (), hcheck, _⟩ => ⟨v, hv, hcheck⟩,
        fun ⟨v, hv, hcheck⟩ => ⟨_, v, hv, (), hcheck, rfl⟩⟩
  | setSolarConfig =>
      refine checked_iff.trans ?_
      simp [check_eq_ok, Admissible]
  | setDateTime =>
      unfold validateArgs Admissible
      simp only [validateTimeArgs, bind_eq_ok, pure_eq_ok]
      constructor
      · rintro ⟨_, _, hdate, _, ⟨_, hhour, _, hminute, hsecond⟩, -⟩
        exact ⟨validateDate_iff.mp hdate, validateClock_iff.mp hhour, validateClock_iff.mp hminute,
          validateClock_iff.mp hsecond⟩
      · rintro ⟨hdate, hhour, hminute, hsecond⟩
        exact ⟨_, (), validateDate_iff.mpr hdate, (), ⟨(), validateClock_iff.mpr hhour, (),
          validateClock_iff.mpr hminute, validateClock_iff.mpr hsecond⟩, rfl⟩
  | setACChargeTimeBucket => exact bucketArgs_iff
  | setACSupplyTimeBucket => exact bucketArgs_iff
  | _ => exact iff_of_true ⟨args, rfl⟩ trivial

end P18

namespace Inverterctl

open P18 (Machine Admissible NumbersFit clientCommand validateArgs_accepted_iff)
open Connection (formatNames)
open Loop (loop)

/-! ### The options -/

/-- The value of an option is one that it takes. -/
def Taken (opt : Opt) : Prop :=
  match opt.code with
  | .format => opt.arg ∈ formatNames
  | .raw => opt.arg.length ≤ MAX_RAW_COMMAND_LENGTH
  | .timeout => CastWith 64 (fun _ => True) opt.arg
  | .device | .serialStopBits | .serialParity => opt.arg ∈ listed opt.code
  | .usbVendorId | .usbDeviceId => opt.arg.length = 4 ∧ (strtolHex (cstr opt.arg)).2 = []
  | .serialBaudRate => CastWith 32 (fun n => isSerialBaudRateValid n = true) opt.arg
  | .serialDataBits => CastWith 32 (fun n => isSerialDataBitsValid (toInt n) = false) opt.arg
  | _ => True

/-- A number that the value begins with fits `unsigned long`. -/
def NumberFits (opt : Opt) : Prop :=
  match opt.code with
  | .timeout | .serialBaudRate | .serialDataBits => IntsFit [opt.arg]
  | _ => True

theorem usbId_invalid (name : String) (arg : Bytes) : Raises Exn.Invalid (usbId name arg) := by
  unfold usbId
  dsimp only
  split_ifs
  · exact raises_error.mpr rfl
  · cases hextoul arg with
    | error e => exact raises_error.mpr rfl
    | ok n => exact raises_ok _

theorem usbId_taken_iff (name : String) (arg : Bytes) :
    (∃ id, usbId name arg = .ok id) ↔ arg.length = 4 ∧ (strtolHex (cstr arg)).2 = [] := by
  unfold usbId hextoul
  by_cases hlen : arg.length = 4
  · by_cases hrest : (strtolHex (cstr arg)).2 = []
    · simp [hlen, hrest]
    · simp [hlen, hrest]
  · simp [hlen]

theorem formatFromString_invalid (s : Bytes) :
    Raises Exn.Invalid (Connection.formatFromString s) := by
  unfold Connection.formatFromString
  split_ifs <;> first | exact raises_ok _ | exact raises_error.mpr rfl

section

variable {α β : Type} {x : Except Exn α} {f : α → β}

/-- A step that passes a result on takes and raises what its first half does. -/
theorem exists_bind_pure : (∃ b, (x >>= fun a => pure (f a)) = .ok b) ↔ ∃ a, x = .ok a := by
  simp only [bind_eq_ok, pure_eq_ok]
  exact ⟨fun ⟨_, a, ha, _⟩ => ⟨a, ha⟩, fun ⟨a, ha⟩ => ⟨_, a, ha, rfl⟩⟩

theorem raises_bind_pure {P : Exn → Prop} :
    Raises P (x >>= fun a => pure (f a)) ↔ Raises P x := by
  rw [raises_bind_iff]
  exact and_iff_left fun a _ => raises_pure (f a)

end

theorem stoull_taken_iff (s : Bytes) :
    (∃ n, stoull s = .ok n) ↔ CastWith 64 (fun _ => True) s := by
  have hread : ∀ n, stoull s = .ok n ↔ strtoul s = .ok n := fun n => by
    unfold stoull
    cases strtoul s <;> simp [Conv.toExcept]
  simp only [hread, strtoul_eq_ok_iff, CastWith, and_true]
  constructor
  · rintro ⟨n, z, hz, hfits, -⟩
    exact ⟨z, hz, hfits⟩
  · rintro ⟨z, hz, hfits⟩
    exact ⟨_, z, hz, hfits, Int.toNat_of_nonneg (Int.emod_nonneg z (by norm_num))⟩

section

variable {β γ : Type} {s : Bytes} {cast : ℕ → β} {bad : β → Bool} {err : String} {f : β → γ}

/-- A number that is read, cast to 32 bits and refused when `bad` holds of it. -/
theorem checkedNumber_taken_iff (hcast : ∀ k, cast (k % 2 ^ 32) = cast k) :
    (∃ r, (do
      let n ← cast <$> stoul s
      if bad n then .error (invalidArgument err) else pure (f n)) = .ok r) ↔
        CastWith 32 (fun n => bad (cast n) = false) s := by
  have hstep : (∃ r, (do
      let n ← cast <$> stoul s
      if bad n then .error (invalidArgument err) else pure (f n)) = .ok r) ↔
        ∃ n, (∃ k, stoul s = .ok k ∧ k % 2 ^ 32 = n) ∧ bad (cast n) = false := by
    simp only [bind_eq_ok, map_eq_ok]
    constructor
    · rintro ⟨r, _, ⟨k, hk, rfl⟩, h⟩
      refine ⟨_, ⟨k, hk, rfl⟩, ?_⟩
      rw [hcast]
      by_contra hbad
      rw [if_pos (by simpa using hbad)] at h
      cases h
    · rintro ⟨_, ⟨k, hk, rfl⟩, hgood⟩
      rw [hcast] at hgood
      exact ⟨f (cast k), _, ⟨k, hk, rfl⟩, by rw [hgood]; rfl⟩
  rw [hstep, CastWith]
  simp only [stoul_castWith (show 32 ≤ 64 by norm_num)]
  constructor
  · rintro ⟨_, ⟨z, hz, hfits, rfl⟩, hgood⟩
    exact ⟨z, hz, hfits, hgood⟩
  · rintro ⟨z, hz, hfits, hgood⟩
    exact ⟨_, ⟨z, hz, hfits, rfl⟩, hgood⟩

theorem checkedNumber_invalid_iff :
    Raises Exn.Invalid (do
      let n ← cast <$> stoul s
      if bad n then .error (invalidArgument err) else pure (f n)) ↔ IntsFit [s] := by
  refine ((stoul_converts s).map cast).bind_allFit_iff fun n => iff_of_true ?_ trivial
  split_ifs
  · exact raises_error.mpr rfl
  · exact raises_pure _

end

theorem toInt_mod (k : ℕ) : toInt (k % 2 ^ 32) = toInt k := by
  unfold toInt
  have hcast : ((k % 2 ^ 32 : ℕ) : ℤ) = (k : ℤ) % ((2 ^ 32 : ℕ) : ℤ) := Int.natCast_mod k (2 ^ 32)
  rw [hcast]
  exact Int.emod_bmod _ _

theorem deviceSet_taken_iff (d : DeviceOptions) (opt : Opt) (h : opt.code ≠ .format ∧
    opt.code ≠ .raw ∧ opt.code ≠ .timeout) : (∃ d', d.set opt = .ok d') ↔ Taken opt := by
  obtain ⟨code, arg⟩ := opt
  cases code with
  | format => exact absurd rfl h.1
  | raw => exact absurd rfl h.2.1
  | timeout => exact absurd rfl h.2.2
  | usbVendorId => exact exists_bind_pure.trans (usbId_taken_iff _ arg)
  | usbDeviceId => exact exists_bind_pure.trans (usbId_taken_iff _ arg)
  | serialBaudRate =>
      refine (checkedNumber_taken_iff fun k => Nat.mod_mod k _).trans ?_
      unfold Taken
      apply castWith_congr
      intro n hn
      rw [toUnsigned, Nat.mod_eq_of_lt hn, Bool.not_eq_false']
  | serialDataBits =>
      exact checkedNumber_taken_iff toInt_mod
  | device =>
      simp only [DeviceOptions.set, Taken, listed]
      split_ifs with h1 h2 h3 <;> simp [*]
  | serialStopBits =>
      simp only [DeviceOptions.set, Taken, listed]
      split_ifs with h1 h2 h3 <;> simp [*]
  | serialParity =>
      simp only [DeviceOptions.set, Taken, listed]
      split_ifs with h1 h2 h3 h4 h5 <;> simp [*]
  | _ => exact iff_of_true ⟨_, rfl⟩ trivial

theorem set_taken_iff (p : Params) (opt : Opt) : (∃ p', p.set opt = .ok p') ↔ Taken opt := by
  obtain ⟨code, arg⟩ := opt
  cases code with
  | shortHelp => exact iff_of_true ⟨_, rfl⟩ trivial
  | help => exact iff_of_true ⟨_, rfl⟩ trivial
  | verbose => exact iff_of_true ⟨_, rfl⟩ trivial
  | format => exact exists_bind_pure.trans Connection.mem_formatNames_iff.symm
  | raw =>
      simp only [Params.set, Taken]
      split_ifs with hlen
      · simpa using hlen
      · simpa using hlen
  | timeout => exact exists_bind_pure.trans (stoull_taken_iff arg)
  | _ => exact exists_bind_pure.trans (deviceSet_taken_iff p.device _ (by simp))

theorem deviceSet_invalid_iff (d : DeviceOptions) (opt : Opt) (h : opt.code ≠ .timeout) :
    Raises Exn.Invalid (d.set opt) ↔ NumberFits opt := by
  obtain ⟨code, arg⟩ := opt
  cases code with
  | timeout => exact absurd rfl h
  | usbVendorId => exact iff_of_true (raises_bind_pure.mpr (usbId_invalid _ arg)) trivial
  | usbDeviceId => exact iff_of_true (raises_bind_pure.mpr (usbId_invalid _ arg)) trivial
  | serialBaudRate => exact checkedNumber_invalid_iff
  | serialDataBits => exact checkedNumber_invalid_iff
  | device | serialStopBits | serialParity =>
      refine iff_of_true ?_ trivial
      unfold DeviceOptions.set
      dsimp only
      split_ifs <;> first | exact raises_ok _ | exact raises_error.mpr rfl
  | _ => exact iff_of_true (raises_ok _) trivial

theorem set_invalid_iff (p : Params) (opt : Opt) :
    Raises Exn.Invalid (p.set opt) ↔ NumberFits opt := by
  obtain ⟨code, arg⟩ := opt
  cases code with
  | shortHelp => exact iff_of_true (raises_ok _) trivial
  | help => exact iff_of_true (raises_ok _) trivial
  | verbose => exact iff_of_true (raises_ok _) trivial
  | format => exact iff_of_true (raises_bind_pure.mpr (formatFromString_invalid arg)) trivial
  | raw =>
      refine iff_of_true ?_ trivial
      unfold Params.set
      dsimp only
      split_ifs
      · exact raises_error.mpr rfl
      · exact raises_ok _
  | timeout =>
      refine (strtoul_converts "stoull" arg).bind_allFit_iff fun n => iff_of_true ?_ trivial
      exact raises_pure _
  | _ => exact raises_bind_pure.trans (deviceSet_invalid_iff p.device _ (by simp))

/-! ### The command -/

/-- The words are no command that is taken, and no number is too large: there is none, or its name
is unknown, its arguments are missing, they are not admissible, or words follow them. -/
def CommandRefused (m : Machine) : List Bytes → Prop
  | [] => True
  | command :: argv => ∀ c, clientCommand command = some c → Supplied c argv →
      NumbersFit m c (argv.take (arity c)) ∧
        (Admissible m c (argv.take (arity c)) → arity c < argv.length)

theorem error_invalid_iff {α : Type} {x : Except Exn α} :
    (∃ e, x = .error e ∧ e.Invalid) ↔ (¬ ∃ a, x = .ok a) ∧ Raises Exn.Invalid x := by
  cases x with
  | error e => simp [raises_error]
  | ok a => simp

theorem readCommand_taken_iff {m : Machine} {command : Bytes} {argv : List Bytes} :
    (∃ r, readCommand m (command :: argv) = .ok r) ↔ ∃ c, clientCommand command = some c ∧
      Supplied c argv ∧ argv.length = arity c ∧ Admissible m c (argv.take (arity c)) := by
  simp only [Prod.exists, readCommand_eq_ok, ← validateArgs_accepted_iff]
  constructor
  · rintro ⟨c, args, hc, hsupplied, hlen, hargs⟩
    refine ⟨c, hc, hsupplied, hlen, args, ?_⟩
    rwa [← hlen, List.take_length]
  · rintro ⟨c, hc, hsupplied, hlen, args, hargs⟩
    rw [← hlen, List.take_length] at hargs
    exact ⟨c, args, hc, hsupplied, hlen, hargs⟩

theorem readCommand_invalid_iff {m : Machine} {command : Bytes} {argv : List Bytes} :
    Raises Exn.Invalid (readCommand m (command :: argv)) ↔ ∀ c, clientCommand command = some c →
      Supplied c argv → NumbersFit m c (argv.take (arity c)) := by
  have hextra : Raises Exn.Invalid (readCommand m (command :: argv)) ↔ Raises Exn.Invalid
      (P18.validateInput m (fun count => Prod.fst <$> takeArgs count count [] argv) command) := by
    refine raises_bind_iff.trans (and_iff_left fun input _ => ?_)
    dsimp only
    split_ifs
    · exact raises_error.mpr rfl
    · exact raises_pure _
  have hget : ∀ n, Raises Exn.Invalid (Prod.fst <$> takeArgs n n [] argv) := fun n =>
    raises_map.mpr (P18.takeArgs_invalid n n [] argv)
  rw [hextra, P18.validateInput_invalid_iff_of hget]
  simp only [givenArgs_takeArgs]
  constructor
  · intro h c hc hsupplied
    exact h c _ hc ⟨hsupplied, rfl⟩
  · rintro h c given hc ⟨hsupplied, rfl⟩
    exact h c hc hsupplied

theorem readCommand_refused_iff (m : Machine) (words : List Bytes) :
    (∃ e, readCommand m words = .error e ∧ e.Invalid) ↔ CommandRefused m words := by
  cases words with
  | nil => exact iff_of_true ⟨_, rfl, rfl⟩ trivial
  | cons command argv =>
      rw [error_invalid_iff, readCommand_taken_iff, readCommand_invalid_iff]
      constructor
      · rintro ⟨hnot, hfits⟩ c hc hsupplied
        refine ⟨hfits c hc hsupplied, fun hadmissible => ?_⟩
        by_contra hle
        exact hnot ⟨c, hc, hsupplied, le_antisymm (not_lt.mp hle) hsupplied.1, hadmissible⟩
      · intro h
        refine ⟨?_, fun c hc hsupplied => (h c hc hsupplied).1⟩
        rintro ⟨c, hc, hsupplied, hlen, hadmissible⟩
        exact absurd hlen ((h c hc hsupplied).2 hadmissible).ne'

/-! ### The command line -/

/-- What `getopt_long` makes of the arguments: the options, whether it then reported an option that
is unknown or lacks its argument, and the words from `optind` on. -/
structure Getopt where
  opts : List Opt
  error : Bool
  words : List Bytes
deriving DecidableEq, Repr

/-- The first option whose value is not taken begins with no number that is too large. -/
def OptionRefused (opts : List Opt) : Prop :=
  ∃ before opt after, opts = before ++ opt :: after ∧ (∀ o ∈ before, Taken o) ∧ ¬ Taken opt ∧
    NumberFits opt

/-- The command line is none that is taken, and no number that is read is too large: an option is
refused; or all are taken, `--raw` among them, and `--format` or a word comes with it; or all are
taken, without `--raw`, and the command is refused. -/
def Refused (m : Machine) (g : Getopt) : Prop :=
  OptionRefused g.opts ∨ (∀ opt ∈ g.opts, Taken opt) ∧
    if ∃ opt ∈ g.opts, opt.code = .raw then (∃ opt ∈ g.opts, opt.code = .format) ∨ g.words ≠ []
    else CommandRefused m g.words

theorem readOptions_refused_iff (opts : List Opt) :
    (∃ e, (readOptions opts).2 = some e ∧ e.Invalid) ↔ OptionRefused opts :=
  Loop.loop_throws_iff set_taken_iff set_invalid_iff

theorem readOptions_taken_iff (opts : List Opt) :
    (readOptions opts).2 = none ↔ ∀ opt ∈ opts, Taken opt :=
  Loop.loop_eq_none_iff set_taken_iff

end Inverterctl

end InverterTools
