import InverterTools.Accepted
import InverterTools.Lib.Layout

/-! # Well-formed requests

What `Client::execute` sends for an accepted request.  `argLayout` is the argument field of each
command: numbers of fixed width, single letters and commas.  Most arguments are printed from the
number that was read, so they fit; machine ids are copied as they were typed, and a voltage may be
`nan`.  `packed_wellFormed_iff` says that these two are the only ways to get a frame that is not
well formed. -/

namespace InverterTools.P18

open Voltronic (Device Flags defaultFlags crcWrite)

/-- A comma in a layout. -/
abbrev comma : Field := .char (ascii ",")

/-- The argument field of a command. -/
def argLayout : CommandType → Layout
  | .getYearGenerated => [.num 4 2099]
  | .getMonthGenerated => [.num 4 2099, .num 2 12]
  | .getDayGenerated => [.num 4 2099, .num 2 12, .num 2 31]
  | .getParallelRatedInformation | .getParallelGeneralStatus => [.num 1 6]
  | .setACSupply => [.num 1 1]
  | .setFlag => [.char (ascii "ED"), .char (ascii "ABCDEFGHI")]
  | .setBatteryMaxChargeCurrent | .setBatteryMaxACChargeCurrent => [.num 1 6, comma, .num 3 999]
  | .setACOutputFreq => [.num 2 60]
  | .setBatteryMaxChargeVoltage | .setBatteryChargeThresholds =>
      [.num 3 999, comma, .num 3 999]
  | .setACOutputVoltage => [.num 4 2400]
  | .setOutputSourcePriority | .setSolarPowerPriority | .setACInputVoltageRange => [.num 1 1]
  | .setChargeSourcePriority => [.num 1 6, comma, .num 1 2]
  | .setBatteryType => [.num 1 2]
  | .setOutputMode => [.num 1 6, comma, .num 1 4]
  | .setBatteryCutOffVoltage => [.num 3 999]
  | .setSolarConfig => [.num 2 20, .num 20 (10 ^ 20 - 1)]
  | .setDateTime => [.num 2 99, .num 2 12, .num 2 31, .num 2 23, .num 2 59, .num 2 59]
  | .setACChargeTimeBucket | .setACSupplyTimeBucket =>
      [.num 2 23, .num 2 59, comma, .num 2 23, .num 2 59]
  | _ => []

/-- The commands whose first argument is a machine id. -/
def takesId : CommandType → Bool
  | .getParallelRatedInformation | .getParallelGeneralStatus | .setBatteryMaxChargeCurrent
  | .setBatteryMaxACChargeCurrent | .setChargeSourcePriority | .setOutputMode => true
  | _ => false

/-- The arguments that are checked against a range of voltages. -/
def voltageArgs (c : CommandType) (args : List Bytes) : List Bytes :=
  match c with
  | .setBatteryMaxChargeVoltage => [args.getD 0 [], args.getD 1 []]
  | .setBatteryCutOffVoltage => [args.getD 0 []]
  | _ => []

/-- The arguments that are encoded as they should be: a machine id is one digit from 0 to 6, and
no voltage is `nan`, unless the processor turns that into a number of three digits. -/
structure PlainArgs (m : Machine) (c : CommandType) (args : List Bytes) : Prop where
  id_eq : takesId c = true → ∃ d, d ≤ 6 ∧ args.getD 0 [] = [digit d]
  not_nan : ∀ v ∈ voltageArgs c args, stod m v = .ok .nan →
    0 ≤ m.castInt .nan ∧ m.castInt .nan ≤ 999

/-! ### Fields that fit -/

theorem packInt_matches {w hi : ℕ} {arg f : Bytes} {z : ℤ} (hw : 0 < w) (hz : stoi arg = .ok z)
    (hf : packInt w arg = .ok f) (h0 : 0 ≤ z) (hlt : z < 10 ^ w) (hhi : z ≤ hi) :
    (Field.num w hi).Matches f := by
  rw [packInt, hz] at hf
  obtain rfl := Except.ok.inj hf
  exact (zeroPad_intDecimal_matches_iff hw).mpr ⟨h0, hlt, hhi⟩

theorem packDatePart_matches {i hi : ℕ} {arg f : Bytes} {z : ℤ} (hi0 : i ≠ 0)
    (hz : stoi arg = .ok z) (hf : packDatePart i arg = .ok f) (h0 : 0 ≤ z) (hlt : z < 10 ^ 2)
    (hhi : z ≤ hi) : (Field.num 2 hi).Matches f := by
  rw [packDatePart, hz] at hf
  obtain rfl := Except.ok.inj hf
  simp only [hi0, if_false]
  exact (zeroPad_intDecimal_matches_iff (by norm_num)).mpr ⟨h0, hlt, hhi⟩

theorem comma_matches : comma.Matches (ascii ",") := ⟨0x2C, by decide, rfl⟩

theorem year_matches {ys : Bytes} {ms ds : Option Bytes} {u : Unit}
    (h : validateDateArgs ys ms ds = .ok u) : (Field.num 4 2099).Matches ys := by
  obtain ⟨⟨hnum, hlen⟩, ⟨y, hy, hrange⟩, -⟩ := validateDateArgs_eq_ok h
  obtain ⟨hi, -⟩ := stoi_of_isNumeric hnum hlen.le (by norm_num)
  rw [hi] at hy
  obtain rfl := Except.ok.inj hy
  exact ⟨hlen, (isNumeric_iff.mp hnum).2, by omega⟩

theorem chooseIndex_matches {allowed : List String} {arg f : Bytes} {err : String} {hi : ℕ}
    (h : chooseIndex allowed arg err = .ok f) (hlen : allowed.length ≤ hi + 1) (hhi : hi < 10) :
    (Field.num 1 hi).Matches f := by
  unfold chooseIndex at h
  cases hidx : indexOf (fun a b => ascii a == b) allowed arg with
  | none => simp [hidx] at h
  | some i =>
      simp only [hidx] at h
      obtain rfl := Except.ok.inj h
      have hi' := (List.findIdx?_eq_some_iff_findIdx_eq.mp hidx).1
      rw [decimal_of_lt (by omega)]
      exact digit_matches (by omega) (by omega)

/-! ### Voltages -/

/-- A `float` that passes a range check is in the range, or is not a number. -/
theorem voltageIn_eq_ok {v : CFloat} {lo hi l h : ℚ} {err : String} {u : Unit}
    (hlo : binary64.round lo = .fin l) (hhi : binary64.round hi = .fin h)
    (hv : voltageIn v lo hi err = .ok u) : v = .nan ∨ ∃ r, v = .fin r ∧ l ≤ r ∧ r ≤ h := by
  simp only [voltageIn, check_eq_ok, hlo, hhi, Bool.not_eq_true', Bool.or_eq_false_iff] at hv
  cases v with
  | nan => exact .inl rfl
  | inf neg => cases neg <;> simp [CFloat.lt] at hv
  | fin r =>
      simp only [CFloat.lt, decide_eq_false_iff_not, not_lt] at hv
      exact .inr ⟨r, rfl, hv⟩

theorem voltageListed_eq_ok {v : CFloat} {tables : List (List CFloat)} {err : String} {u : Unit}
    (hT : ∀ t ∈ tables, ∀ x ∈ t, x.lt (.fin 0) = false ∧ x.lt (.fin 59) = true)
    (hv : voltageListed v tables err = .ok u) : ∃ r, v = .fin r ∧ 0 ≤ r ∧ r < 59 := by
  simp only [voltageListed, check_eq_ok, List.any_eq_true, indexOf, List.findIdx?_isSome] at hv
  obtain ⟨t, ht, x, hx, heq⟩ := hv
  have hbounds := hT t ht x hx
  cases x with
  | nan => simp [CFloat.lt] at hbounds
  | inf neg => cases neg <;> simp [CFloat.lt] at hbounds
  | fin q =>
      cases v with
      | nan => simp [CFloat.eq] at heq
      | inf neg => simp [CFloat.eq] at heq
      | fin r =>
          simp only [CFloat.eq, decide_eq_true_eq] at heq
          subst heq
          simp only [CFloat.lt, decide_eq_false_iff_not, not_lt, decide_eq_true_eq] at hbounds
          exact ⟨q, rfl, hbounds⟩

theorem voltages_lt :
    (∀ t ∈ [batACRechargeVoltages12V, batACRechargeVoltages24V, batACRechargeVoltages48V],
      ∀ x ∈ t, x.lt (.fin 0) = false ∧ x.lt (.fin 59) = true) ∧
    ∀ t ∈ [batACRedischargeVoltages12V, batACRedischargeVoltages24V, batACRedischargeVoltages48V],
      ∀ x ∈ t, x.lt (.fin 0) = false ∧ x.lt (.fin 59) = true := by
  decide +kernel

/-- A text that reads as a `float` from 0 to 59 reads as a `double` from 0 to 59. -/
theorem stod_of_stof {m : Machine} {s : Bytes} {r : ℚ} {x : CFloat}
    (hf : stof m s = .ok (.fin r)) (hd : stod m s = .ok x) (h0 : 0 ≤ r) (h59 : r < 59) :
    ∃ r', x = .fin r' ∧ 0 ≤ r' ∧ r' ≤ 59 := by
  rw [stof_eq_ok] at hf
  rw [stod_eq_ok] at hd
  obtain ⟨neg, q, hscan, -, -⟩ := strtod_eq_ok_fin hf
  cases x with
  | nan =>
      rw [strtod_eq_ok_nan_iff, hscan] at hd
      simp at hd
  | inf neg =>
      have := strtod_eq_ok_inf hd
      simp [hscan] at this
  | fin r' =>
      have hle := strtod_le_of_le (n := 59) hf hd (by decide) (by decide) (by exact_mod_cast h59)
      exact ⟨r', rfl, strtod_nonneg hf hd h0, by exact_mod_cast hle⟩

theorem stod_of_stof_nan {m : Machine} {s : Bytes} {x : CFloat} (hf : stof m s = .ok .nan)
    (hd : stod m s = .ok x) : x = .nan := by
  rw [stof_eq_ok, strtod_eq_ok_nan_iff] at hf
  rw [stod_eq_ok, strtod_eq_ok_nan_iff.mpr hf] at hd
  exact (Conv.ok.inj hd).symm

/-- Ten times a voltage up to 59, rounded, is a number up to 590 and fits an `int`. -/
theorem roundInt_timesTen_eq (m : Machine) {r : ℚ} (h0 : 0 ≤ r) (h59 : r ≤ 59) :
    m.roundInt (timesTen (.fin r)) = CFloat.roundAway (binary64.roundPos (r * 10)) ∧
      0 ≤ CFloat.roundAway (binary64.roundPos (r * 10)) ∧
      CFloat.roundAway (binary64.roundPos (r * 10)) ≤ 590 := by
  have hpos : 0 ≤ r * 10 := by linarith
  have hle : binary64.roundPos (r * 10) ≤ 590 := by
    have hmono := binary64.roundPos_mono hpos (by push_cast; linarith : r * 10 ≤ ((590 : ℕ) : ℚ))
    rw [binary64.roundPos_natCast (by decide)] at hmono
    exact_mod_cast hmono
  have hnonneg := binary64.roundPos_nonneg hpos
  have hfin : timesTen (.fin r) = .fin (binary64.roundPos (r * 10)) := by
    have hbig : (590 : ℚ) < 2 ^ (binary64.emax + 1) :=
      lt_trans (show (590 : ℚ) < 2 ^ (10 : ℤ) by norm_num)
        (zpow_lt_zpow_right₀ (by norm_num) (by decide))
    rw [timesTen, FloatFormat.round, abs_of_nonneg hpos]
    rw [if_neg (by linarith), if_neg (not_lt.mpr hpos)]
  have hround0 : 0 ≤ CFloat.roundAway (binary64.roundPos (r * 10)) := by
    rw [CFloat.roundAway, if_neg (not_lt.mpr hnonneg)]
    exact Int.floor_nonneg.mpr (by linarith)
  have hround : CFloat.roundAway (binary64.roundPos (r * 10)) ≤ 590 := by
    rw [CFloat.roundAway, if_neg (not_lt.mpr hnonneg)]
    exact Int.lt_add_one_iff.mp (Int.floor_lt.mpr (by push_cast; linarith))
  refine ⟨?_, hround0, hround⟩
  rw [hfin, Machine.roundInt, if_neg (by omega)]

theorem roundInt_timesTen (m : Machine) {r : ℚ} (h0 : 0 ≤ r) (h59 : r ≤ 59) :
    0 ≤ m.roundInt (timesTen (.fin r)) ∧ m.roundInt (timesTen (.fin r)) ≤ 590 := by
  obtain ⟨heq, h1, h2⟩ := roundInt_timesTen_eq m h0 h59
  rw [heq]
  exact ⟨h1, h2⟩

theorem packVoltage_matches {m : Machine} {s f : Bytes} {r : ℚ} (hf : stof m s = .ok (.fin r))
    (h0 : 0 ≤ r) (h59 : r < 59) (hp : packVoltage m s = .ok f) : (Field.num 3 999).Matches f := by
  obtain ⟨x, hx, rfl⟩ := map_eq_ok.mp hp
  obtain ⟨r', rfl, h0', h59'⟩ := stod_of_stof hf hx h0 h59
  obtain ⟨h1, h2⟩ := roundInt_timesTen m h0' h59'
  exact (zeroPad_intDecimal_matches_iff (by norm_num)).mpr ⟨h1, by omega, by omega⟩

/-- A voltage in a range is packed in three digits exactly when it is a number, or the processor
makes a number of three digits of it. -/
theorem packVoltage_matches_iff {m : Machine} {s f : Bytes} {v : CFloat} (hf : stof m s = .ok v)
    (hv : v = .nan ∨ ∃ r, v = .fin r ∧ 0 ≤ r ∧ r < 59) (hp : packVoltage m s = .ok f) :
    (Field.num 3 999).Matches f ↔
      (stod m s = .ok .nan → 0 ≤ m.castInt .nan ∧ m.castInt .nan ≤ 999) := by
  rcases hv with rfl | ⟨r, rfl, h0, h59⟩
  · obtain ⟨x, hx, rfl⟩ := map_eq_ok.mp hp
    obtain rfl := stod_of_stof_nan hf hx
    rw [fixedInt, zeroPad_intDecimal_matches_iff (by norm_num)]
    show (0 ≤ m.castInt .nan ∧ m.castInt .nan < 10 ^ 3 ∧ m.castInt .nan ≤ (999 : ℕ)) ↔ _
    constructor
    · rintro ⟨h1, -, h2⟩ -
      exact ⟨h1, by exact_mod_cast h2⟩
    · intro h
      obtain ⟨h1, h2⟩ := h hx
      exact ⟨h1, by omega, by exact_mod_cast h2⟩
  · refine iff_of_true (packVoltage_matches hf h0 h59 hp) (fun hnan => ?_)
    rw [stof_eq_ok] at hf
    rw [stod_eq_ok, strtod_eq_ok_nan_iff] at hnan
    obtain ⟨neg, q, hscan, -, -⟩ := strtod_eq_ok_fin hf
    simp [hscan] at hnan

theorem packVoltage_length {m : Machine} {s f : Bytes} (hp : packVoltage m s = .ok f) :
    3 ≤ f.length := by
  obtain ⟨x, -, rfl⟩ := map_eq_ok.mp hp
  rw [fixedInt, zeroPad_length]
  omega

/-! ### The argument field of each command -/

section

variable {m : Machine} {args : List Bytes} {fields : Bytes}

theorem getYearGenerated_matches {y : Bytes} (hv : validateArgs m .getYearGenerated [y] = .ok args)
    (hp : packArguments m .getYearGenerated args = .ok fields) :
    Layout.Matches (argLayout .getYearGenerated) fields := by
  obtain ⟨hdate, rfl⟩ := getYearGenerated_accepted hv
  obtain rfl := pure_eq_ok.mp hp
  exact Layout.matches_singleton.mpr (year_matches hdate)

theorem getMonthGenerated_matches {y mo : Bytes}
    (hv : validateArgs m .getMonthGenerated [y, mo] = .ok args)
    (hp : packArguments m .getMonthGenerated args = .ok fields) :
    Layout.Matches (argLayout .getMonthGenerated) fields := by
  obtain ⟨hdate, rfl⟩ := getMonthGenerated_accepted hv
  obtain ⟨month, hmonth, rfl⟩ := getMonthGenerated_packed hp
  obtain ⟨-, -, ⟨z, hz⟩, -⟩ := validateDateArgs_eq_ok hdate
  obtain ⟨hz, h1, h2⟩ := twoDigits_eq_ok hz
  exact Layout.matches_cons (year_matches hdate) (Layout.matches_singleton.mpr
    (packInt_matches (by norm_num) hz hmonth (by omega) (by omega) (by omega)))

theorem getDayGenerated_matches {y mo d : Bytes}
    (hv : validateArgs m .getDayGenerated [y, mo, d] = .ok args)
    (hp : packArguments m .getDayGenerated args = .ok fields) :
    Layout.Matches (argLayout .getDayGenerated) fields := by
  obtain ⟨hdate, rfl⟩ := getDayGenerated_accepted hv
  obtain ⟨month, day, hmonth, hday, rfl⟩ := getDayGenerated_packed hp
  obtain ⟨-, -, ⟨z, hz⟩, z', hz'⟩ := validateDateArgs_eq_ok hdate
  obtain ⟨hz, h1, h2⟩ := twoDigits_eq_ok hz
  obtain ⟨hz', h1', h2'⟩ := twoDigits_eq_ok hz'
  rw [List.append_assoc]
  exact Layout.matches_cons (year_matches hdate) (Layout.matches_cons
    (packInt_matches (by norm_num) hz hmonth (by omega) (by omega) (by omega))
    (Layout.matches_singleton.mpr
      (packInt_matches (by norm_num) hz' hday (by omega) (by omega) (by omega))))

theorem setDateTime_matches {y mo d h mi s : Bytes}
    (hv : validateArgs m .setDateTime [y, mo, d, h, mi, s] = .ok args)
    (hp : packArguments m .setDateTime args = .ok fields) :
    Layout.Matches (argLayout .setDateTime) fields := by
  obtain ⟨hdate, hh, hmi, hs, rfl⟩ := setDateTime_accepted hv
  obtain ⟨year, month, day, hour, minute, second, hyear, hmonth, hday, hhour, hminute, hsecond,
    rfl⟩ := setDateTime_packed.mp hp
  obtain ⟨-, ⟨zy, hzy, hy1, hy2⟩, ⟨zm, hzm⟩, zd, hzd⟩ := validateDateArgs_eq_ok hdate
  obtain ⟨hzm, hm1, hm2⟩ := twoDigits_eq_ok hzm
  obtain ⟨hzd, hd1, hd2⟩ := twoDigits_eq_ok hzd
  obtain ⟨nh, hnh, hh1, hh2⟩ := validateClockArg_eq_ok hh
  obtain ⟨nmi, hnmi, hmi1, hmi2⟩ := validateClockArg_eq_ok hmi
  obtain ⟨ns, hns, hs1, hs2⟩ := validateClockArg_eq_ok hs
  have hyear' : (Field.num 2 99).Matches year := by
    rw [packDatePart, hzy] at hyear
    obtain rfl := Except.ok.inj hyear
    exact (zeroPad_intDecimal_matches_iff (by norm_num)).mpr
      ⟨by simp only [if_true]; omega, by simp only [if_true]; omega, by simp only [if_true]; omega⟩
  simp only [List.append_assoc]
  refine Layout.matches_cons hyear' (Layout.matches_cons ?_ (Layout.matches_cons ?_
    (Layout.matches_cons ?_ (Layout.matches_cons ?_ (Layout.matches_singleton.mpr ?_)))))
  · exact packDatePart_matches (by decide) hzm hmonth (by omega) (by omega) (by omega)
  · exact packDatePart_matches (by decide) hzd hday (by omega) (by omega) (by omega)
  · exact packDatePart_matches (by decide) hnh hhour (by omega) (by omega) (by omega)
  · exact packDatePart_matches (by decide) hnmi hminute (by omega) (by omega) (by omega)
  · exact packDatePart_matches (by decide) hns hsecond (by omega) (by omega) (by omega)

theorem packInt_decimal_matches {n hi : ℕ} {f : Bytes} (h : n ≤ hi) (hhi : hi < 100)
    (hf : packInt 2 (decimal n) = .ok f) : (Field.num 2 hi).Matches f :=
  packInt_matches (by norm_num) (stoi_decimal (by omega)) hf (by omega) (by omega) (by omega)

theorem timeBucket_matches {c : CommandType}
    (hc : c = .setACChargeTimeBucket ∨ c = .setACSupplyTimeBucket) {start stop : Bytes}
    (hv : validateArgs m c [start, stop] = .ok args) (hp : packArguments m c args = .ok fields) :
    Layout.Matches (argLayout c) fields := by
  obtain ⟨h1, m1, h2, m2, ⟨hh1, hm1, hh2, hm2⟩, rfl, f1, f2, f3, f4, hf1, hf2, hf3, hf4, rfl⟩ :=
    timeBucket_packed hc hv hp
  have hl : argLayout c = [.num 2 23, .num 2 59, comma, .num 2 23, .num 2 59] := by
    rcases hc with rfl | rfl <;> rfl
  simp only [hl, List.append_assoc]
  exact Layout.matches_cons (packInt_decimal_matches hh1 (by norm_num) hf1)
    (Layout.matches_cons (packInt_decimal_matches hm1 (by norm_num) hf2)
    (Layout.matches_cons comma_matches
    (Layout.matches_cons (packInt_decimal_matches hh2 (by norm_num) hf3)
    (Layout.matches_singleton.mpr (packInt_decimal_matches hm2 (by norm_num) hf4)))))

theorem chosen_matches {a : Bytes} {allowed : List String} {err : String} {hi : ℕ}
    (hv : (chooseIndex allowed a err >>= fun index => pure ([a].set 0 index)) = .ok args)
    (hp : (pure (args.getD 0 []) : Except Exn Bytes) = .ok fields)
    (hlen : allowed.length ≤ hi + 1) (hhi : hi < 10) : Layout.Matches [.num 1 hi] fields := by
  obtain ⟨index, hindex, hargs⟩ := bind_eq_ok.mp hv
  obtain rfl := pure_eq_ok.mp hargs
  obtain rfl := pure_eq_ok.mp hp
  exact Layout.matches_singleton.mpr (chooseIndex_matches hindex hlen hhi)

theorem setACSupply_matches {a : Bytes} (hv : validateArgs m .setACSupply [a] = .ok args)
    (hp : packArguments m .setACSupply args = .ok fields) :
    Layout.Matches (argLayout .setACSupply) fields := by
  obtain ⟨⟨t, ht, rfl⟩, rfl⟩ := setACSupply_accepted hv
  obtain rfl := pure_eq_ok.mp hp
  simp only [List.mem_cons, List.not_mem_nil, or_false] at ht
  rcases ht with rfl | rfl
  · exact Layout.matches_singleton.mpr (digit_matches (d := 0) (by norm_num) (by norm_num))
  · exact Layout.matches_singleton.mpr (digit_matches (d := 1) (by norm_num) (by norm_num))

theorem setFlag_matches {a b : Bytes} (hv : validateArgs m .setFlag [a, b] = .ok args)
    (hp : packArguments m .setFlag args = .ok fields) :
    Layout.Matches (argLayout .setFlag) fields := by
  obtain ⟨f, hf, -, -, rfl⟩ := setFlag_accepted hv
  obtain rfl := pure_eq_ok.mp hp
  have hletter : ∀ f ∈ flags, UInt8.ofNat f.letter.toNat ∈ ascii "ABCDEFGHI" := by decide
  refine Layout.matches_cons ?_ (Layout.matches_singleton.mpr ⟨_, hletter f hf, rfl⟩)
  split_ifs
  · exact ⟨0x45, by decide, rfl⟩
  · exact ⟨0x44, by decide, rfl⟩

theorem setACOutputFreq_matches {a : Bytes} (hv : validateArgs m .setACOutputFreq [a] = .ok args)
    (hp : packArguments m .setACOutputFreq args = .ok fields) :
    Layout.Matches (argLayout .setACOutputFreq) fields := by
  obtain ⟨⟨t, ht, rfl⟩, rfl⟩ := setACOutputFreq_accepted hv
  have hread : ∃ z, stoi (ascii t) = .ok z ∧ 0 ≤ z ∧ z ≤ 60 := by
    simp only [List.mem_cons, List.not_mem_nil, or_false] at ht
    rcases ht with rfl | rfl
    · exact ⟨50, by decide, by decide, by decide⟩
    · exact ⟨60, by decide, by decide, by decide⟩
  obtain ⟨z, hz, h0, h60⟩ := hread
  exact Layout.matches_singleton.mpr
    (packInt_matches (by norm_num) hz hp h0 (by omega) (by omega))

theorem setACOutputVoltage_matches {a : Bytes}
    (hv : validateArgs m .setACOutputVoltage [a] = .ok args)
    (hp : packArguments m .setACOutputVoltage args = .ok fields) :
    Layout.Matches (argLayout .setACOutputVoltage) fields := by
  obtain ⟨v, hmem, hstou, rfl⟩ := setACOutputVoltage_accepted hv
  obtain ⟨z, hz, rfl⟩ := map_eq_ok.mp hp
  have hle : ∀ v ∈ acOutputVoltages, v ≤ 240 := by decide
  have hv240 := hle v hmem
  obtain rfl := stoi_of_stou hstou hz (by omega)
  exact Layout.matches_singleton.mpr
    ((zeroPad_intDecimal_matches_iff (by norm_num)).mpr ⟨by omega, by omega, by push_cast; omega⟩)

theorem setSolarConfig_matches {a : Bytes} (hv : validateArgs m .setSolarConfig [a] = .ok args)
    (hp : packArguments m .setSolarConfig args = .ok fields) :
    Layout.Matches (argLayout .setSolarConfig) fields := by
  obtain ⟨hnum, hlen, rfl⟩ := setSolarConfig_accepted hv
  obtain rfl := pure_eq_ok.mp hp
  have hdigits : AllDigits (a ++ List.replicate (20 - a.length) 0x30) :=
    allDigits_append.mpr ⟨(isNumeric_iff.mp hnum).2, fun b hb => by
      rw [List.eq_of_mem_replicate hb]
      rfl⟩
  have htotal : (a ++ List.replicate (20 - a.length) 0x30).length = 20 := by
    rw [List.length_append, List.length_replicate]
    omega
  have hval := numVal_lt_pow hdigits
  rw [htotal] at hval
  rw [List.append_assoc]
  exact Layout.matches_cons ((fixed_matches_iff (by norm_num)).mpr ⟨by
      simp only [List.getD_cons_zero]
      omega, hlen⟩)
    (Layout.matches_singleton.mpr ⟨htotal, hdigits, Nat.le_sub_one_of_lt hval⟩)

theorem setBatteryChargeThresholds_matches {a b : Bytes}
    (hv : validateArgs m .setBatteryChargeThresholds [a, b] = .ok args)
    (hp : packArguments m .setBatteryChargeThresholds args = .ok fields) :
    Layout.Matches (argLayout .setBatteryChargeThresholds) fields := by
  obtain ⟨cv, dv, hcv, hdv, hc, hd, rfl⟩ := setBatteryChargeThresholds_accepted hv
  obtain ⟨f1, f2, hf1, hf2, rfl⟩ := (twoVoltages_packed (.inr rfl)).mp hp
  obtain ⟨r, rfl, h0, h59⟩ := voltageListed_eq_ok voltages_lt.1 hc
  obtain ⟨r', rfl, h0', h59'⟩ := voltageListed_eq_ok voltages_lt.2 hd
  rw [List.append_assoc]
  exact Layout.matches_cons (packVoltage_matches hcv h0 h59 hf1) (Layout.matches_cons comma_matches
    (Layout.matches_singleton.mpr (packVoltage_matches hdv h0' h59' hf2)))

/-! ### Machine ids and voltages -/

theorem id_matches_iff {s : Bytes} : (Field.num 1 6).Matches s ↔ ∃ d, d ≤ 6 ∧ s = [digit d] := by
  constructor
  · intro h
    obtain ⟨d, hd, -, rfl⟩ := eq_digit_of_matches h
    exact ⟨d, hd, rfl⟩
  · rintro ⟨d, hd, rfl⟩
    exact digit_matches (by omega) hd

theorem id_comma_matches_iff {a f : Bytes} {l : Field} (hf : l.Matches f) :
    Layout.Matches [.num 1 6, comma, l] (a ++ ascii "," ++ f) ↔ ∃ d, d ≤ 6 ∧ a = [digit d] := by
  rw [← id_matches_iff, List.append_assoc]
  constructor
  · intro h
    have hlen := h.length_eq
    simp only [List.length_append, hf.length_eq, Layout.width, List.map_cons, List.map_nil,
      List.sum_cons, List.sum_nil, Field.width, comma_matches.length_eq] at hlen
    exact ((Layout.matches_append (by simp only [Field.width]; omega)).mp h).1
  · intro h
    exact Layout.matches_cons h
      (Layout.matches_cons comma_matches (Layout.matches_singleton.mpr hf))

theorem getParallel_matches_iff {c : CommandType}
    (hc : c = .getParallelRatedInformation ∨ c = .getParallelGeneralStatus) {a : Bytes}
    (hv : validateArgs m c [a] = .ok args) (hp : packArguments m c args = .ok fields) :
    Layout.Matches (argLayout c) fields ↔ ∃ d, d ≤ 6 ∧ args.getD 0 [] = [digit d] := by
  obtain ⟨hnum, hlen, rfl⟩ := getParallel_accepted hc hv
  have hp' : intDecimal <$> stoi a = .ok fields := by
    rcases hc with rfl | rfl <;> exact hp
  have hl : argLayout c = [.num 1 6] := by
    rcases hc with rfl | rfl <;> rfl
  obtain ⟨hread, hlt⟩ := stoi_of_isNumeric hnum hlen (by norm_num)
  -- the number is printed as the digit that was typed
  have hdigit : (Field.num 1 9).Matches a :=
    ⟨le_antisymm hlen (List.length_pos_of_ne_nil (isNumeric_iff.mp hnum).1),
      (isNumeric_iff.mp hnum).2, by omega⟩
  obtain ⟨d, -, hd, rfl⟩ := eq_digit_of_matches hdigit
  rw [hread] at hp'
  obtain rfl := Except.ok.inj hp'
  have hval : numVal [digit d] = d := by
    rw [← decimal_of_lt hd, numVal_decimal]
  have hprint : intDecimal (numVal [digit d] : ℤ) = [digit d] := by
    rw [hval, intDecimal, if_neg (by omega), Int.natAbs_natCast, decimal_of_lt hd]
  rw [hl, Layout.matches_singleton, hprint, id_matches_iff]
  rfl

theorem setBatteryMaxCurrent_matches_iff {c : CommandType}
    (hc : c = .setBatteryMaxChargeCurrent ∨ c = .setBatteryMaxACChargeCurrent) {a b : Bytes}
    (hv : validateArgs m c [a, b] = .ok args) (hp : packArguments m c args = .ok fields) :
    Layout.Matches (argLayout c) fields ↔ ∃ d, d ≤ 6 ∧ args.getD 0 [] = [digit d] := by
  obtain ⟨-, amps, -, hamps, -, hle, rfl⟩ := setBatteryMaxCurrent_accepted hc hv
  obtain ⟨f, hf, rfl⟩ := setBatteryMaxCurrent_packed hc hp
  have hl : argLayout c = [.num 1 6, comma, .num 3 999] := by
    rcases hc with rfl | rfl <;> rfl
  obtain ⟨z, hz, -⟩ := map_eq_ok.mp hf
  obtain rfl := stoi_of_stou hamps hz (by omega)
  rw [hl, id_comma_matches_iff
    (packInt_matches (by norm_num) hz hf (by omega) (by omega) (by exact_mod_cast hle))]
  rfl

theorem setChargeSourcePriority_matches_iff {a b : Bytes}
    (hv : validateArgs m .setChargeSourcePriority [a, b] = .ok args)
    (hp : packArguments m .setChargeSourcePriority args = .ok fields) :
    Layout.Matches (argLayout .setChargeSourcePriority) fields ↔
      ∃ d, d ≤ 6 ∧ args.getD 0 [] = [digit d] := by
  obtain ⟨-, index, -, -, hindex, rfl⟩ := setChargeSourcePriority_accepted hv
  obtain rfl := pure_eq_ok.mp hp
  exact id_comma_matches_iff (chooseIndex_matches hindex (by decide) (by decide))

theorem setOutputMode_matches_iff {a b : Bytes}
    (hv : validateArgs m .setOutputMode [a, b] = .ok args)
    (hp : packArguments m .setOutputMode args = .ok fields) :
    Layout.Matches (argLayout .setOutputMode) fields ↔
      ∃ d, d ≤ 6 ∧ args.getD 0 [] = [digit d] := by
  obtain ⟨-, index, -, -, hindex, rfl⟩ := setOutputMode_accepted hv
  obtain rfl := pure_eq_ok.mp hp
  exact id_comma_matches_iff (chooseIndex_matches hindex (by decide) (by decide))

theorem round_bounds : binary64.round 40.0 = .fin 40 ∧ binary64.round 48.0 = .fin 48 ∧
    binary64.round 58.4 = .fin (8219069319951155 / 140737488355328) := by
  decide +kernel

theorem range_48_58 {v : CFloat} {err : String} {u : Unit}
    (h : voltageIn v 48.0 58.4 err = .ok u) : v = .nan ∨ ∃ r, v = .fin r ∧ 0 ≤ r ∧ r < 59 := by
  refine (voltageIn_eq_ok round_bounds.2.1 round_bounds.2.2 h).imp_right ?_
  rintro ⟨r, rfl, h1, h2⟩
  exact ⟨r, rfl, by linarith, lt_of_le_of_lt h2 (by norm_num)⟩

theorem range_40_48 {v : CFloat} {err : String} {u : Unit}
    (h : voltageIn v 40.0 48.0 err = .ok u) : v = .nan ∨ ∃ r, v = .fin r ∧ 0 ≤ r ∧ r < 59 := by
  refine (voltageIn_eq_ok round_bounds.1 round_bounds.2.1 h).imp_right ?_
  rintro ⟨r, rfl, h1, h2⟩
  exact ⟨r, rfl, by linarith, by linarith⟩

theorem setBatteryMaxChargeVoltage_matches_iff {a b : Bytes}
    (hv : validateArgs m .setBatteryMaxChargeVoltage [a, b] = .ok args)
    (hp : packArguments m .setBatteryMaxChargeVoltage args = .ok fields) :
    Layout.Matches (argLayout .setBatteryMaxChargeVoltage) fields ↔
      ∀ v ∈ voltageArgs .setBatteryMaxChargeVoltage args, stod m v = .ok .nan →
        0 ≤ m.castInt .nan ∧ m.castInt .nan ≤ 999 := by
  obtain ⟨cv, fv, hcv, hfv, hc, hf, rfl⟩ := setBatteryMaxChargeVoltage_accepted hv
  obtain ⟨f1, f2, hf1, hf2, rfl⟩ := (twoVoltages_packed (.inl rfl)).mp hp
  have h1 := packVoltage_matches_iff hcv (range_48_58 hc) hf1
  have h2 := packVoltage_matches_iff hfv (range_48_58 hf) hf2
  simp only [voltageArgs, List.getD_cons_zero, List.getD_cons_succ, List.mem_cons,
    List.not_mem_nil, or_false, forall_eq_or_imp, forall_eq]
  rw [← h1, ← h2, List.append_assoc]
  constructor
  · intro h
    have hlen := h.length_eq
    have hlen1 := packVoltage_length hf1
    have hlen2 := packVoltage_length hf2
    simp only [argLayout, List.length_append, Layout.width, List.map_cons, List.map_nil,
      List.sum_cons, List.sum_nil, Field.width, comma_matches.length_eq] at hlen
    obtain ⟨h1, hrest⟩ := (Layout.matches_append (by simp only [Field.width]; omega)).mp h
    exact ⟨h1, Layout.matches_singleton.mp ((Layout.matches_append rfl).mp hrest).2⟩
  · rintro ⟨h1, h2⟩
    exact Layout.matches_cons h1
      (Layout.matches_cons comma_matches (Layout.matches_singleton.mpr h2))

theorem setBatteryCutOffVoltage_matches_iff {a : Bytes}
    (hv : validateArgs m .setBatteryCutOffVoltage [a] = .ok args)
    (hp : packArguments m .setBatteryCutOffVoltage args = .ok fields) :
    Layout.Matches (argLayout .setBatteryCutOffVoltage) fields ↔
      ∀ v ∈ voltageArgs .setBatteryCutOffVoltage args, stod m v = .ok .nan →
        0 ≤ m.castInt .nan ∧ m.castInt .nan ≤ 999 := by
  obtain ⟨v, hvr, hc, rfl⟩ := setBatteryCutOffVoltage_accepted hv
  simp only [voltageArgs, List.getD_cons_zero, List.mem_cons, List.not_mem_nil, or_false, forall_eq]
  rw [argLayout, Layout.matches_singleton]
  exact packVoltage_matches_iff hvr (range_40_48 hc) hp

theorem plainArgs_of_none {c : CommandType} (hid : takesId c = false)
    (hvolt : voltageArgs c args = []) : PlainArgs m c args :=
  ⟨fun h => by simp [hid] at h, fun v hv => by simp [hvolt] at hv⟩

theorem plainArgs_of_id {c : CommandType} (hvolt : voltageArgs c args = [])
    (h : ∃ d, d ≤ 6 ∧ args.getD 0 [] = [digit d]) : PlainArgs m c args :=
  ⟨fun _ => h, fun v hv => by simp [hvolt] at hv⟩

theorem iff_plainArgs_of_id {c : CommandType} {P : Prop} (hid : takesId c = true)
    (hvolt : voltageArgs c args = []) (h : P ↔ ∃ d, d ≤ 6 ∧ args.getD 0 [] = [digit d]) :
    P ↔ PlainArgs m c args :=
  ⟨fun hP => plainArgs_of_id hvolt (h.mp hP), fun hplain => h.mpr (hplain.id_eq hid)⟩

theorem iff_plainArgs_of_voltage {c : CommandType} {P : Prop} (hid : takesId c = false)
    (h : P ↔ ∀ v ∈ voltageArgs c args, stod m v = .ok .nan →
      0 ≤ m.castInt .nan ∧ m.castInt .nan ≤ 999) : P ↔ PlainArgs m c args :=
  ⟨fun hP => ⟨fun ht => by simp [hid] at ht, h.mp hP⟩, fun hplain => h.mpr hplain.not_nan⟩

/-- **The argument field.**  For every command, what `packArguments` makes of accepted arguments
matches the layout of the command exactly when they are plain. -/
theorem fields_matches_iff {c : CommandType} {given : List Bytes}
    (hcount : ∀ n, argCount c = some n → given.length = n)
    (hv : validateArgs m c given = .ok args) (hp : packArguments m c args = .ok fields) :
    Layout.Matches (argLayout c) fields ↔ PlainArgs m c args := by
  cases c
  case getYearGenerated =>
    obtain ⟨y, rfl⟩ := List.length_eq_one_iff.mp (hcount 1 rfl)
    exact iff_of_true (getYearGenerated_matches hv hp) (plainArgs_of_none rfl rfl)
  case getMonthGenerated =>
    obtain ⟨y, mo, rfl⟩ := List.length_eq_two.mp (hcount 2 rfl)
    exact iff_of_true (getMonthGenerated_matches hv hp) (plainArgs_of_none rfl rfl)
  case getDayGenerated =>
    obtain ⟨y, mo, d, rfl⟩ := List.length_eq_three.mp (hcount 3 rfl)
    exact iff_of_true (getDayGenerated_matches hv hp) (plainArgs_of_none rfl rfl)
  case getParallelRatedInformation =>
    obtain ⟨a, rfl⟩ := List.length_eq_one_iff.mp (hcount 1 rfl)
    exact iff_plainArgs_of_id rfl rfl (getParallel_matches_iff (.inl rfl) hv hp)
  case getParallelGeneralStatus =>
    obtain ⟨a, rfl⟩ := List.length_eq_one_iff.mp (hcount 1 rfl)
    exact iff_plainArgs_of_id rfl rfl (getParallel_matches_iff (.inr rfl) hv hp)
  case setACSupply =>
    obtain ⟨a, rfl⟩ := List.length_eq_one_iff.mp (hcount 1 rfl)
    exact iff_of_true (setACSupply_matches hv hp) (plainArgs_of_none rfl rfl)
  case setFlag =>
    obtain ⟨a, b, rfl⟩ := List.length_eq_two.mp (hcount 2 rfl)
    exact iff_of_true (setFlag_matches hv hp) (plainArgs_of_none rfl rfl)
  case setBatteryMaxChargeCurrent =>
    obtain ⟨a, b, rfl⟩ := List.length_eq_two.mp (hcount 2 rfl)
    exact iff_plainArgs_of_id rfl rfl (setBatteryMaxCurrent_matches_iff (.inl rfl) hv hp)
  case setBatteryMaxACChargeCurrent =>
    obtain ⟨a, b, rfl⟩ := List.length_eq_two.mp (hcount 2 rfl)
    exact iff_plainArgs_of_id rfl rfl (setBatteryMaxCurrent_matches_iff (.inr rfl) hv hp)
  case setACOutputFreq =>
    obtain ⟨a, rfl⟩ := List.length_eq_one_iff.mp (hcount 1 rfl)
    exact iff_of_true (setACOutputFreq_matches hv hp) (plainArgs_of_none rfl rfl)
  case setBatteryMaxChargeVoltage =>
    obtain ⟨a, b, rfl⟩ := List.length_eq_two.mp (hcount 2 rfl)
    exact iff_plainArgs_of_voltage rfl (setBatteryMaxChargeVoltage_matches_iff hv hp)
  case setACOutputVoltage =>
    obtain ⟨a, rfl⟩ := List.length_eq_one_iff.mp (hcount 1 rfl)
    exact iff_of_true (setACOutputVoltage_matches hv hp) (plainArgs_of_none rfl rfl)
  case setOutputSourcePriority =>
    obtain ⟨a, rfl⟩ := List.length_eq_one_iff.mp (hcount 1 rfl)
    exact iff_of_true (chosen_matches hv hp (by decide) (by decide)) (plainArgs_of_none rfl rfl)
  case setBatteryChargeThresholds =>
    obtain ⟨a, b, rfl⟩ := List.length_eq_two.mp (hcount 2 rfl)
    exact iff_of_true (setBatteryChargeThresholds_matches hv hp) (plainArgs_of_none rfl rfl)
  case setChargeSourcePriority =>
    obtain ⟨a, b, rfl⟩ := List.length_eq_two.mp (hcount 2 rfl)
    exact iff_plainArgs_of_id rfl rfl (setChargeSourcePriority_matches_iff hv hp)
  case setSolarPowerPriority =>
    obtain ⟨a, rfl⟩ := List.length_eq_one_iff.mp (hcount 1 rfl)
    exact iff_of_true (chosen_matches hv hp (by decide) (by decide)) (plainArgs_of_none rfl rfl)
  case setACInputVoltageRange =>
    obtain ⟨a, rfl⟩ := List.length_eq_one_iff.mp (hcount 1 rfl)
    exact iff_of_true (chosen_matches hv hp (by decide) (by decide)) (plainArgs_of_none rfl rfl)
  case setBatteryType =>
    obtain ⟨a, rfl⟩ := List.length_eq_one_iff.mp (hcount 1 rfl)
    exact iff_of_true (chosen_matches hv hp (by decide) (by decide)) (plainArgs_of_none rfl rfl)
  case setOutputMode =>
    obtain ⟨a, b, rfl⟩ := List.length_eq_two.mp (hcount 2 rfl)
    exact iff_plainArgs_of_id rfl rfl (setOutputMode_matches_iff hv hp)
  case setBatteryCutOffVoltage =>
    obtain ⟨a, rfl⟩ := List.length_eq_one_iff.mp (hcount 1 rfl)
    exact iff_plainArgs_of_voltage rfl (setBatteryCutOffVoltage_matches_iff hv hp)
  case setSolarConfig =>
    obtain ⟨a, rfl⟩ := List.length_eq_one_iff.mp (hcount 1 rfl)
    exact iff_of_true (setSolarConfig_matches hv hp) (plainArgs_of_none rfl rfl)
  case setDateTime =>
    obtain ⟨y, mo, d, h, mi, s, rfl⟩ := exists_of_length_six (hcount 6 rfl)
    exact iff_of_true (setDateTime_matches hv hp) (plainArgs_of_none rfl rfl)
  case setACChargeTimeBucket =>
    obtain ⟨a, b, rfl⟩ := List.length_eq_two.mp (hcount 2 rfl)
    exact iff_of_true (timeBucket_matches (.inl rfl) hv hp) (plainArgs_of_none rfl rfl)
  case setACSupplyTimeBucket =>
    obtain ⟨a, b, rfl⟩ := List.length_eq_two.mp (hcount 2 rfl)
    exact iff_of_true (timeBucket_matches (.inr rfl) hv hp) (plainArgs_of_none rfl rfl)
  -- the commands without arguments
  all_goals exact iff_of_true (pure_eq_ok.mp hp).symm (plainArgs_of_none rfl rfl)

end

/-! ### The frame on the wire -/

/-- A well-formed request for a command: `^`, the letter, three digits that count the bytes behind
them, the raw command, its argument field, the checksum of all that and a carriage return. -/
def WellFormedRequest (c : CommandType) (wire : Bytes) : Prop :=
  ∃ len raw fields, wire = Device.frame defaultFlags
      (ascii "^" ++ commandLetter c ++ len ++ raw ++ fields) ∧
    len.length = 3 ∧ AllDigits len ∧ numVal len = raw.length + fields.length + 2 + 1 ∧
    rawCommand c = some raw ∧ Layout.Matches (argLayout c) fields

theorem frame_inj {flags : Flags} {p q : Bytes}
    (h : Device.frame flags p = Device.frame flags q) : p = q := by
  have hlen := congrArg List.length h
  unfold Device.frame at h hlen
  split_ifs at h hlen
  · simp only [List.append_assoc] at h
    exact (List.append_inj h (by simpa [crcWrite] using hlen)).1
  · exact List.append_cancel_right h

theorem argLayout_width_le (c : CommandType) : (argLayout c).width ≤ 22 := by
  cases c <;> decide

/-- A packed request is well formed exactly when its argument field is: only a field that fits the
layout leaves the length three digits. -/
theorem wellFormedRequest_iff {c : CommandType} {raw fields : Bytes}
    (hraw : rawCommand c = some raw) :
    WellFormedRequest c (Device.frame defaultFlags (ascii "^" ++ commandLetter c ++
      fixed 3 (3 + raw.length + fields.length) ++ raw ++ fields)) ↔
        Layout.Matches (argLayout c) fields := by
  constructor
  · rintro ⟨len, raw', fields', heq, hlen, hdigits, hval, hraw', hmatch⟩
    obtain rfl := Option.some.inj (hraw.symm.trans hraw')
    have heq := frame_inj heq
    simp only [List.append_assoc] at heq
    rw [← List.append_assoc, ← List.append_assoc (ascii "^")] at heq
    have htail := (List.append_inj heq rfl).2
    -- the length field counts everything behind it, so it has three digits in both readings
    have hcount := congrArg List.length htail
    have hge := fixed_length_ge 3 (3 + raw.length + fields.length)
    have hlt := numVal_lt_pow hdigits
    rw [hlen] at hlt
    simp only [List.length_append] at hcount
    have hfixed := (fixed_spec (w := 3) (n := 3 + raw.length + fields.length) (by norm_num)
      (by omega)).1
    have hrest := (List.append_inj htail (by rw [hfixed, hlen])).2
    rwa [← List.append_cancel_left hrest] at hmatch
  · intro hmatch
    have hraw7 : raw.length ≤ 7 := by
      obtain ⟨raw', hraw', -, hle⟩ := exists_rawCommand c
      obtain rfl := Option.some.inj (hraw.symm.trans hraw')
      exact hle
    have hwidth := hmatch.length_eq
    have hle := argLayout_width_le c
    obtain ⟨h1, h2, h3⟩ := fixed_spec (w := 3) (n := 3 + raw.length + fields.length)
      (by norm_num) (by omega)
    exact ⟨_, raw, fields, rfl, h1, h2, by rw [h3]; omega, hraw, hmatch⟩

/-- **Which accepted requests are sent as well-formed frames.**  For every command and every list
of arguments that `validate_input` accepts: the frame that `Client::execute` sends with the default
flags is well formed if and only if the machine id, where there is one, was typed as one digit from
0 to 6 and no checked voltage is `nan`. -/
theorem packed_wellFormed_iff (m : Machine) (command : Bytes) (argv : List Bytes) {c : CommandType}
    {args : List Bytes} {packed : Bytes}
    (hv : validateInput m (getArgs argv) command = .ok (c, args))
    (hp : packRequest m c args = .ok packed) :
    WellFormedRequest c (Device.frame defaultFlags packed) ↔ PlainArgs m c args := by
  obtain ⟨-, given, hgiven, hvalid⟩ := validateInput_eq_ok.mp hv
  have hcount : ∀ n, argCount c = some n → given.length = n := fun n hn => by
    simp only [givenArgs, hn] at hgiven
    exact (getArgs_length hgiven).1
  obtain ⟨raw, fields, hraw, hfields, rfl⟩ := packRequest_eq_ok.mp hp
  rw [wellFormedRequest_iff hraw, fields_matches_iff hcount hvalid hfields]

/-- `set-output-mode 1 P` is sent as `^S010POPM1,1`. -/
theorem packed_wellFormed_output_mode :
    WellFormedRequest .setOutputMode (Device.frame defaultFlags (ascii "^S010POPM1,1")) :=
  (packed_wellFormed_iff x86 (ascii "set-output-mode") [ascii "1", ascii "P"]
    (show _ = Except.ok (.setOutputMode, [ascii "1", ascii "1"]) by decide)
    (by decide)).mpr
    ⟨fun _ => ⟨1, by decide, rfl⟩, fun v hv => by simp [voltageArgs] at hv⟩

/-- `set-output-mode 1abc S` is accepted and sent as `^S013POPM1abc,0`. -/
theorem packed_not_wellFormed : ¬ ∀ (m : Machine) (command : Bytes) (argv : List Bytes)
    (c : CommandType) (args : List Bytes) (packed : Bytes),
    validateInput m (getArgs argv) command = .ok (c, args) → packRequest m c args = .ok packed →
    WellFormedRequest c (Device.frame defaultFlags packed) := fun h => by
  have hwf := h x86 (ascii "set-output-mode") [ascii "1abc", ascii "S"] .setOutputMode
    [ascii "1abc", ascii "0"] (ascii "^S013POPM1abc,0") (by decide) (by decide)
  have hmatch := (@wellFormedRequest_iff .setOutputMode (ascii "POPM") (ascii "1abc,0") rfl).mp hwf
  exact absurd hmatch.length_eq (by decide)

end InverterTools.P18
