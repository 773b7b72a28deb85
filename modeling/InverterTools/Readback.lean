import InverterTools.Encoding

/-! # Reading requests back

`readRequest` is a receiver of request texts: it finds the command by its raw name, the longer names
first, and cuts the argument field at the places the protocol gives.  It reads back what was sent
(`readRequest_packed`): the arguments as `validate_input` has left them, with the words of a choice
and the names of the flags for their numbers and letters. -/

namespace InverterTools.P18

/-- A parameter of a request: a number (a voltage in tenths of a volt), or a text. -/
inductive Param where
  | int (z : ℤ)
  | text (s : Bytes)
deriving DecidableEq, Repr

/-- The value of an argument that is a number. -/
def intParam (arg : Bytes) : Param := .int ((stoi arg).toOption.getD 0)

/-- A machine id goes out as it stands: the number it begins with. -/
def idParam (arg : Bytes) : Param := .int ((intValue arg).getD 0)

/-- What is sent for a voltage. -/
def sentVoltage (m : Machine) (arg : Bytes) : Param :=
  .int (((fun v => m.roundInt (timesTen v)) <$> stod m arg).toOption.getD 0)

/-- The words of a choice, in the order of their numbers. -/
def choices : CommandType → List String
  | .setOutputSourcePriority => ["SUB", "SBU"]
  | .setChargeSourcePriority => ["SF", "SU", "S"]
  | .setSolarPowerPriority => ["BLU", "LBU"]
  | .setACInputVoltageRange => ["APPLIANCE", "UPS"]
  | .setBatteryType => ["AGM", "FLOODED", "USER"]
  | .setOutputMode => ["S", "P", "1", "2", "3"]
  | _ => []

/-- The word that a number stands for. -/
def wordParam (c : CommandType) : Param → Param
  | .int i => .text (ascii ((choices c).getD i.toNat ""))
  | p => p

/-- The flag that a letter stands for. -/
def flagParam (letter : Bytes) : Param :=
  .text ((flags.find? fun f => [UInt8.ofNat f.letter.toNat] == letter).elim [] fun f =>
    ascii f.flag)

/-- The parameters that are sent, from the arguments as `validate_input` leaves them. -/
def sentParameters (m : Machine) (c : CommandType) (args : List Bytes) : List Param :=
  let arg := fun i => args.getD i []
  match c with
  | .setFlag => [flagParam (arg 0), intParam (arg 1)]
  | .setBatteryMaxChargeCurrent | .setBatteryMaxACChargeCurrent =>
      [idParam (arg 0), intParam (arg 1)]
  | .setChargeSourcePriority | .setOutputMode =>
      [idParam (arg 0), wordParam c (intParam (arg 1))]
  | .setOutputSourcePriority | .setSolarPowerPriority | .setACInputVoltageRange
  | .setBatteryType => [wordParam c (intParam (arg 0))]
  | .setBatteryMaxChargeVoltage | .setBatteryChargeThresholds =>
      [sentVoltage m (arg 0), sentVoltage m (arg 1)]
  | .setBatteryCutOffVoltage => [sentVoltage m (arg 0)]
  | .setSolarConfig => [.text (arg 0)]
  | _ => args.map intParam

/-- The parameters in an argument field. -/
def readFields (c : CommandType) (s : Bytes) : List Param :=
  match c with
  | .getYearGenerated | .getParallelRatedInformation | .getParallelGeneralStatus | .setACSupply
  | .setACOutputFreq | .setBatteryCutOffVoltage => [.int (fieldInt s)]
  | .setOutputSourcePriority | .setSolarPowerPriority | .setACInputVoltageRange
  | .setBatteryType => [wordParam c (.int (fieldInt s))]
  | .getMonthGenerated => (cutInts [4, 2] s).map .int
  | .getDayGenerated => (cutInts [4, 2, 2] s).map .int
  | .setFlag => [flagParam (s.drop 1), .int (if s.head? = some 0x45 then 1 else 0)]
  | .setBatteryMaxChargeCurrent | .setBatteryMaxACChargeCurrent =>
      [idParam (s.take (s.length - 4)), .int (fieldInt (s.drop (s.length - 3)))]
  | .setChargeSourcePriority | .setOutputMode =>
      [idParam (s.take (s.length - 2)), wordParam c (.int (fieldInt (s.drop (s.length - 1))))]
  | .setBatteryMaxChargeVoltage | .setBatteryChargeThresholds =>
      [.int (fieldInt (s.takeWhile (· != 0x2C))), .int (fieldInt (s.dropWhile (· != 0x2C)).tail)]
  | .setACOutputVoltage => [.int (fieldInt s / 10)]
  | .setSolarConfig => [.text ((s.drop 2).take (numVal (s.take 2)))]
  | .setDateTime => .int (fieldInt (s.take 2) + 2000) ::
      (cutInts [2, 2, 2, 2, 2] (s.drop 2)).map .int
  | .setACChargeTimeBucket | .setACSupplyTimeBucket =>
      (cutInts [2, 2] s ++ cutInts [2, 2] (s.drop 5)).map .int
  | _ => []

open CommandType in
/-- The commands whose raw names come first: they start with the name of another one. -/
def longNames : List CommandType :=
  [getRatedInformation, setOutputMode, setDefaults, setOutputSourcePriority,
    setChargeSourcePriority, setSolarPowerPriority, setACInputVoltageRange, setBatteryType,
    setBatteryCutOffVoltage]

/-- The command at the head of a text, among the get or the set commands. -/
def readCommand (isSet : Bool) (s : Bytes) : Option CommandType :=
  (longNames ++ rawCommands.map Prod.fst).find? fun c =>
    c.isSet == isSet && ((rawCommand c).getD []).isPrefixOf s

/-- What a receiver makes of a request text: the letter, the length, the raw command and its
argument field. -/
def readRequest (packed : Bytes) : Option (CommandType × List Param) := do
  let text := (packed.drop 2).dropWhile isDigit
  let c ← readCommand ((packed.drop 1).head? == some 0x53) text
  pure (c, readFields c (text.drop ((rawCommand c).getD []).length))

/-! ### The command -/

/-- A raw command that no other one starts with, or whose argument field tells it apart. -/
theorem readCommand_raw {c : CommandType} {raw fields : Bytes} (hraw : rawCommand c = some raw)
    (hfields : (c = .getProtocolID → fields = []) ∧
      (c = .setFlag → fields.head? = some 0x45 ∨ fields.head? = some 0x44) ∧
      (c = .setOutputSourcePriority → ∀ b ∈ fields.head?, isDigit b = true)) :
    readCommand c.isSet (raw ++ fields) = some c := by
  cases c
  all_goals obtain rfl := Option.some.inj hraw
  case getProtocolID =>
    rw [hfields.1 rfl]
    decide
  case setFlag =>
    cases fields with
    | nil => simp at hfields
    | cons b fields =>
        rcases hfields.2.1 rfl with h | h
        · obtain rfl := Option.some.inj h
          rfl
        · obtain rfl := Option.some.inj h
          rfl
  case setOutputSourcePriority =>
    cases fields with
    | nil => decide
    | cons b fields =>
        have hb : (0x4D == b) = false := by
          rw [beq_eq_false_iff_ne]
          rintro rfl
          exact absurd (hfields.2.2 rfl _ rfl) (by decide)
        have hlong : (ascii "POPM").isPrefixOf (ascii "POP" ++ b :: fields) = false := by
          show (0x4D == b && true) = false
          rw [hb]
          rfl
        refine List.find?_eq_some_iff_append.mpr ⟨rfl,
          [.getRatedInformation, .setOutputMode, .setDefaults], _, rfl, fun d hd => ?_⟩
        simp only [List.mem_cons, List.not_mem_nil, or_false] at hd
        rcases hd with rfl | rfl | rfl
        · rfl
        · show (!(true && (ascii "POPM").isPrefixOf (ascii "POP" ++ b :: fields))) = true
          rw [hlong]
          rfl
        · rfl
  all_goals rfl

/-! ### The argument field -/

theorem intParam_eq {arg : Bytes} {z : ℤ} (h : stoi arg = .ok z) : intParam arg = .int z := by
  rw [intParam, h]
  rfl

theorem intParam_of_packInt {w : ℕ} {arg f : Bytes} (h : packInt w arg = .ok f) :
    Param.int (fieldInt f) = intParam arg := by
  obtain ⟨z, hz, rfl⟩ := map_eq_ok.mp h
  rw [fixedInt, fieldInt_zeroPad, intParam_eq hz]

theorem intParam_of_isNumeric {arg : Bytes} (h : isNumeric arg = true) (hlen : arg.length ≤ 9) :
    Param.int (fieldInt arg) = intParam arg := by
  rw [intParam_eq (stoi_of_isNumeric h hlen le_rfl).1,
    fieldInt_of_allDigits (isNumeric_iff.mp h).2]

theorem sentVoltage_of_packVoltage {m : Machine} {arg f : Bytes} (h : packVoltage m arg = .ok f) :
    Param.int (fieldInt f) = sentVoltage m arg := by
  obtain ⟨v, hv, rfl⟩ := map_eq_ok.mp h
  rw [fixedInt, fieldInt_zeroPad, sentVoltage, hv]
  rfl

section

variable {m : Machine} {args : List Bytes} {fields : Bytes}

theorem year_read {y : Bytes} {mo d : Option Bytes} {u : Unit}
    (h : validateDateArgs y mo d = .ok u) :
    y.length = 4 ∧ Param.int (fieldInt y) = intParam y := by
  obtain ⟨⟨hnum, hlen⟩, -⟩ := validateDateArgs_eq_ok h
  exact ⟨hlen, intParam_of_isNumeric hnum (by omega)⟩

theorem packInt_two {lo hi z : ℤ} {err : String} {arg f : Bytes}
    (hz : twoDigits lo hi err (some arg) = .ok z) (hlo : 0 ≤ lo) (hhi : hi ≤ 99)
    (hf : packInt 2 arg = .ok f) : f.length = 2 ∧ Param.int (fieldInt f) = intParam arg := by
  obtain ⟨hz, h1, h2⟩ := twoDigits_eq_ok hz
  have hmatch : (Field.num 2 99).Matches f :=
    packInt_matches (by norm_num) hz hf (by omega) (by omega) (by push_cast; omega)
  exact ⟨hmatch.length_eq, intParam_of_packInt hf⟩

theorem getYearGenerated_read {y : Bytes} (hv : validateArgs m .getYearGenerated [y] = .ok args)
    (hp : packArguments m .getYearGenerated args = .ok fields) :
    readFields .getYearGenerated fields = sentParameters m .getYearGenerated args := by
  obtain ⟨hdate, rfl⟩ := getYearGenerated_accepted hv
  obtain rfl := pure_eq_ok.mp hp
  exact congrArg (fun p => [p]) (year_read hdate).2

theorem getMonthGenerated_read {y mo : Bytes}
    (hv : validateArgs m .getMonthGenerated [y, mo] = .ok args)
    (hp : packArguments m .getMonthGenerated args = .ok fields) :
    readFields .getMonthGenerated fields = sentParameters m .getMonthGenerated args := by
  obtain ⟨hdate, rfl⟩ := getMonthGenerated_accepted hv
  obtain ⟨month, hmonth, rfl⟩ := getMonthGenerated_packed hp
  obtain ⟨hlen, hyear⟩ := year_read hdate
  obtain ⟨-, -, ⟨z, hz⟩, -⟩ := validateDateArgs_eq_ok hdate
  obtain ⟨hlen', hread⟩ := packInt_two hz (by norm_num) (by norm_num) hmonth
  show (cutInts [4, 2] (y ++ month)).map Param.int = _
  rw [cutInts_cons hlen, cutInts_singleton hlen']
  exact congrArg₂ (fun p q => [p, q]) hyear hread

theorem getDayGenerated_read {y mo d : Bytes}
    (hv : validateArgs m .getDayGenerated [y, mo, d] = .ok args)
    (hp : packArguments m .getDayGenerated args = .ok fields) :
    readFields .getDayGenerated fields = sentParameters m .getDayGenerated args := by
  obtain ⟨hdate, rfl⟩ := getDayGenerated_accepted hv
  obtain ⟨month, day, hmonth, hday, rfl⟩ := getDayGenerated_packed hp
  obtain ⟨hlen, hyear⟩ := year_read hdate
  obtain ⟨-, -, ⟨z, hz⟩, z', hz'⟩ := validateDateArgs_eq_ok hdate
  obtain ⟨hlen1, hread1⟩ := packInt_two hz (by norm_num) (by norm_num) hmonth
  obtain ⟨hlen2, hread2⟩ := packInt_two hz' (by norm_num) (by norm_num) hday
  show (cutInts [4, 2, 2] (y ++ month ++ day)).map Param.int = _
  rw [List.append_assoc, cutInts_cons hlen, cutInts_cons hlen1, cutInts_singleton hlen2]
  show [_, _, _] = [_, _, _]
  rw [hyear, hread1, hread2]

theorem packDatePart_two {i : ℕ} {z : ℤ} {arg f : Bytes} (hi : i ≠ 0) (hz : stoi arg = .ok z)
    (h0 : 0 ≤ z) (h99 : z ≤ 99) (hf : packDatePart i arg = .ok f) :
    f.length = 2 ∧ Param.int (fieldInt f) = intParam arg := by
  have hmatch : (Field.num 2 99).Matches f :=
    packDatePart_matches hi hz hf h0 (by omega) (by push_cast; omega)
  rw [packDatePart, hz] at hf
  obtain rfl := Except.ok.inj hf
  refine ⟨hmatch.length_eq, ?_⟩
  show Param.int (fieldInt (fixedInt 2 (if i = 0 then z - 2000 else z))) = _
  rw [if_neg hi, fixedInt, fieldInt_zeroPad, intParam_eq hz]

theorem packDatePart_year {z : ℤ} {arg f : Bytes} (hz : stoi arg = .ok z) (h1 : 2000 ≤ z)
    (h2 : z ≤ 2099) (hf : packDatePart 0 arg = .ok f) :
    f.length = 2 ∧ Param.int (fieldInt f + 2000) = intParam arg := by
  rw [packDatePart, hz] at hf
  obtain rfl := Except.ok.inj hf
  have hmatch : (Field.num 2 99).Matches (zeroPad 2 (intDecimal (z - 2000))) :=
    (zeroPad_intDecimal_matches_iff (by norm_num)).mpr ⟨by omega, by omega, by push_cast; omega⟩
  refine ⟨hmatch.length_eq, ?_⟩
  show Param.int (fieldInt (zeroPad 2 (intDecimal (z - 2000))) + 2000) = _
  rw [fieldInt_zeroPad, intParam_eq hz, sub_add_cancel]

theorem setDateTime_read {y mo d h mi s : Bytes}
    (hv : validateArgs m .setDateTime [y, mo, d, h, mi, s] = .ok args)
    (hp : packArguments m .setDateTime args = .ok fields) :
    readFields .setDateTime fields = sentParameters m .setDateTime args := by
  obtain ⟨hdate, hh, hmi, hs, rfl⟩ := setDateTime_accepted hv
  obtain ⟨year, month, day, hour, minute, second, hyear, hmonth, hday, hhour, hminute, hsecond,
    rfl⟩ := setDateTime_packed.mp hp
  obtain ⟨-, ⟨zy, hzy, hy1, hy2⟩, ⟨zm, hzm⟩, zd, hzd⟩ := validateDateArgs_eq_ok hdate
  obtain ⟨hzm, hm1, hm2⟩ := twoDigits_eq_ok hzm
  obtain ⟨hzd, hd1, hd2⟩ := twoDigits_eq_ok hzd
  obtain ⟨nh, hnh, -, hh2⟩ := validateClockArg_eq_ok hh
  obtain ⟨nmi, hnmi, -, hmi2⟩ := validateClockArg_eq_ok hmi
  obtain ⟨ns, hns, -, hs2⟩ := validateClockArg_eq_ok hs
  obtain ⟨hlen0, hread0⟩ := packDatePart_year hzy hy1 hy2 hyear
  obtain ⟨hlen1, hread1⟩ := packDatePart_two (by decide) hzm (by omega) (by omega) hmonth
  obtain ⟨hlen2, hread2⟩ := packDatePart_two (by decide) hzd (by omega) (by omega) hday
  obtain ⟨hlen3, hread3⟩ := packDatePart_two (by decide) hnh (by omega) (by omega) hhour
  obtain ⟨hlen4, hread4⟩ := packDatePart_two (by decide) hnmi (by omega) (by omega) hminute
  obtain ⟨hlen5, hread5⟩ := packDatePart_two (by decide) hns (by omega) (by omega) hsecond
  show Param.int (fieldInt (List.take 2 _) + 2000) ::
    (cutInts [2, 2, 2, 2, 2] (List.drop 2 _)).map Param.int = _
  simp only [List.append_assoc]
  rw [List.take_left' hlen0, List.drop_left' hlen0, cutInts_cons hlen1, cutInts_cons hlen2,
    cutInts_cons hlen3, cutInts_cons hlen4, cutInts_singleton hlen5]
  show [_, _, _, _, _, _] = [_, _, _, _, _, _]
  rw [hread0, hread1, hread2, hread3, hread4, hread5]

theorem packInt_decimal_two {n : ℕ} {f : Bytes} (h : n < 100) (hf : packInt 2 (decimal n) = .ok f) :
    f.length = 2 ∧ Param.int (fieldInt f) = intParam (decimal n) :=
  ⟨(packInt_decimal_matches (Nat.le_of_lt_succ h) (by norm_num) hf).length_eq,
    intParam_of_packInt hf⟩

theorem timeBucket_read {c : CommandType}
    (hc : c = .setACChargeTimeBucket ∨ c = .setACSupplyTimeBucket) {start stop : Bytes}
    (hv : validateArgs m c [start, stop] = .ok args) (hp : packArguments m c args = .ok fields) :
    readFields c fields = sentParameters m c args := by
  obtain ⟨h1, m1, h2, m2, ⟨hh1, hm1, hh2, hm2⟩, rfl, f1, f2, f3, f4, hf1, hf2, hf3, hf4, rfl⟩ :=
    timeBucket_packed hc hv hp
  obtain ⟨hlen1, hread1⟩ := packInt_decimal_two (by omega) hf1
  obtain ⟨hlen2, hread2⟩ := packInt_decimal_two (by omega) hf2
  obtain ⟨hlen3, hread3⟩ := packInt_decimal_two (by omega) hf3
  obtain ⟨hlen4, hread4⟩ := packInt_decimal_two (by omega) hf4
  have hstart : cutInts [2, 2] (f1 ++ f2 ++ ascii "," ++ f3 ++ f4) =
      [fieldInt f1, fieldInt f2] := by
    simp only [List.append_assoc]
    rw [cutInts_cons hlen1, cutInts, List.take_left' hlen2, cutInts]
  have hstop : cutInts [2, 2] ((f1 ++ f2 ++ ascii "," ++ f3 ++ f4).drop 5) =
      [fieldInt f3, fieldInt f4] := by
    have hlen : (f1 ++ f2 ++ ascii ",").length = 5 := by
      rw [List.length_append, List.length_append, hlen1, hlen2]
      rfl
    rw [List.append_assoc (f1 ++ f2 ++ ascii ","), List.drop_left' hlen, cutInts_cons hlen3,
      cutInts_singleton hlen4]
  have hread : readFields c (f1 ++ f2 ++ ascii "," ++ f3 ++ f4) =
      [.int (fieldInt f1), .int (fieldInt f2), .int (fieldInt f3), .int (fieldInt f4)] := by
    rcases hc with rfl | rfl <;>
    · show (cutInts [2, 2] _ ++ cutInts [2, 2] (List.drop 5 _)).map Param.int = _
      rw [hstart, hstop]
      rfl
  rw [hread, hread1, hread2, hread3, hread4]
  rcases hc with rfl | rfl <;> rfl

/-! A single number. -/

theorem chosen_read {c : CommandType} {a : Bytes} {allowed : List String} {err : String}
    (hv : (chooseIndex allowed a err >>= fun index => pure ([a].set 0 index)) = .ok args)
    (hp : (pure (args.getD 0 []) : Except Exn Bytes) = .ok fields)
    (hlen : allowed.length ≤ 10) :
    [wordParam c (.int (fieldInt fields))] = [wordParam c (intParam (args.getD 0 []))] := by
  obtain ⟨index, hindex, hargs⟩ := bind_eq_ok.mp hv
  obtain rfl := pure_eq_ok.mp hargs
  obtain rfl := pure_eq_ok.mp hp
  have hmatch : (Field.num 1 9).Matches index :=
    chooseIndex_matches hindex (by omega) (by norm_num)
  have hnum : isNumeric index = true :=
    isNumeric_iff.mpr ⟨List.ne_nil_of_length_pos (by rw [hmatch.1]; norm_num), hmatch.2.1⟩
  have hlen9 : index.length ≤ 9 := hmatch.1.trans_le (by norm_num)
  exact congrArg (fun p => [wordParam c p]) (intParam_of_isNumeric hnum hlen9)

theorem setACSupply_read {a : Bytes} (hv : validateArgs m .setACSupply [a] = .ok args)
    (hp : packArguments m .setACSupply args = .ok fields) :
    readFields .setACSupply fields = sentParameters m .setACSupply args := by
  obtain ⟨⟨t, ht, rfl⟩, rfl⟩ := setACSupply_accepted hv
  obtain rfl := pure_eq_ok.mp hp
  simp only [List.mem_cons, List.not_mem_nil, or_false] at ht
  rcases ht with rfl | rfl <;> rfl

theorem setACOutputFreq_read {a : Bytes} (hv : validateArgs m .setACOutputFreq [a] = .ok args)
    (hp : packArguments m .setACOutputFreq args = .ok fields) :
    readFields .setACOutputFreq fields = sentParameters m .setACOutputFreq args := by
  obtain ⟨-, rfl⟩ := setACOutputFreq_accepted hv
  exact congrArg (fun p => [p]) (intParam_of_packInt hp)

theorem getParallel_read {c : CommandType}
    (hc : c = .getParallelRatedInformation ∨ c = .getParallelGeneralStatus) {a : Bytes}
    (hv : validateArgs m c [a] = .ok args) (hp : packArguments m c args = .ok fields) :
    readFields c fields = sentParameters m c args := by
  obtain ⟨-, -, rfl⟩ := getParallel_accepted hc hv
  have hp' : intDecimal <$> stoi a = .ok fields := by
    rcases hc with rfl | rfl <;> exact hp
  obtain ⟨z, hz, rfl⟩ := map_eq_ok.mp hp'
  have hzero : zeroPad 0 (intDecimal z) = intDecimal z := by
    rw [zeroPad, Nat.zero_sub]
    rfl
  have hread : Param.int (fieldInt (intDecimal z)) = intParam a := by
    rw [← hzero, fieldInt_zeroPad, intParam_eq hz]
  rcases hc with rfl | rfl <;> exact congrArg (fun p => [p]) hread

theorem setACOutputVoltage_read {a : Bytes}
    (hv : validateArgs m .setACOutputVoltage [a] = .ok args)
    (hp : packArguments m .setACOutputVoltage args = .ok fields) :
    readFields .setACOutputVoltage fields = sentParameters m .setACOutputVoltage args := by
  obtain ⟨-, -, -, rfl⟩ := setACOutputVoltage_accepted hv
  obtain ⟨z, hz, rfl⟩ := map_eq_ok.mp hp
  have hread : Param.int (fieldInt (fixedInt 4 (z * 10)) / 10) = intParam a := by
    rw [fixedInt, fieldInt_zeroPad, Int.mul_ediv_cancel z (by norm_num), ← intParam_eq hz]
    rfl
  exact congrArg (fun p => [p]) hread

theorem setBatteryCutOffVoltage_read {a : Bytes}
    (hv : validateArgs m .setBatteryCutOffVoltage [a] = .ok args)
    (hp : packArguments m .setBatteryCutOffVoltage args = .ok fields) :
    readFields .setBatteryCutOffVoltage fields =
      sentParameters m .setBatteryCutOffVoltage args := by
  obtain ⟨-, -, -, rfl⟩ := setBatteryCutOffVoltage_accepted hv
  exact congrArg (fun p => [p]) (sentVoltage_of_packVoltage hp)

/-! A machine id or a letter, and a number. -/

theorem id_comma_read {n k : ℕ} {a f : Bytes} (hf : f.length = n) (hk : k = n + 1) :
    (a ++ ascii "," ++ f).take ((a ++ ascii "," ++ f).length - k) = a ∧
      (a ++ ascii "," ++ f).drop ((a ++ ascii "," ++ f).length - n) = f := by
  have hlen : (a ++ ascii ",").length = a.length + 1 := List.length_append
  refine ⟨?_, ?_⟩
  · rw [List.append_assoc]
    apply List.take_left'
    simp only [List.length_append] at hlen ⊢
    omega
  · apply List.drop_left'
    simp only [List.length_append] at hlen ⊢
    omega

theorem setBatteryMaxCurrent_read {c : CommandType}
    (hc : c = .setBatteryMaxChargeCurrent ∨ c = .setBatteryMaxACChargeCurrent) {a b : Bytes}
    (hv : validateArgs m c [a, b] = .ok args) (hp : packArguments m c args = .ok fields) :
    readFields c fields = sentParameters m c args := by
  obtain ⟨-, amps, -, hamps, -, hle, rfl⟩ := setBatteryMaxCurrent_accepted hc hv
  obtain ⟨f, hf, rfl⟩ := setBatteryMaxCurrent_packed hc hp
  obtain ⟨z, hz, -⟩ := map_eq_ok.mp hf
  obtain rfl := stoi_of_stou hamps hz (by omega)
  have hmatch : (Field.num 3 999).Matches f :=
    packInt_matches (by norm_num) hz hf (by omega) (by omega) (by exact_mod_cast hle)
  have hlen : f.length = 3 := hmatch.1
  obtain ⟨hid, hlast⟩ := id_comma_read (a := a) hlen (show 4 = 3 + 1 from rfl)
  have hread : readFields c (a ++ ascii "," ++ f) = [idParam a, .int (fieldInt f)] := by
    rcases hc with rfl | rfl <;>
    · show [idParam (List.take _ _), Param.int (fieldInt (List.drop _ _))] = _
      rw [hid, hlast]
  rw [hread, intParam_of_packInt hf]
  rcases hc with rfl | rfl <;> rfl

theorem setPriorityOrMode_read {c : CommandType} {allowed : List String} {err : String}
    (hc : c = .setChargeSourcePriority ∨ c = .setOutputMode) {a b index : Bytes}
    (hindex : chooseIndex allowed b err = .ok index) (hlen : allowed.length ≤ 10)
    (hp : packArguments m c [a, index] = .ok fields) :
    readFields c fields = sentParameters m c [a, index] := by
  have hp' : a ++ ascii "," ++ index = fields := by
    rcases hc with rfl | rfl <;> exact pure_eq_ok.mp hp
  subst hp'
  have hmatch : (Field.num 1 9).Matches index :=
    chooseIndex_matches hindex (by omega) (by norm_num)
  have hnum : isNumeric index = true :=
    isNumeric_iff.mpr ⟨List.ne_nil_of_length_pos (by rw [hmatch.1]; norm_num), hmatch.2.1⟩
  have hlen9 : index.length ≤ 9 := hmatch.1.trans_le (by norm_num)
  have hlen1 : index.length = 1 := hmatch.1
  obtain ⟨hid, hlast⟩ := id_comma_read (a := a) hlen1 (show 2 = 1 + 1 from rfl)
  have hread : readFields c (a ++ ascii "," ++ index) =
      [idParam a, wordParam c (.int (fieldInt index))] := by
    rcases hc with rfl | rfl <;>
    · show [idParam (List.take _ _), wordParam _ (Param.int (fieldInt (List.drop _ _)))] = _
      rw [hid, hlast]
  rw [hread, intParam_of_isNumeric hnum hlen9]
  rcases hc with rfl | rfl <;> rfl

theorem setChargeSourcePriority_read {a b : Bytes}
    (hv : validateArgs m .setChargeSourcePriority [a, b] = .ok args)
    (hp : packArguments m .setChargeSourcePriority args = .ok fields) :
    readFields .setChargeSourcePriority fields =
      sentParameters m .setChargeSourcePriority args := by
  obtain ⟨-, index, -, -, hindex, rfl⟩ := setChargeSourcePriority_accepted hv
  exact setPriorityOrMode_read (.inl rfl) hindex (by decide) hp

theorem setOutputMode_read {a b : Bytes}
    (hv : validateArgs m .setOutputMode [a, b] = .ok args)
    (hp : packArguments m .setOutputMode args = .ok fields) :
    readFields .setOutputMode fields = sentParameters m .setOutputMode args := by
  obtain ⟨-, index, -, -, hindex, rfl⟩ := setOutputMode_accepted hv
  exact setPriorityOrMode_read (.inr rfl) hindex (by decide) hp

theorem setFlag_read {a b : Bytes} (hv : validateArgs m .setFlag [a, b] = .ok args)
    (hp : packArguments m .setFlag args = .ok fields) :
    readFields .setFlag fields = sentParameters m .setFlag args ∧
      (fields.head? = some 0x45 ∨ fields.head? = some 0x44) := by
  obtain ⟨f, -, -, ⟨t, ht, rfl⟩, rfl⟩ := setFlag_accepted hv
  obtain rfl := pure_eq_ok.mp hp
  simp only [List.mem_cons, List.not_mem_nil, or_false] at ht
  rcases ht with rfl | rfl
  · exact ⟨rfl, .inr rfl⟩
  · exact ⟨rfl, .inl rfl⟩

theorem twoVoltages_read {c : CommandType} {a b : Bytes}
    (hc : c = .setBatteryMaxChargeVoltage ∨ c = .setBatteryChargeThresholds)
    (hp : packArguments m c [a, b] = .ok fields) :
    readFields c fields = sentParameters m c [a, b] := by
  obtain ⟨f1, f2, hf1, hf2, rfl⟩ := (twoVoltages_packed hc).mp hp
  have hcomma : ∀ x ∈ f1, (x != 0x2C) = true := by
    obtain ⟨v, -, rfl⟩ := map_eq_ok.mp hf1
    rintro x hx
    rw [bne_iff_ne]
    rintro rfl
    exact comma_notMem_intDecimal _ _ hx
  have htake : (f1 ++ ascii "," ++ f2).takeWhile (· != 0x2C) = f1 := by
    rw [List.append_assoc, List.takeWhile_append_of_pos hcomma]
    exact List.append_nil f1
  have hdrop : (f1 ++ ascii "," ++ f2).dropWhile (· != 0x2C) = ascii "," ++ f2 := by
    rw [List.append_assoc, List.dropWhile_append_of_pos hcomma]
    rfl
  have hread : readFields c (f1 ++ ascii "," ++ f2) =
      [.int (fieldInt f1), .int (fieldInt f2)] := by
    rcases hc with rfl | rfl <;>
    · show [Param.int (fieldInt (List.takeWhile _ _)),
        Param.int (fieldInt (List.dropWhile _ _).tail)] = _
      rw [htake, hdrop]
      rfl
  rw [hread, sentVoltage_of_packVoltage hf1, sentVoltage_of_packVoltage hf2]
  rcases hc with rfl | rfl <;> rfl

theorem setSolarConfig_read {a : Bytes} (hv : validateArgs m .setSolarConfig [a] = .ok args)
    (hp : packArguments m .setSolarConfig args = .ok fields) :
    readFields .setSolarConfig fields = sentParameters m .setSolarConfig args := by
  obtain ⟨-, hlen, rfl⟩ := setSolarConfig_accepted hv
  obtain rfl := pure_eq_ok.mp hp
  obtain ⟨h1, -, h3⟩ := @fixed_spec 2 a.length (by norm_num) (by omega)
  have hread : ((fixed 2 a.length ++ a ++ List.replicate (20 - a.length) 0x30).drop 2).take
      (numVal ((fixed 2 a.length ++ a ++ List.replicate (20 - a.length) 0x30).take 2)) = a := by
    rw [List.append_assoc, List.take_left' h1, List.drop_left' h1, h3, List.take_left]
  exact congrArg (fun s => [Param.text s]) hread

/-- **Arguments read back.**  What `packArguments` makes of accepted arguments gives the parameters
of the request. -/
theorem readFields_packed {c : CommandType} {given : List Bytes}
    (hcount : ∀ n, argCount c = some n → given.length = n)
    (hv : validateArgs m c given = .ok args) (hp : packArguments m c args = .ok fields)
    (hnone : argCount c = none → given = []) : readFields c fields = sentParameters m c args := by
  cases c
  case getYearGenerated =>
    obtain ⟨y, rfl⟩ := List.length_eq_one_iff.mp (hcount 1 rfl)
    exact getYearGenerated_read hv hp
  case getMonthGenerated =>
    obtain ⟨y, mo, rfl⟩ := List.length_eq_two.mp (hcount 2 rfl)
    exact getMonthGenerated_read hv hp
  case getDayGenerated =>
    obtain ⟨y, mo, d, rfl⟩ := List.length_eq_three.mp (hcount 3 rfl)
    exact getDayGenerated_read hv hp
  case getParallelRatedInformation =>
    obtain ⟨a, rfl⟩ := List.length_eq_one_iff.mp (hcount 1 rfl)
    exact getParallel_read (.inl rfl) hv hp
  case getParallelGeneralStatus =>
    obtain ⟨a, rfl⟩ := List.length_eq_one_iff.mp (hcount 1 rfl)
    exact getParallel_read (.inr rfl) hv hp
  case setACSupply =>
    obtain ⟨a, rfl⟩ := List.length_eq_one_iff.mp (hcount 1 rfl)
    exact setACSupply_read hv hp
  case setFlag =>
    obtain ⟨a, b, rfl⟩ := List.length_eq_two.mp (hcount 2 rfl)
    exact (setFlag_read hv hp).1
  case setBatteryMaxChargeCurrent =>
    obtain ⟨a, b, rfl⟩ := List.length_eq_two.mp (hcount 2 rfl)
    exact setBatteryMaxCurrent_read (.inl rfl) hv hp
  case setBatteryMaxACChargeCurrent =>
    obtain ⟨a, b, rfl⟩ := List.length_eq_two.mp (hcount 2 rfl)
    exact setBatteryMaxCurrent_read (.inr rfl) hv hp
  case setACOutputFreq =>
    obtain ⟨a, rfl⟩ := List.length_eq_one_iff.mp (hcount 1 rfl)
    exact setACOutputFreq_read hv hp
  case setBatteryMaxChargeVoltage =>
    obtain ⟨a, b, rfl⟩ := List.length_eq_two.mp (hcount 2 rfl)
    obtain ⟨-, -, -, -, -, -, rfl⟩ := setBatteryMaxChargeVoltage_accepted hv
    exact twoVoltages_read (.inl rfl) hp
  case setACOutputVoltage =>
    obtain ⟨a, rfl⟩ := List.length_eq_one_iff.mp (hcount 1 rfl)
    exact setACOutputVoltage_read hv hp
  case setOutputSourcePriority =>
    obtain ⟨a, rfl⟩ := List.length_eq_one_iff.mp (hcount 1 rfl)
    exact chosen_read hv hp (by decide)
  case setBatteryChargeThresholds =>
    obtain ⟨a, b, rfl⟩ := List.length_eq_two.mp (hcount 2 rfl)
    obtain ⟨-, -, -, -, -, -, rfl⟩ := setBatteryChargeThresholds_accepted hv
    exact twoVoltages_read (.inr rfl) hp
  case setChargeSourcePriority =>
    obtain ⟨a, b, rfl⟩ := List.length_eq_two.mp (hcount 2 rfl)
    exact setChargeSourcePriority_read hv hp
  case setSolarPowerPriority =>
    obtain ⟨a, rfl⟩ := List.length_eq_one_iff.mp (hcount 1 rfl)
    exact chosen_read hv hp (by decide)
  case setACInputVoltageRange =>
    obtain ⟨a, rfl⟩ := List.length_eq_one_iff.mp (hcount 1 rfl)
    exact chosen_read hv hp (by decide)
  case setBatteryType =>
    obtain ⟨a, rfl⟩ := List.length_eq_one_iff.mp (hcount 1 rfl)
    exact chosen_read hv hp (by decide)
  case setOutputMode =>
    obtain ⟨a, b, rfl⟩ := List.length_eq_two.mp (hcount 2 rfl)
    exact setOutputMode_read hv hp
  case setBatteryCutOffVoltage =>
    obtain ⟨a, rfl⟩ := List.length_eq_one_iff.mp (hcount 1 rfl)
    exact setBatteryCutOffVoltage_read hv hp
  case setSolarConfig =>
    obtain ⟨a, rfl⟩ := List.length_eq_one_iff.mp (hcount 1 rfl)
    exact setSolarConfig_read hv hp
  case setDateTime =>
    obtain ⟨y, mo, d, h, mi, s, rfl⟩ := exists_of_length_six (hcount 6 rfl)
    exact setDateTime_read hv hp
  case setACChargeTimeBucket =>
    obtain ⟨a, b, rfl⟩ := List.length_eq_two.mp (hcount 2 rfl)
    exact timeBucket_read (.inl rfl) hv hp
  case setACSupplyTimeBucket =>
    obtain ⟨a, b, rfl⟩ := List.length_eq_two.mp (hcount 2 rfl)
    exact timeBucket_read (.inr rfl) hv hp
  -- the commands without arguments
  all_goals
    obtain rfl := hnone rfl
    obtain rfl := pure_eq_ok.mp hv
    rfl

/-- The argument field tells the raw commands apart that start with one another. -/
theorem fields_head {c : CommandType} {given : List Bytes}
    (hcount : ∀ n, argCount c = some n → given.length = n)
    (hv : validateArgs m c given = .ok args) (hp : packArguments m c args = .ok fields) :
    (c = .getProtocolID → fields = []) ∧
      (c = .setFlag → fields.head? = some 0x45 ∨ fields.head? = some 0x44) ∧
      (c = .setOutputSourcePriority → ∀ b ∈ fields.head?, isDigit b = true) := by
  refine ⟨?_, ?_, ?_⟩
  · rintro rfl
    exact (pure_eq_ok.mp hp).symm
  · rintro rfl
    obtain ⟨a, b, rfl⟩ := List.length_eq_two.mp (hcount 2 rfl)
    exact (setFlag_read hv hp).2
  · rintro rfl
    obtain ⟨a, rfl⟩ := List.length_eq_one_iff.mp (hcount 1 rfl)
    have hmatch := Layout.matches_singleton.mp
      ((fields_matches_iff hcount hv hp).mpr (plainArgs_of_none rfl rfl))
    intro b hb
    exact hmatch.2.1 b (List.mem_of_mem_head? hb)

end

/-! ### Requests -/

theorem raw_head {c : CommandType} {raw : Bytes} (h : rawCommand c = some raw) (s : Bytes) :
    (raw ++ s).dropWhile isDigit = raw ++ s := by
  cases c <;> obtain rfl := Option.some.inj h <;> rfl

/-- **Requests read back**: the receiver finds the command and the parameters of every request that
`validate_input` accepts and `Client::execute` packs. -/
theorem readRequest_packed {m : Machine} {command : Bytes} {argv : List Bytes} {c : CommandType}
    {args : List Bytes} {packed : Bytes}
    (hv : validateInput m (getArgs argv) command = .ok (c, args))
    (hp : packRequest m c args = .ok packed) :
    readRequest packed = some (c, sentParameters m c args) := by
  obtain ⟨-, given, hgiven, hvalid⟩ := validateInput_eq_ok.mp hv
  have hcount : ∀ n, argCount c = some n → given.length = n := fun n hn => by
    simp only [givenArgs, hn] at hgiven
    exact (getArgs_length hgiven).1
  have hnone : argCount c = none → given = [] := fun hn => by
    simp only [givenArgs, hn] at hgiven
    exact (pure_eq_ok.mp hgiven).symm
  obtain ⟨raw, fields, hraw, hfields, rfl⟩ := packRequest_eq_ok.mp hp
  have hlen : AllDigits (fixed 3 (3 + raw.length + fields.length)) :=
    allDigits_zeroPad (allDigits_decimal _)
  have hletter : ∃ b, commandLetter c = [b] ∧ (b == 0x53) = c.isSet := by
    unfold commandLetter
    cases c.isSet
    · exact ⟨0x50, rfl, rfl⟩
    · exact ⟨0x53, rfl, rfl⟩
  obtain ⟨b, hletter, hset⟩ := hletter
  -- the digits of the length end where the raw command starts
  have htext : ((ascii "^" ++ commandLetter c ++ fixed 3 (3 + raw.length + fields.length) ++ raw ++
      fields).drop 2).dropWhile isDigit = raw ++ fields := by
    rw [hletter]
    simp only [List.append_assoc]
    show (fixed 3 (3 + raw.length + fields.length) ++ (raw ++ fields)).dropWhile isDigit = _
    rw [List.dropWhile_append_of_pos hlen, raw_head hraw]
  have hside : (((ascii "^" ++ commandLetter c ++ fixed 3 (3 + raw.length + fields.length) ++ raw ++
      fields).drop 1).head? == some 0x53) = c.isSet := by
    rw [hletter, ← hset]
    rfl
  have hdrop : (raw ++ fields).drop ((rawCommand c).getD []).length = fields := by
    rw [hraw]
    exact List.drop_left
  unfold readRequest
  simp only [htext, hside, readCommand_raw hraw (fields_head hcount hvalid hfields)]
  show some (c, readFields c ((raw ++ fields).drop ((rawCommand c).getD []).length)) = _
  rw [hdrop, readFields_packed hcount hvalid hfields hnone]

end InverterTools.P18
