import InverterTools.Types

/-! # Validation of client commands (`p18/commands.cc`)

`validateInput` finds the command type, takes as many arguments as the command needs (`GET_ARGS`)
and checks them; some are replaced by what the protocol wants.  Where the arguments come from is a
parameter; `getArgs` is the one of the daemon. -/

namespace InverterTools.P18

open CommandType in
/-- `client_commands`. -/
def clientCommands : List (String × CommandType) := [
  ("get-protocol-id", getProtocolID),
  ("get-date-time", getCurrentTime),
  ("get-total-generated", getTotalGenerated),
  ("get-year-generated", getYearGenerated),
  ("get-month-generated", getMonthGenerated),
  ("get-day-generated", getDayGenerated),
  ("get-serial-number", getSerialNumber),
  ("get-cpu-version", getCPUVersion),
  ("get-rated", getRatedInformation),
  ("get-status", getGeneralStatus),
  ("get-mode", getWorkingMode),
  ("get-errors", getFaultsAndWarnings),
  ("get-flags", getFlagsAndStatuses),
  ("get-rated-defaults", getRatedDefaults),
  ("get-allowed-charge-currents", getAllowedChargeCurrents),
  ("get-allowed-ac-charge-currents", getAllowedACChargeCurrents),
  ("get-p-rated", getParallelRatedInformation),
  ("get-p-status", getParallelGeneralStatus),
  ("get-ac-charge-time", getACChargeTimeBucket),
  ("get-ac-supply-time", getACSupplyTimeBucket),
  ("set-ac-supply", setACSupply),
  ("set-flag", setFlag),
  ("set-rated-defaults", setDefaults),
  ("set-max-charge-current", setBatteryMaxChargeCurrent),
  ("set-max-ac-charge-current", setBatteryMaxACChargeCurrent),
  ("set-ac-output-freq", setACOutputFreq),
  ("set-max-charge-voltage", setBatteryMaxChargeVoltage),
  ("set-ac-output-voltage", setACOutputVoltage),
  ("set-output-source-priority", setOutputSourcePriority),
  ("set-charge-thresholds", setBatteryChargeThresholds),
  ("set-charge-source-priority", setChargeSourcePriority),
  ("set-solar-power-priority", setSolarPowerPriority),
  ("set-ac-input-voltage-range", setACInputVoltageRange),
  ("set-battery-type", setBatteryType),
  ("set-output-mode", setOutputMode),
  ("set-battery-cutoff-voltage", setBatteryCutOffVoltage),
  ("set-solar-configuration", setSolarConfig),
  ("clear-generated-data", clearGenerated),
  ("set-date-time", setDateTime),
  ("set-ac-charge-time", setACChargeTimeBucket),
  ("set-ac-supply-time", setACSupplyTimeBucket)]

/-- `client_commands.find(command)`. -/
def clientCommand (command : Bytes) : Option CommandType :=
  (clientCommands.find? (fun e => ascii e.1 == command)).map Prod.snd

/-- `throw std::invalid_argument(err)` unless the check holds. -/
def check (ok : Bool) (err : String) : Except Exn Unit :=
  if ok then .ok () else .error (invalidArgument err)

/-- The month or the day of `validate_date_args`; zero for a null pointer. -/
def twoDigits (lo hi : ℤ) (err : String) : Option Bytes → Except Exn ℤ
  | none => pure 0
  | some s => do
      check (isNumeric s && decide (s.length ≤ 2)) err
      let n ← stoi s
      check (decide (lo ≤ n ∧ n ≤ hi)) err
      pure n

/-- `validate_date_args`. -/
def validateDateArgs (ys : Bytes) (ms ds : Option Bytes) : Except Exn Unit := do
  check (isNumeric ys && decide (ys.length = 4)) "invalid year"
  let y ← stoi ys
  check (decide (2000 ≤ y ∧ y ≤ 2099)) "invalid year"
  let m ← twoDigits 1 12 "invalid month" ms
  let d ← twoDigits 1 31 "invalid day" ds
  if y ≠ 0 ∧ m ≠ 0 ∧ d ≠ 0 then check (isDateValid y m d) "invalid date" else pure ()

/-- One part of `validate_time_args`. -/
def validateClockArg (s : Bytes) (hi : ℕ) (err : String) : Except Exn Unit := do
  check (isNumeric s && decide (s.length ≤ 2)) err
  let n ← stoul s
  check (decide (toUnsigned n ≤ hi)) err

/-- `validate_time_args`. -/
def validateTimeArgs (hs ms ss : Bytes) : Except Exn Unit := do
  validateClockArg hs 23 "invalid hour"
  validateClockArg ms 59 "invalid minute"
  validateClockArg ss 59 "invalid second"

/-- The daemon's `get_args`. -/
def getArgs (argv : List Bytes) (count : ℕ) : Except Exn (List Bytes) :=
  if argv.length < count then
    .error ⟨.invalidArgument, ascii "this command requires " ++ decimal count ++
      ascii " argument" ++ if 1 < count then ascii "s" else []⟩
  else .ok (argv.take count)

/-- The machine id that `std::stoul` reads from an argument. -/
def parallelId (s : Bytes) : Except Exn ℕ := toUnsigned <$> stoul s

/-- `index_of(allowed, arg)`, as the text that replaces the argument. -/
def chooseIndex (allowed : List String) (arg : Bytes) (err : String) : Except Exn Bytes :=
  match indexOf (fun a b => ascii a == b) allowed arg with
  | some i => .ok (decimal i)
  | none => .error (invalidArgument err)

/-- Two spellings of an argument. -/
def oneOf (allowed : List String) (arg : Bytes) (err : String) : Except Exn Unit :=
  check (allowed.any (fun a => ascii a == arg)) err

/-- A voltage given as a `float`, compared with two `double` literals. -/
def voltageIn (v : CFloat) (lo hi : ℚ) (err : String) : Except Exn Unit :=
  check (!(v.lt (binary64.round lo) || (binary64.round hi).lt v)) err

/-- A threshold: `index_of` in one of three tables. -/
def voltageListed (v : CFloat) (tables : List (List CFloat)) (err : String) : Except Exn Unit :=
  check (tables.any (fun t => (indexOf CFloat.eq t v).isSome)) err

/-- The texts of the four numbers of a time bucket. -/
def bucketArgs (start stop : Bytes) : Except Exn (List Bytes) := do
  let start := split start 0x3A
  check (decide (start.length = 2)) "invalid start time"
  let stop := split stop 0x3A
  check (decide (stop.length = 2)) "invalid end time"
  let startHour ← stouh (start.getD 0 [])
  let startMinute ← stouh (start.getD 1 [])
  check (decide (startHour ≤ 23 ∧ startMinute ≤ 59)) "invalid start time"
  let endHour ← stouh (stop.getD 0 [])
  let endMinute ← stouh (stop.getD 1 [])
  check (decide (endHour ≤ 23 ∧ endMinute ≤ 59)) "invalid end time"
  pure [decimal startHour, decimal startMinute, decimal endHour, decimal endMinute]

/-- The argument of `GET_ARGS` in the case of a command, if it has one. -/
def argCount : CommandType → Option ℕ
  | .getYearGenerated => some 1
  | .getMonthGenerated => some 2
  | .getDayGenerated => some 3
  | .getParallelRatedInformation => some 1
  | .getParallelGeneralStatus => some 1
  | .setACSupply => some 1
  | .setFlag => some 2
  | .setBatteryMaxChargeCurrent => some 2
  | .setBatteryMaxACChargeCurrent => some 2
  | .setACOutputFreq => some 1
  | .setBatteryMaxChargeVoltage => some 2
  | .setACOutputVoltage => some 1
  | .setOutputSourcePriority => some 1
  | .setBatteryChargeThresholds => some 2
  | .setChargeSourcePriority => some 2
  | .setSolarPowerPriority => some 1
  | .setACInputVoltageRange => some 1
  | .setBatteryType => some 1
  | .setOutputMode => some 2
  | .setBatteryCutOffVoltage => some 1
  | .setSolarConfig => some 1
  | .setDateTime => some 6
  | .setACChargeTimeBucket => some 2
  | .setACSupplyTimeBucket => some 2
  | _ => none

/-- The rest of the case of a command: the checks on the arguments, and the arguments as they are
left. -/
def validateArgs (m : Machine) (c : CommandType) (args : List Bytes) : Except Exn (List Bytes) :=
  let arg := fun i => args.getD i []
  match c with
  | .getYearGenerated => do
      validateDateArgs (arg 0) none none
      pure args
  | .getMonthGenerated => do
      validateDateArgs (arg 0) (some (arg 1)) none
      pure args
  | .getDayGenerated => do
      validateDateArgs (arg 0) (some (arg 1)) (some (arg 2))
      pure args
  | .getParallelRatedInformation | .getParallelGeneralStatus => do
      check (isNumeric (arg 0) && decide ((arg 0).length ≤ 1)) "invalid argument"
      pure args
  | .setACSupply => do
      oneOf ["0", "1"] (arg 0) "invalid argument, only 0 or 1 allowed"
      pure args
  | .setFlag => match flags.find? (fun f => ascii f.flag == arg 0) with
      | none => .error (invalidArgument "invalid flag")
      | some f => do
          oneOf ["0", "1"] (arg 1) "invalid flag state, only 0 or 1 allowed"
          pure (args.set 0 [UInt8.ofNat f.letter.toNat])
  | .setBatteryMaxChargeCurrent | .setBatteryMaxACChargeCurrent => do
      let id ← parallelId (arg 0)
      let amps ← stou (arg 1)
      check (isValidParallelId id) "invalid id"
      check (decide (amps ≤ 999)) "invalid amps"
      pure args
  | .setACOutputFreq => do
      oneOf ["50", "60"] (arg 0) "invalid frequency, only 50 or 60 allowed"
      pure args
  | .setBatteryMaxChargeVoltage => do
      let cv ← stof m (arg 0)
      let fv ← stof m (arg 1)
      voltageIn cv 48.0 58.4 "invalid CV"
      voltageIn fv 48.0 58.4 "invalid FV"
      pure args
  | .setACOutputVoltage => do
      let v ← stou (arg 0)
      check (acOutputVoltages.contains v) "invalid voltage"
      pure args
  | .setOutputSourcePriority => do
      let index ← chooseIndex ["SUB", "SBU"] (arg 0) "invalid argument"
      pure (args.set 0 index)
  | .setBatteryChargeThresholds => do
      let cv ← stof m (arg 0)
      let dv ← stof m (arg 1)
      voltageListed cv [batACRechargeVoltages12V, batACRechargeVoltages24V,
        batACRechargeVoltages48V] "invalid CV"
      voltageListed dv [batACRedischargeVoltages12V, batACRedischargeVoltages24V,
        batACRedischargeVoltages48V] "invalid DV"
      pure args
  | .setChargeSourcePriority => do
      let id ← parallelId (arg 0)
      check (isValidParallelId id) "invalid id"
      let index ← chooseIndex ["SF", "SU", "S"] (arg 1) "invalid argument"
      pure (args.set 1 index)
  | .setSolarPowerPriority => do
      let index ← chooseIndex ["BLU", "LBU"] (arg 0) "invalid priority"
      pure (args.set 0 index)
  | .setACInputVoltageRange => do
      let index ← chooseIndex ["APPLIANCE", "UPS"] (arg 0) "invalid argument"
      pure (args.set 0 index)
  | .setBatteryType => do
      let index ← chooseIndex ["AGM", "FLOODED", "USER"] (arg 0) "invalid type"
      pure (args.set 0 index)
  | .setOutputMode => do
      let id ← parallelId (arg 0)
      check (isValidParallelId id) "invalid id"
      let index ← chooseIndex ["S", "P", "1", "2", "3"] (arg 1) "invalid model"
      pure (args.set 1 index)
  | .setBatteryCutOffVoltage => do
      let v ← stof m (arg 0)
      voltageIn v 40.0 48.0 "invalid voltage"
      pure args
  | .setSolarConfig => do
      check (isNumeric (arg 0) && decide ((arg 0).length ≤ 20)) "invalid argument"
      pure args
  | .setDateTime => do
      validateDateArgs (arg 0) (some (arg 1)) (some (arg 2))
      validateTimeArgs (arg 3) (arg 4) (arg 5)
      pure args
  | .setACChargeTimeBucket | .setACSupplyTimeBucket => bucketArgs (arg 0) (arg 1)
  | _ => pure args

/-- `GET_ARGS` in the cases that have it. -/
def givenArgs (getArgs : ℕ → Except Exn (List Bytes)) (c : CommandType) :
    Except Exn (List Bytes) :=
  match argCount c with
  | none => pure []
  | some n => getArgs n

/-- `validate_input`, on the source of arguments `getArgs`. -/
def validateInput (m : Machine) (getArgs : ℕ → Except Exn (List Bytes)) (command : Bytes) :
    Except Exn (CommandType × List Bytes) :=
  match clientCommand command with
  | none => .error (invalidArgument "invalid command")
  | some c => do
      let args ← givenArgs getArgs c
      let args ← validateArgs m c args
      pure (c, args)

/-! ### What a check that was passed says -/

theorem check_eq_ok {ok : Bool} {err : String} {u : Unit} : check ok err = .ok u ↔ ok = true := by
  unfold check
  split_ifs with h <;> simp [h]

theorem getArgs_length {argv args : List Bytes} {count : ℕ} (h : getArgs argv count = .ok args) :
    args.length = count ∧ args = argv.take count := by
  unfold getArgs at h
  split_ifs at h with hlt
  obtain rfl := Except.ok.inj h
  exact ⟨by rw [List.length_take]; omega, rfl⟩

/-- An accepted input: the command is known, its arguments were there and passed the checks. -/
theorem validateInput_eq_ok {m : Machine} {getArgs : ℕ → Except Exn (List Bytes)} {command : Bytes}
    {c : CommandType} {args : List Bytes} :
    validateInput m getArgs command = .ok (c, args) ↔ clientCommand command = some c ∧
      ∃ given, givenArgs getArgs c = .ok given ∧ validateArgs m c given = .ok args := by
  unfold validateInput
  cases clientCommand command with
  | none => simp
  | some d =>
      simp only [bind_eq_ok, pure_eq_ok, Prod.mk.injEq, Option.some.injEq]
      constructor
      · rintro ⟨given, hg, args', ha, rfl, rfl⟩
        exact ⟨rfl, given, hg, ha⟩
      · rintro ⟨rfl, given, hg, ha⟩
        exact ⟨given, hg, args, ha, rfl, rfl⟩

end InverterTools.P18
