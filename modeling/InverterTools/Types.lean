import InverterTools.Util

/-! # Command types, enumerations and tables (`p18/types.h`, `p18/defines.cc`)

The numbers of `CommandType` matter in one place: a command is a set command when its number is at
least 100.  The sixteen enumerations share one definition of `operator<<`, whose default case calls
itself with the same value. -/

namespace InverterTools.P18

/-- `CommandType`. -/
inductive CommandType where
  | getProtocolID
  | getCurrentTime
  | getTotalGenerated
  | getYearGenerated
  | getMonthGenerated
  | getDayGenerated
  | getSerialNumber
  | getCPUVersion
  | getRatedInformation
  | getGeneralStatus
  | getWorkingMode
  | getFaultsAndWarnings
  | getFlagsAndStatuses
  | getRatedDefaults
  | getAllowedChargeCurrents
  | getAllowedACChargeCurrents
  | getParallelRatedInformation
  | getParallelGeneralStatus
  | getACChargeTimeBucket
  | getACSupplyTimeBucket
  | setACSupply
  | setFlag
  | setDefaults
  | setBatteryMaxChargeCurrent
  | setBatteryMaxACChargeCurrent
  | setACOutputFreq
  | setBatteryMaxChargeVoltage
  | setACOutputVoltage
  | setOutputSourcePriority
  | setBatteryChargeThresholds
  | setChargeSourcePriority
  | setSolarPowerPriority
  | setACInputVoltageRange
  | setBatteryType
  | setOutputMode
  | setBatteryCutOffVoltage
  | setSolarConfig
  | clearGenerated
  | setDateTime
  | setACChargeTimeBucket
  | setACSupplyTimeBucket
deriving DecidableEq, Repr

namespace CommandType

/-- `static_cast<int>(commandType)`. -/
def code : CommandType → ℕ
  | getProtocolID => 0
  | getCurrentTime => 1
  | getTotalGenerated => 2
  | getYearGenerated => 3
  | getMonthGenerated => 4
  | getDayGenerated => 5
  | getSerialNumber => 6
  | getCPUVersion => 7
  | getRatedInformation => 8
  | getGeneralStatus => 9
  | getWorkingMode => 10
  | getFaultsAndWarnings => 11
  | getFlagsAndStatuses => 12
  | getRatedDefaults => 13
  | getAllowedChargeCurrents => 14
  | getAllowedACChargeCurrents => 15
  | getParallelRatedInformation => 16
  | getParallelGeneralStatus => 17
  | getACChargeTimeBucket => 18
  | getACSupplyTimeBucket => 19
  | setACSupply => 100
  | setFlag => 101
  | setDefaults => 102
  | setBatteryMaxChargeCurrent => 103
  | setBatteryMaxACChargeCurrent => 104
  | setACOutputFreq => 105
  | setBatteryMaxChargeVoltage => 106
  | setACOutputVoltage => 107
  | setOutputSourcePriority => 108
  | setBatteryChargeThresholds => 109
  | setChargeSourcePriority => 110
  | setSolarPowerPriority => 111
  | setACInputVoltageRange => 112
  | setBatteryType => 113
  | setOutputMode => 114
  | setBatteryCutOffVoltage => 115
  | setSolarConfig => 116
  | clearGenerated => 117
  | setDateTime => 118
  | setACChargeTimeBucket => 119
  | setACSupplyTimeBucket => 120

/-- `isSetCommand`. -/
def isSet (c : CommandType) : Bool := decide (100 ≤ c.code)

end CommandType

open CommandType in
/-- `raw_commands`. -/
def rawCommands : List (CommandType × String) := [
  (getProtocolID, "PI"),
  (getCurrentTime, "T"),
  (getTotalGenerated, "ET"),
  (getYearGenerated, "EY"),
  (getMonthGenerated, "EM"),
  (getDayGenerated, "ED"),
  (getSerialNumber, "ID"),
  (getCPUVersion, "VFW"),
  (getRatedInformation, "PIRI"),
  (getGeneralStatus, "GS"),
  (getWorkingMode, "MOD"),
  (getFaultsAndWarnings, "FWS"),
  (getFlagsAndStatuses, "FLAG"),
  (getRatedDefaults, "DI"),
  (getAllowedChargeCurrents, "MCHGCR"),
  (getAllowedACChargeCurrents, "MUCHGCR"),
  (getParallelRatedInformation, "PRI"),
  (getParallelGeneralStatus, "PGS"),
  (getACChargeTimeBucket, "ACCT"),
  (getACSupplyTimeBucket, "ACLT"),
  (setACSupply, "LON"),
  (setFlag, "P"),
  (setDefaults, "PF"),
  (setBatteryMaxChargeCurrent, "MCHGC"),
  (setBatteryMaxACChargeCurrent, "MUCHGC"),
  (setACOutputFreq, "F"),
  (setBatteryMaxChargeVoltage, "MCHGV"),
  (setACOutputVoltage, "V"),
  (setOutputSourcePriority, "POP"),
  (setBatteryChargeThresholds, "BUCD"),
  (setChargeSourcePriority, "PCP"),
  (setSolarPowerPriority, "PSP"),
  (setACInputVoltageRange, "PGR"),
  (setBatteryType, "PBT"),
  (setOutputMode, "POPM"),
  (setBatteryCutOffVoltage, "PSDV"),
  (setSolarConfig, "ID"),
  (clearGenerated, "CLE"),
  (setDateTime, "DAT"),
  (setACChargeTimeBucket, "ACCT"),
  (setACSupplyTimeBucket, "ACLT")]

/-- `raw_commands.find(commandType)`. -/
def rawCommand (c : CommandType) : Option Bytes :=
  (rawCommands.find? (fun e => e.1 == c)).map (fun e => ascii e.2)

/-- Every command type has a raw command, of one to seven characters. -/
theorem exists_rawCommand (c : CommandType) :
    ∃ raw, rawCommand c = some raw ∧ 0 < raw.length ∧ raw.length ≤ 7 := by
  cases c <;> exact ⟨_, rfl, by decide, by decide⟩

/-- `ac_output_voltages`. -/
def acOutputVoltages : List ℕ := [202, 208, 220, 230, 240]

/-- A `float` initialised with a decimal literal, which is a `double`. -/
def floatLiteral (q : ℚ) : CFloat :=
  match binary64.round q with
  | .fin r => binary32.round r
  | x => x

/-- `bat_ac_recharge_voltages_12v`. -/
def batACRechargeVoltages12V : List CFloat :=
  [11, 11.3, 11.5, 11.8, 12, 12.3, 12.5, 12.8].map floatLiteral

/-- `bat_ac_recharge_voltages_24v`. -/
def batACRechargeVoltages24V : List CFloat :=
  [22, 22.5, 23, 23.5, 24, 24.5, 25, 25.5].map floatLiteral

/-- `bat_ac_recharge_voltages_48v`. -/
def batACRechargeVoltages48V : List CFloat :=
  [44, 45, 46, 47, 48, 49, 50, 51].map floatLiteral

/-- `bat_ac_redischarge_voltages_12v`. -/
def batACRedischargeVoltages12V : List CFloat :=
  [0, 12, 12.3, 12.5, 12.8, 13, 13.3, 13.5, 13.8, 14, 14.3, 14.5].map floatLiteral

/-- `bat_ac_redischarge_voltages_24v`. -/
def batACRedischargeVoltages24V : List CFloat :=
  [0, 24, 24.5, 25, 25.5, 26, 26.5, 27, 27.5, 28, 28.5, 29].map floatLiteral

/-- `bat_ac_redischarge_voltages_48v`. -/
def batACRedischargeVoltages48V : List CFloat :=
  [0, 48, 49, 50, 51, 52, 53, 54, 55, 56, 57, 58].map floatLiteral

/-- `Flag`, less its description. -/
structure Flag where
  flag : String
  letter : Char
deriving DecidableEq, Repr

/-- `flags`. -/
def flags : List Flag := [
  ⟨"BUZZ", 'A'⟩,
  ⟨"OLBP", 'B'⟩,
  ⟨"LCDE", 'C'⟩,
  ⟨"OLRS", 'D'⟩,
  ⟨"OTRS", 'E'⟩,
  ⟨"BLON", 'F'⟩,
  ⟨"ALRM", 'G'⟩,
  ⟨"FTCR", 'H'⟩,
  ⟨"MTYP", 'I'⟩]

/-- `is_valid_parallel_id`. -/
def isValidParallelId (id : ℕ) : Bool := decide (id ≤ 6)

/-! ### Enumerations -/

/-- The enumerations with an `operator<<`. -/
inductive EnumType where
  | batteryType
  | inputVoltageRange
  | outputSourcePriority
  | chargeSourcePriority
  | machineType
  | topology
  | outputMode
  | solarPowerPriority
  | mpptChargerStatus
  | batteryPowerDirection
  | dcACPowerDirection
  | linePowerDirection
  | workingMode
  | parallelConnectionStatus
  | loadConnectionStatus
  | configurationStatus
deriving DecidableEq, Repr

/-- The `case`s of `operator<<` for each enumeration. -/
def EnumType.strings : EnumType → List (ℤ × String)
  | batteryType => [(0, "AGM"), (1, "Flooded"), (2, "User")]
  | inputVoltageRange => [(0, "Appliance"), (1, "USP")]
  | outputSourcePriority => [(0, "Solar-Utility-Battery"), (1, "Solar-Battery-Utility")]
  | chargeSourcePriority => [(0, "Solar-First"), (1, "Solar-and-Utility"), (2, "Solar-only")]
  | machineType => [(0, "Off-Grid-Tie"), (1, "Grid-Tie")]
  | topology => [(0, "Transformer-less"), (1, "Transformer")]
  | outputMode => [(0, "Single output"), (1, "Parallel output"), (2, "Phase 1 of 3-phase output"),
      (3, "Phase 2 of 3-phase output"), (4, "Phase 3 of 3-phase")]
  | solarPowerPriority => [(0, "Battery-Load-Utility"), (1, "Load-Battery-Utility")]
  | mpptChargerStatus => [(0, "Abnormal"), (1, "Not charging"), (2, "Charging")]
  | batteryPowerDirection => [(0, "Do nothing"), (1, "Charge"), (2, "Discharge")]
  | dcACPowerDirection => [(0, "Do nothing"), (1, "AC/DC"), (2, "DC/AC")]
  | linePowerDirection => [(0, "Do nothing"), (1, "Input"), (2, "Output")]
  | workingMode => [(0, "Power on mode"), (1, "Standby mode"), (2, "Bypass mode"),
      (3, "Battery mode"), (4, "Fault mode"), (5, "Hybrid mode")]
  | parallelConnectionStatus => [(0, "Non-existent"), (1, "Existent")]
  | loadConnectionStatus => [(0, "Disconnected"), (1, "Connected")]
  | configurationStatus => [(0, "Default"), (1, "Changed")]

/-- A value of an enumeration: any number cast to it. -/
structure EnumVal where
  type : EnumType
  code : ℤ
deriving DecidableEq, Repr

/-- `static_cast` of an `unsigned` to an enumeration. -/
def EnumVal.cast (type : EnumType) (n : ℕ) : EnumVal := ⟨type, toInt n⟩

/-- The text listed for a value. -/
def EnumVal.listed (v : EnumVal) : Option Bytes :=
  (v.type.strings.find? (fun e => e.1 == v.code)).map (fun e => ascii e.2)

/-- `operator<<` for the enumerations; the default case is `return os << val`.  The first argument
bounds the number of calls that one makes. -/
def EnumVal.put (depth : ℕ) (v : EnumVal) : Outcome Exn Bytes :=
  match v.listed with
  | some s => .ret s
  | none => match depth with
      | 0 => .pending
      | depth + 1 => EnumVal.put depth v

theorem EnumVal.put_of_listed {v : EnumVal} {s : Bytes} (h : v.listed = some s) (depth : ℕ) :
    v.put depth = .ret s := by
  unfold EnumVal.put
  rw [h]

/-- Printing an unlisted value does not end. -/
theorem EnumVal.put_of_not_listed {v : EnumVal} (h : v.listed = none) (depth : ℕ) :
    v.put depth = .pending := by
  induction depth with
  | zero =>
      unfold EnumVal.put
      rw [h]
  | succ depth ih =>
      unfold EnumVal.put
      rw [h]
      exact ih

end InverterTools.P18
