import InverterTools.Response
import InverterTools.Formatter

/-! # The output of the response classes (`format` in `p18/response.cc`)

Each response class shows its members in a table, a list or a status.  For a table the lines are
given with what they show: a member as it is, a member divided by ten, or a time of day. -/

namespace InverterTools.P18

open Formatter (Format Formattable TableItem Displayed LawfulDisplayed)

/-- `VariantHolder`; `double` is `n / 10.0`. -/
inductive Variant where
  | unsigned (n : ℕ)
  | ushort (n : ℕ)
  | ulong (n : ℕ)
  | bool (b : Bool)
  | double (n : ℕ)
  | string (s : Bytes)
  | enum (v : EnumVal)
deriving DecidableEq, Repr

/-- The digits without zeros at the end. -/
def trimZeros (s : Bytes) : Bytes := (s.reverse.dropWhile (· == 0x30)).reverse

/-- `os << n / 10.0`: six significant digits, and an exponent when these do not reach the decimal
point. -/
def putTenths (n : ℕ) : Bytes :=
  let width := (decimal n).length
  if width ≤ 6 then
    decimal (n / 10) ++ if n % 10 = 0 then [] else ascii "." ++ decimal (n % 10)
  else
    let m := (roundEven ((n : ℚ) / 10 ^ (width - 6))).toNat
    let point := if m = 10 ^ 6 then width else width - 1
    let digits := if m = 10 ^ 6 then decimal (10 ^ 5) else decimal m
    if point = 6 then digits
    else
      let frac := trimZeros (digits.drop 1)
      digits.take 1 ++ (if frac = [] then [] else ascii "." ++ frac) ++ ascii "e+" ++
        fixed 2 (point - 1)

namespace Variant

/-- `operator<<`. -/
def put (depth : ℕ) : Variant → Outcome Exn Bytes
  | unsigned n => .ret (decimal n)
  | ushort n => .ret (decimal n)
  | ulong n => .ret (decimal n)
  | bool b => .ret (if b then ascii "1" else ascii "0")
  | double n => .ret (putTenths n)
  | string s => .ret s
  | enum v => v.put depth

/-- `toJSON`: the name of a code. -/
def toJSON (depth : ℕ) : Variant → Outcome Exn Json
  | unsigned n => .ret (.unsigned n)
  | ushort n => .ret (.unsigned n)
  | ulong n => .ret (.unsigned n)
  | bool b => .ret (.bool b)
  | double n => .ret (.tenths n)
  | string s => .ret (.string s)
  | enum v => do
      let name ← v.put depth
      pure (.string name)

/-- `toSimpleJSON`: the code itself. -/
def toSimpleJSON : Variant → Json
  | unsigned n => .unsigned n
  | ushort n => .unsigned n
  | ulong n => .unsigned n
  | bool b => .bool b
  | double n => .tenths n
  | string s => .string s
  | enum v => .integer v.code

instance : Displayed Variant := ⟨put, toJSON, toSimpleJSON⟩

end Variant

/-! ### What is shown -/

/-- What a line of a table shows. -/
inductive Shown where
  | member (m : Member)
  | tenths (m : Member)
  | time (h m : Member)
deriving DecidableEq, Repr

/-- `LINE`. -/
structure Line where
  key : String
  title : String
  shown : Shown
  unit : Formatter.Unit
deriving DecidableEq, Repr

/-- The lines of `ProtocolID::format`. -/
def protocolIDLines : List Line := [
  ⟨"id", "Protocol ID", .member .id, .none⟩]

/-- The lines of `CurrentTime::format`. -/
def currentTimeLines : List Line := [
  ⟨"year", "Year", .member .year, .none⟩,
  ⟨"month", "Month", .member .month, .none⟩,
  ⟨"day", "Day", .member .day, .none⟩,
  ⟨"hour", "Hour", .member .hour, .none⟩,
  ⟨"minute", "Minute", .member .minute, .none⟩,
  ⟨"second", "Second", .member .second, .none⟩]

/-- The lines of `TotalGenerated::format`. -/
def totalGeneratedLines : List Line := [
  ⟨"wh", "Wh", .member .wh, .none⟩]

/-- The lines of `SerialNumber::format`. -/
def serialNumberLines : List Line := [
  ⟨"sn", "Serial number", .member .id, .none⟩]

/-- The lines of `CPUVersion::format`. -/
def cpuVersionLines : List Line := [
  ⟨"main_v", "Main CPU version", .member .mainCpuVersion, .none⟩,
  ⟨"slave1_v", "Slave 1 CPU version", .member .slave1CpuVersion, .none⟩,
  ⟨"slave2_v", "Slave 2 CPU version", .member .slave2CpuVersion, .none⟩]

/-- The lines of `RatedInformation::format`. -/
def ratedInformationLines : List Line := [
  ⟨"ac_input_rating_voltage", "AC input rating voltage", .tenths .acInputRatingVoltage, .V⟩,
  ⟨"ac_input_rating_current", "AC input rating current", .tenths .acInputRatingCurrent, .A⟩,
  ⟨"ac_output_rating_voltage", "AC output rating voltage", .tenths .acOutputRatingVoltage, .V⟩,
  ⟨"ac_output_rating_freq", "AC output rating frequency", .tenths .acOutputRatingFreq, .Hz⟩,
  ⟨"ac_output_rating_current", "AC output rating current", .tenths .acOutputRatingCurrent, .A⟩,
  ⟨"ac_output_rating_apparent_power", "AC output rating apparent power",
    .member .acOutputRatingApparentPower, .VA⟩,
  ⟨"ac_output_rating_active_power", "AC output rating active power",
    .member .acOutputRatingActivePower, .Wh⟩,
  ⟨"battery_rating_voltage", "Battery rating voltage", .tenths .batteryRatingVoltage, .V⟩,
  ⟨"battery_recharge_voltage", "Battery re-charge voltage", .tenths .batteryRechargeVoltage, .V⟩,
  ⟨"battery_redischarge_voltage", "Battery re-discharge voltage",
    .tenths .batteryRedischargeVoltage, .V⟩,
  ⟨"battery_under_voltage", "Battery under voltage", .tenths .batteryUnderVoltage, .V⟩,
  ⟨"battery_bulk_voltage", "Battery bulk voltage", .tenths .batteryBulkVoltage, .V⟩,
  ⟨"battery_float_voltage", "Battery float voltage", .tenths .batteryFloatVoltage, .V⟩,
  ⟨"battery_type", "Battery type", .member .batteryType, .none⟩,
  ⟨"max_charge_current", "Max charge current", .member .maxChargeCurrent, .A⟩,
  ⟨"max_ac_charge_current", "Max AC charge current", .member .maxAcChargeCurrent, .A⟩,
  ⟨"input_voltage_range", "Input voltage range", .member .inputVoltageRange, .none⟩,
  ⟨"output_source_priority", "Output source priority", .member .outputSourcePriority, .none⟩,
  ⟨"charge_source_priority", "Charge source priority", .member .chargeSourcePriority, .none⟩,
  ⟨"parallel_max_num", "Parallel max num", .member .parallelMaxNum, .none⟩,
  ⟨"machine_type", "Machine type", .member .machineType, .none⟩,
  ⟨"topology", "Topology", .member .topology, .none⟩,
  ⟨"output_mode", "Output mode", .member .outputMode, .none⟩,
  ⟨"solar_power_priority", "Solar power priority", .member .solarPowerPriority, .none⟩,
  ⟨"mppt", "MPPT string", .member .mppt, .none⟩]

/-- The lines of `GeneralStatus::format`. -/
def generalStatusLines : List Line := [
  ⟨"grid_voltage", "Grid voltage", .tenths .gridVoltage, .V⟩,
  ⟨"grid_freq", "Grid frequency", .tenths .gridFreq, .Hz⟩,
  ⟨"ac_output_voltage", "AC output voltage", .tenths .acOutputVoltage, .V⟩,
  ⟨"ac_output_freq", "AC output frequency", .tenths .acOutputFreq, .Hz⟩,
  ⟨"ac_output_apparent_power", "AC output apparent power", .member .acOutputApparentPower, .VA⟩,
  ⟨"ac_output_active_power", "AC output active power", .member .acOutputActivePower, .Wh⟩,
  ⟨"output_load_percent", "Output load percent", .member .outputLoadPercent, .percentage⟩,
  ⟨"battery_voltage", "Battery voltage", .tenths .batteryVoltage, .V⟩,
  ⟨"battery_voltage_scc", "Battery voltage from SCC", .tenths .batteryVoltageScc, .V⟩,
  ⟨"battery_voltage_scc2", "Battery voltage from SCC2", .tenths .batteryVoltageScc2, .V⟩,
  ⟨"battery_discharge_current", "Battery discharge current", .member .batteryDischargeCurrent, .A⟩,
  ⟨"battery_charge_current", "Battery charge current", .member .batteryChargeCurrent, .A⟩,
  ⟨"battery_capacity", "Battery capacity", .member .batteryCapacity, .percentage⟩,
  ⟨"inverter_heat_sink_temp", "Inverter heat sink temperature",
    .member .inverterHeatSinkTemp, .celsius⟩,
  ⟨"mppt1_charger_temp", "MPPT1 charger temperature", .member .mppt1ChargerTemp, .celsius⟩,
  ⟨"mppt2_charger_temp", "MPPT2 charger temperature", .member .mppt2ChargerTemp, .celsius⟩,
  ⟨"pv1_input_power", "PV1 input power", .member .pv1InputPower, .Wh⟩,
  ⟨"pv2_input_power", "PV2 input power", .member .pv2InputPower, .Wh⟩,
  ⟨"pv1_input_voltage", "PV1 input voltage", .tenths .pv1InputVoltage, .V⟩,
  ⟨"pv2_input_voltage", "PV2 input voltage", .tenths .pv2InputVoltage, .V⟩,
  ⟨"configuration_status", "Configuration state", .member .configurationStatus, .none⟩,
  ⟨"mppt1_charger_status", "MPPT1 charger status", .member .mppt1ChargerStatus, .none⟩,
  ⟨"mppt2_charger_status", "MPPT2 charger status", .member .mppt2ChargerStatus, .none⟩,
  ⟨"load_connected", "Load connection", .member .loadConnected, .none⟩,
  ⟨"battery_power_direction", "Battery power direction", .member .batteryPowerDirection, .none⟩,
  ⟨"dc_ac_power_direction", "DC/AC power direction", .member .dcAcPowerDirection, .none⟩,
  ⟨"line_power_direction", "Line power direction", .member .linePowerDirection, .none⟩,
  ⟨"local_parallel_id", "Local parallel ID", .member .localParallelId, .none⟩]

/-- The lines of `WorkingMode::format`. -/
def workingModeLines : List Line := [
  ⟨"mode", "Working mode", .member .mode, .none⟩]

/-- The lines of `FaultsAndWarnings::format`. -/
def faultsAndWarningsLines : List Line := [
  ⟨"fault_code", "Fault code", .member .faultCode, .none⟩,
  ⟨"line_fail", "Line fail", .member .lineFail, .none⟩,
  ⟨"output_circuit_short", "Output circuit short", .member .outputCircuitShort, .none⟩,
  ⟨"inverter_over_temperature", "Inverter over temperature",
    .member .inverterOverTemperature, .none⟩,
  ⟨"fan_lock", "Fan lock", .member .fanLock, .none⟩,
  ⟨"battery_voltage_high", "Battery voltage high", .member .batteryVoltageHigh, .none⟩,
  ⟨"battery_low", "Battery low", .member .batteryLow, .none⟩,
  ⟨"battery_under", "Battery under", .member .batteryUnder, .none⟩,
  ⟨"over_load", "Over load", .member .overLoad, .none⟩,
  ⟨"eeprom_fail", "EEPROM fail", .member .eepromFail, .none⟩,
  ⟨"power_limit", "Power limit", .member .powerLimit, .none⟩,
  ⟨"pv1_voltage_high", "PV1 voltage high", .member .pv1VoltageHigh, .none⟩,
  ⟨"pv2_voltage_high", "PV2 voltage high", .member .pv2VoltageHigh, .none⟩,
  ⟨"mppt1_overload_warning", "MPPT1 overload warning", .member .mppt1OverloadWarning, .none⟩,
  ⟨"mppt2_overload_warning", "MPPT2 overload warning", .member .mppt2OverloadWarning, .none⟩,
  ⟨"battery_too_low_to_charge_for_scc1", "Battery too low to charge for SCC1",
    .member .batteryTooLowToChargeForScc1, .none⟩,
  ⟨"battery_too_low_to_charge_for_scc2", "Battery too low to charge for SCC2",
    .member .batteryTooLowToChargeForScc2, .none⟩]

/-- The lines of `FlagsAndStatuses::format`. -/
def flagsAndStatusesLines : List Line := [
  ⟨"buzzer", "Buzzer", .member .buzzer, .none⟩,
  ⟨"overload_bypass", "Overload bypass function", .member .overloadBypass, .none⟩,
  ⟨"escape_to_default_screen_after_1min_timeout", "Escape to default screen after 1min timeout",
    .member .lcdEscapeToDefaultPageAfter1minTimeout, .none⟩,
  ⟨"overload_restart", "Overload restart", .member .overloadRestart, .none⟩,
  ⟨"over_temp_restart", "Over temperature restart", .member .overTempRestart, .none⟩,
  ⟨"backlight_on", "Backlight on", .member .backlightOn, .none⟩,
  ⟨"alarm_on_on_primary_source_interrupt", "Alarm on on primary source interrupt",
    .member .alarmOnPrimarySourceInterrupt, .none⟩,
  ⟨"fault_code_record", "Fault code record", .member .faultCodeRecord, .none⟩]

/-- The lines of `RatedDefaults::format`. -/
def ratedDefaultsLines : List Line := [
  ⟨"ac_output_voltage", "AC output voltage", .tenths .acOutputVoltage, .V⟩,
  ⟨"ac_output_freq", "AC output frequency", .tenths .acOutputFreq, .Hz⟩,
  ⟨"ac_input_voltage_range", "AC input voltage range", .member .acInputVoltageRange, .none⟩,
  ⟨"battery_under_voltage", "Battery under voltage", .tenths .batteryUnderVoltage, .V⟩,
  ⟨"battery_bulk_voltage", "Charging bulk voltage", .tenths .chargingBulkVoltage, .V⟩,
  ⟨"battery_float_voltage", "Charging float voltage", .tenths .chargingFloatVoltage, .V⟩,
  ⟨"battery_recharge_voltage", "Battery re-charge voltage", .tenths .batteryRechargeVoltage, .V⟩,
  ⟨"battery_redischarge_voltage", "Battery re-discharge voltage",
    .tenths .batteryRedischargeVoltage, .V⟩,
  ⟨"max_charge_current", "Max charge current", .member .maxChargeCurrent, .A⟩,
  ⟨"max_ac_charge_current", "Max AC charge current", .member .maxAcChargeCurrent, .A⟩,
  ⟨"battery_type", "Battery type", .member .batteryType, .none⟩,
  ⟨"output_source_priority", "Output source priority", .member .outputSourcePriority, .none⟩,
  ⟨"charge_source_priority", "Charge source priority", .member .chargeSourcePriority, .none⟩,
  ⟨"solar_power_priority", "Solar power priority", .member .solarPowerPriority, .none⟩,
  ⟨"machine_type", "Machine type", .member .machineType, .none⟩,
  ⟨"output_mode", "Output mode", .member .outputMode, .none⟩,
  ⟨"buzzer_flag", "Buzzer flag", .member .flagBuzzer, .none⟩,
  ⟨"overload_bypass_flag", "Overload bypass function flag", .member .flagOverloadBypass, .none⟩,
  ⟨"escape_to_default_screen_after_1min_timeout_flag",
    "Escape to default screen after 1min timeout flag",
    .member .flagLcdEscapeToDefaultPageAfter1minTimeout, .none⟩,
  ⟨"overload_restart_flag", "Overload restart flag", .member .flagOverloadRestart, .none⟩,
  ⟨"over_temp_restart_flag", "Over temperature restart flag", .member .flagOverTempRestart, .none⟩,
  ⟨"backlight_on_flag", "Backlight on flag", .member .flagBacklightOn, .none⟩,
  ⟨"alarm_on_on_primary_source_interrupt_flag", "Alarm on on primary source interrupt flag",
    .member .flagAlarmOnPrimarySourceInterrupt, .none⟩,
  ⟨"fault_code_record_flag", "Fault code record flag", .member .flagFaultCodeRecord, .none⟩]

/-- The lines of `ParallelRatedInformation::format`. -/
def parallelRatedInformationLines : List Line := [
  ⟨"parallel_connection_status", "Parallel connection status",
    .member .parallelConnectionStatus, .none⟩,
  ⟨"serial_number", "Serial number", .member .serialNumber, .none⟩,
  ⟨"charge_source_priority", "Charge source priority", .member .chargeSourcePriority, .none⟩,
  ⟨"max_charge_current", "Max charge current", .member .maxChargeCurrent, .A⟩,
  ⟨"max_ac_charge_current", "Max AC charge current", .member .maxAcChargeCurrent, .A⟩,
  ⟨"output_mode", "Output mode", .member .outputMode, .none⟩]

/-- The lines of `ParallelGeneralStatus::format`, less the last one. -/
def parallelGeneralStatusLines : List Line := [
  ⟨"parallel_connection_status", "Parallel connection status",
    .member .parallelConnectionStatus, .none⟩,
  ⟨"mode", "Working mode", .member .workMode, .none⟩,
  ⟨"fault_code", "Fault code", .member .faultCode, .none⟩,
  ⟨"grid_voltage", "Grid voltage", .tenths .gridVoltage, .V⟩,
  ⟨"grid_freq", "Grid frequency", .tenths .gridFreq, .Hz⟩,
  ⟨"ac_output_voltage", "AC output voltage", .tenths .acOutputVoltage, .V⟩,
  ⟨"ac_output_freq", "AC output frequency", .tenths .acOutputFreq, .Hz⟩,
  ⟨"ac_output_apparent_power", "AC output apparent power", .member .acOutputApparentPower, .VA⟩,
  ⟨"ac_output_active_power", "AC output active power", .member .acOutputActivePower, .Wh⟩,
  ⟨"total_ac_output_apparent_power", "Total AC output apparent power",
    .member .totalAcOutputApparentPower, .VA⟩,
  ⟨"total_ac_output_active_power", "Total AC output active power",
    .member .totalAcOutputActivePower, .Wh⟩,
  ⟨"output_load_percent", "Output load percent", .member .outputLoadPercent, .percentage⟩,
  ⟨"total_output_load_percent", "Total output load percent",
    .member .totalOutputLoadPercent, .percentage⟩,
  ⟨"battery_voltage", "Battery voltage", .tenths .batteryVoltage, .V⟩,
  ⟨"battery_discharge_current", "Battery discharge current", .member .batteryDischargeCurrent, .A⟩,
  ⟨"battery_charge_current", "Battery charge current", .member .batteryChargeCurrent, .A⟩,
  ⟨"total_battery_charge_current", "Total battery charge current",
    .member .totalBatteryChargeCurrent, .A⟩,
  ⟨"battery_capacity", "Battery capacity", .member .batteryCapacity, .percentage⟩,
  ⟨"pv1_input_power", "PV1 input power", .member .pv1InputPower, .Wh⟩,
  ⟨"pv2_input_power", "PV2 input power", .member .pv2InputPower, .Wh⟩,
  ⟨"pv1_input_voltage", "PV1 input voltage", .tenths .pv1InputVoltage, .V⟩,
  ⟨"pv2_input_voltage", "PV2 input voltage", .tenths .pv2InputVoltage, .V⟩,
  ⟨"mppt1_charger_status", "MPPT1 charger status", .member .mppt1ChargerStatus, .none⟩,
  ⟨"mppt2_charger_status", "MPPT2 charger status", .member .mppt2ChargerStatus, .none⟩,
  ⟨"load_connected", "Load connection", .member .loadConnected, .none⟩,
  ⟨"battery_power_direction", "Battery power direction", .member .batteryPowerDirection, .none⟩,
  ⟨"dc_ac_power_direction", "DC/AC power direction", .member .dcAcPowerDirection, .none⟩,
  ⟨"line_power_direction", "Line power direction", .member .linePowerDirection, .none⟩]

/-- The line that is pushed when `max_temp` is present. -/
def maxTempLine : Line := ⟨"max_temp", "Max. temperature", .member .maxTemp, .none⟩

/-- The lines of `ACChargeTimeBucket::format`. -/
def acChargeTimeBucketLines : List Line := [
  ⟨"start_time", "Start time", .time .startH .startM, .none⟩,
  ⟨"end_time", "End time", .time .endH .endM, .none⟩]

/-- A member; those that are not decoded keep their initial value. -/
def memberVal (ms : List (Member × Val)) (m : Member) : Val := (ms.lookup m).getD (.unsigned 0)

/-- The number in a member. -/
def Val.number : Val → ℕ
  | unsigned n => n
  | ushort n => n
  | ulong n => n
  | _ => 0

/-- The conversion to `VariantHolder`; no line shows a `char`. -/
def Val.variant : Val → Variant
  | unsigned n => .unsigned n
  | ushort n => .ushort n
  | ulong n => .ulong n
  | bool b => .bool b
  | char b => .unsigned b.toNat
  | text s => .string s
  | enum v => .enum v

/-- `get_time`. -/
def getTime (h m : ℕ) : Bytes := fixed 2 h ++ ascii ":" ++ fixed 2 m

/-- The value a line shows. -/
def Shown.value (ms : List (Member × Val)) : Shown → Variant
  | member m => (memberVal ms m).variant
  | tenths m => .double (memberVal ms m).number
  | time h m => .string (getTime (memberVal ms h).number (memberVal ms m).number)

/-- A table with the given lines. -/
def tableOf (lines : List Line) (ms : List (Member × Val)) : Formattable Variant :=
  .table (lines.map (fun l => ⟨l.key, l.title, l.shown.value ms, l.unit⟩))

/-- The members of a response. -/
def Decoded.fields : Decoded → List (Member × Val)
  | members ms => ms
  | _ => []

@[simp] theorem Decoded.fields_members (ms : List (Member × Val)) : (members ms).fields = ms := rfl

/-- `amps` of a response. -/
def Decoded.vector : Decoded → List ℕ
  | amps ns => ns
  | _ => []

/-- `max_temp_present`. -/
def maxTempPresent (ms : List (Member × Val)) : Bool := (ms.lookup .maxTemp).isSome

/-- `format` of the response class of a command. -/
def format (c : CommandType) (raw : Bytes) (d : Decoded) : Formattable Variant :=
  match c with
  | .getProtocolID => tableOf protocolIDLines d.fields
  | .getCurrentTime => tableOf currentTimeLines d.fields
  | .getTotalGenerated | .getYearGenerated | .getMonthGenerated | .getDayGenerated =>
      tableOf totalGeneratedLines d.fields
  | .getSerialNumber => tableOf serialNumberLines d.fields
  | .getCPUVersion => tableOf cpuVersionLines d.fields
  | .getRatedInformation => tableOf ratedInformationLines d.fields
  | .getGeneralStatus => tableOf generalStatusLines d.fields
  | .getWorkingMode => tableOf workingModeLines d.fields
  | .getFaultsAndWarnings => tableOf faultsAndWarningsLines d.fields
  | .getFlagsAndStatuses => tableOf flagsAndStatusesLines d.fields
  | .getRatedDefaults => tableOf ratedDefaultsLines d.fields
  | .getAllowedChargeCurrents | .getAllowedACChargeCurrents =>
      .list (d.vector.map .unsigned)
  | .getParallelRatedInformation => tableOf parallelRatedInformationLines d.fields
  | .getParallelGeneralStatus =>
      if maxTempPresent d.fields then
        tableOf (parallelGeneralStatusLines ++ [maxTempLine]) d.fields
      else tableOf parallelGeneralStatusLines d.fields
  | .getACChargeTimeBucket | .getACSupplyTimeBucket => tableOf acChargeTimeBucketLines d.fields
  | _ => .status (setGet raw) []

theorem format_asciiKeys (c : CommandType) (raw : Bytes) (d : Decoded) :
    (format c raw d).AsciiKeys := by
  have htable {lines : List Line} (h : ∀ l ∈ lines, isAscii (ascii l.key) = true) :
      (tableOf lines d.fields).AsciiKeys := by
    intro item hitem
    obtain ⟨l, hl, rfl⟩ := List.mem_map.mp hitem
    exact h l hl
  cases c with
  | getProtocolID => exact htable (by decide)
  | getCurrentTime => exact htable (by decide)
  | getTotalGenerated => exact htable (by decide)
  | getYearGenerated => exact htable (by decide)
  | getMonthGenerated => exact htable (by decide)
  | getDayGenerated => exact htable (by decide)
  | getSerialNumber => exact htable (by decide)
  | getCPUVersion => exact htable (by decide)
  | getRatedInformation => exact htable (by decide)
  | getGeneralStatus => exact htable (by decide)
  | getWorkingMode => exact htable (by decide)
  | getFaultsAndWarnings => exact htable (by decide)
  | getFlagsAndStatuses => exact htable (by decide)
  | getRatedDefaults => exact htable (by decide)
  | getParallelRatedInformation => exact htable (by decide)
  | getParallelGeneralStatus =>
      unfold format
      dsimp only
      split_ifs
      · exact htable (by decide)
      · exact htable (by decide)
  | getACChargeTimeBucket => exact htable (by decide)
  | getACSupplyTimeBucket => exact htable (by decide)
  | _ => exact trivial

/-- `ErrorResponse::format`. -/
def errorFormat (error : Bytes) : Formattable Variant := .status false error

example : putTenths 2305 = ascii "230.5" := by decide
example : putTenths 4294967295 = ascii "4.29497e+08" := by decide +kernel

end InverterTools.P18
