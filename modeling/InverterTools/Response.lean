import InverterTools.Commands

/-! # Decoding of device answers (`p18/response.cc`)

An answer is a buffer of 256 bytes of which the first `rawSize` came from the device.  `validate`
and `unpack` look at single bytes of it, so they are `Probe` programs.  Five of the response types
are decoded at fixed offsets, the others from a comma-separated list; for these a `ListLayout` has
the two lists of the source, the lengths of the items and the assignments `name = list[index]`.
Taking an element behind the end of the list is undefined. -/

namespace InverterTools.P18

/-- `FieldLength`. -/
structure FieldLength where
  min : ℕ
  max : ℕ
deriving DecidableEq, Repr

instance (n : ℕ) : OfNat FieldLength n := ⟨⟨n, n⟩⟩

namespace FieldLength

/-- `FieldLength::validate`. -/
def validate (l : FieldLength) (len : ℕ) : Bool := decide (l.min ≤ len ∧ len ≤ l.max)

/-- `operator<<`. -/
def put (l : FieldLength) : Bytes :=
  if l.min = l.max then decimal l.min
  else ascii "[" ++ decimal l.min ++ ascii ", " ++ decimal l.max ++ ascii "]"

end FieldLength

/-- The members of the response classes. -/
inductive Member where
  | mainCpuVersion | slave1CpuVersion | slave2CpuVersion | acInputRatingVoltage
  | acInputRatingCurrent | acOutputRatingVoltage | acOutputRatingFreq | acOutputRatingCurrent
  | acOutputRatingApparentPower | acOutputRatingActivePower | batteryRatingVoltage
  | batteryRechargeVoltage | batteryRedischargeVoltage | batteryUnderVoltage | batteryBulkVoltage
  | batteryFloatVoltage | batteryType | maxAcChargeCurrent | maxChargeCurrent | inputVoltageRange
  | outputSourcePriority | chargeSourcePriority | parallelMaxNum | machineType | topology
  | outputMode | solarPowerPriority | mppt | gridVoltage | gridFreq | acOutputVoltage
  | acOutputFreq | acOutputApparentPower | acOutputActivePower | outputLoadPercent
  | batteryVoltage | batteryVoltageScc | batteryVoltageScc2 | batteryDischargeCurrent
  | batteryChargeCurrent | batteryCapacity | inverterHeatSinkTemp | mppt1ChargerTemp
  | mppt2ChargerTemp | pv1InputPower | pv2InputPower | pv1InputVoltage | pv2InputVoltage
  | configurationStatus | mppt1ChargerStatus | mppt2ChargerStatus | loadConnected
  | batteryPowerDirection | dcAcPowerDirection | linePowerDirection | localParallelId | faultCode
  | lineFail | outputCircuitShort | inverterOverTemperature | fanLock | batteryVoltageHigh
  | batteryLow | batteryUnder | overLoad | eepromFail | powerLimit | pv1VoltageHigh
  | pv2VoltageHigh | mppt1OverloadWarning | mppt2OverloadWarning | batteryTooLowToChargeForScc1
  | batteryTooLowToChargeForScc2 | buzzer | overloadBypass
  | lcdEscapeToDefaultPageAfter1minTimeout | overloadRestart | overTempRestart | backlightOn
  | alarmOnPrimarySourceInterrupt | faultCodeRecord | reserved | acInputVoltageRange
  | chargingFloatVoltage | chargingBulkVoltage | flagBuzzer | flagOverloadRestart
  | flagOverTempRestart | flagBacklightOn | flagAlarmOnPrimarySourceInterrupt
  | flagFaultCodeRecord | flagOverloadBypass | flagLcdEscapeToDefaultPageAfter1minTimeout
  | parallelConnectionStatus | serialNumberValidLength | serialNumber | workMode
  | totalAcOutputApparentPower | totalAcOutputActivePower | totalOutputLoadPercent
  | totalBatteryChargeCurrent | maxTemp | startH | startM | endH | endM | id | year | month | day
  | hour | minute | second | wh | mode
deriving DecidableEq, Repr

/-- A decoded member. -/
inductive Val where
  | unsigned (n : ℕ)
  | ushort (n : ℕ)
  | ulong (n : ℕ)
  | bool (b : Bool)
  | char (b : UInt8)
  | text (s : Bytes)
  | enum (v : EnumVal)
deriving DecidableEq, Repr

/-- How `unpack` reads an item. -/
inductive Kind where
  | number
  | enum (type : EnumType)
  | flag
  | char
  | text
deriving DecidableEq, Repr

/-- The assignment of an item to its member. -/
def Kind.decode (k : Kind) (s : Bytes) : Except Exn Val :=
  match k with
  | number => Val.unsigned <$> stou s
  | enum type => (fun n => Val.enum (.cast type n)) <$> stou s
  | flag => (fun n => Val.bool (decide (0 < n))) <$> stou s
  | char => .ok (.char ((cstr s).headD 0))
  | text => .ok (.text s)

/-- An assignment `name = list[index]`, with the way the item is read. -/
structure Assignment where
  name : Member
  index : ℕ
  kind : Kind
deriving DecidableEq, Repr

/-- The two lists of an `unpack`: the lengths that it gives to `getList`, and its assignments, which
take every element once and in order. -/
structure ListLayout where
  lengths : List FieldLength
  assignments : List Assignment
  indices : assignments.map Assignment.index = List.range lengths.length

/-- An item of a list: the member it goes to, its length and how it is read. -/
structure Item where
  name : Member
  length : FieldLength
  kind : Kind
deriving DecidableEq, Repr

/-- What stands at each place of the list. -/
def ListLayout.items (l : ListLayout) : List Item :=
  List.zipWith (fun a length => ⟨a.name, length, a.kind⟩) l.assignments l.lengths

/-- What `unpack` stores: members with their values, or the vector of amperes. -/
inductive Decoded where
  | members (ms : List (Member × Val))
  | amps (ns : List ℕ)
  | nothing
deriving DecidableEq, Repr

/-- The buffer of 256 bytes that starts with the payload and ends with `fill`. -/
def bufferWith (payload : Bytes) (fill : UInt8) : Bytes :=
  payload ++ List.replicate (256 - payload.length) fill

/-! ### Layouts -/

/-- The list of `CPUVersion::unpack`. -/
def cpuVersion : ListLayout where
  lengths := [5, 5, 5]
  assignments := [
    ⟨.mainCpuVersion, 0, .text⟩,
    ⟨.slave1CpuVersion, 1, .text⟩,
    ⟨.slave2CpuVersion, 2, .text⟩]
  indices := rfl

/-- The list of `RatedInformation::unpack`. -/
def ratedInformation : ListLayout where
  lengths := [4, 3, 4, 3, 3, 4, 4, 3, 3, 3, 3, 3, 3, 1, ⟨2, 3⟩, 3, 1, 1, 1, 1, 1, 1, 1, 1, 1]
  assignments := [
    ⟨.acInputRatingVoltage, 0, .number⟩,
    ⟨.acInputRatingCurrent, 1, .number⟩,
    ⟨.acOutputRatingVoltage, 2, .number⟩,
    ⟨.acOutputRatingFreq, 3, .number⟩,
    ⟨.acOutputRatingCurrent, 4, .number⟩,
    ⟨.acOutputRatingApparentPower, 5, .number⟩,
    ⟨.acOutputRatingActivePower, 6, .number⟩,
    ⟨.batteryRatingVoltage, 7, .number⟩,
    ⟨.batteryRechargeVoltage, 8, .number⟩,
    ⟨.batteryRedischargeVoltage, 9, .number⟩,
    ⟨.batteryUnderVoltage, 10, .number⟩,
    ⟨.batteryBulkVoltage, 11, .number⟩,
    ⟨.batteryFloatVoltage, 12, .number⟩,
    ⟨.batteryType, 13, .enum .batteryType⟩,
    ⟨.maxAcChargeCurrent, 14, .number⟩,
    ⟨.maxChargeCurrent, 15, .number⟩,
    ⟨.inputVoltageRange, 16, .enum .inputVoltageRange⟩,
    ⟨.outputSourcePriority, 17, .enum .outputSourcePriority⟩,
    ⟨.chargeSourcePriority, 18, .enum .chargeSourcePriority⟩,
    ⟨.parallelMaxNum, 19, .number⟩,
    ⟨.machineType, 20, .enum .machineType⟩,
    ⟨.topology, 21, .enum .topology⟩,
    ⟨.outputMode, 22, .enum .outputMode⟩,
    ⟨.solarPowerPriority, 23, .enum .solarPowerPriority⟩,
    ⟨.mppt, 24, .text⟩]
  indices := rfl

/-- The list of `GeneralStatus::unpack`. -/
def generalStatus : ListLayout where
  lengths := [4, 3, 4, 3, 4, 4, 3, 3, 3, 3, 3, 3, 3, 3, 3, 3, 4, 4, 4, 4, 1, 1, 1, 1, 1, 1, 1, 1]
  assignments := [
    ⟨.gridVoltage, 0, .number⟩,
    ⟨.gridFreq, 1, .number⟩,
    ⟨.acOutputVoltage, 2, .number⟩,
    ⟨.acOutputFreq, 3, .number⟩,
    ⟨.acOutputApparentPower, 4, .number⟩,
    ⟨.acOutputActivePower, 5, .number⟩,
    ⟨.outputLoadPercent, 6, .number⟩,
    ⟨.batteryVoltage, 7, .number⟩,
    ⟨.batteryVoltageScc, 8, .number⟩,
    ⟨.batteryVoltageScc2, 9, .number⟩,
    ⟨.batteryDischargeCurrent, 10, .number⟩,
    ⟨.batteryChargeCurrent, 11, .number⟩,
    ⟨.batteryCapacity, 12, .number⟩,
    ⟨.inverterHeatSinkTemp, 13, .number⟩,
    ⟨.mppt1ChargerTemp, 14, .number⟩,
    ⟨.mppt2ChargerTemp, 15, .number⟩,
    ⟨.pv1InputPower, 16, .number⟩,
    ⟨.pv2InputPower, 17, .number⟩,
    ⟨.pv1InputVoltage, 18, .number⟩,
    ⟨.pv2InputVoltage, 19, .number⟩,
    ⟨.configurationStatus, 20, .enum .configurationStatus⟩,
    ⟨.mppt1ChargerStatus, 21, .enum .mpptChargerStatus⟩,
    ⟨.mppt2ChargerStatus, 22, .enum .mpptChargerStatus⟩,
    ⟨.loadConnected, 23, .enum .loadConnectionStatus⟩,
    ⟨.batteryPowerDirection, 24, .enum .batteryPowerDirection⟩,
    ⟨.dcAcPowerDirection, 25, .enum .dcACPowerDirection⟩,
    ⟨.linePowerDirection, 26, .enum .linePowerDirection⟩,
    ⟨.localParallelId, 27, .number⟩]
  indices := rfl

/-- The list of `FaultsAndWarnings::unpack`. -/
def faultsAndWarnings : ListLayout where
  lengths := [2, 1, 1, 1, 1, 1, 1, 1, 1, 1, 1, 1, 1, 1, 1, 1, 1]
  assignments := [
    ⟨.faultCode, 0, .number⟩,
    ⟨.lineFail, 1, .flag⟩,
    ⟨.outputCircuitShort, 2, .flag⟩,
    ⟨.inverterOverTemperature, 3, .flag⟩,
    ⟨.fanLock, 4, .flag⟩,
    ⟨.batteryVoltageHigh, 5, .flag⟩,
    ⟨.batteryLow, 6, .flag⟩,
    ⟨.batteryUnder, 7, .flag⟩,
    ⟨.overLoad, 8, .flag⟩,
    ⟨.eepromFail, 9, .flag⟩,
    ⟨.powerLimit, 10, .flag⟩,
    ⟨.pv1VoltageHigh, 11, .flag⟩,
    ⟨.pv2VoltageHigh, 12, .flag⟩,
    ⟨.mppt1OverloadWarning, 13, .flag⟩,
    ⟨.mppt2OverloadWarning, 14, .flag⟩,
    ⟨.batteryTooLowToChargeForScc1, 15, .flag⟩,
    ⟨.batteryTooLowToChargeForScc2, 16, .flag⟩]
  indices := rfl

/-- The list of `FlagsAndStatuses::unpack`. -/
def flagsAndStatuses : ListLayout where
  lengths := [1, 1, 1, 1, 1, 1, 1, 1, 1]
  assignments := [
    ⟨.buzzer, 0, .flag⟩,
    ⟨.overloadBypass, 1, .flag⟩,
    ⟨.lcdEscapeToDefaultPageAfter1minTimeout, 2, .flag⟩,
    ⟨.overloadRestart, 3, .flag⟩,
    ⟨.overTempRestart, 4, .flag⟩,
    ⟨.backlightOn, 5, .flag⟩,
    ⟨.alarmOnPrimarySourceInterrupt, 6, .flag⟩,
    ⟨.faultCodeRecord, 7, .flag⟩,
    ⟨.reserved, 8, .char⟩]
  indices := rfl

/-- The list of `RatedDefaults::unpack`. -/
def ratedDefaults : ListLayout where
  lengths := [4, 3, 1, 3, 3, 3, 3, 3, 3, 2, 1, 1, 1, 1, 1, 1, 1, 1, 1, 1, 1, 1, 1, 1]
  assignments := [
    ⟨.acOutputVoltage, 0, .number⟩,
    ⟨.acOutputFreq, 1, .number⟩,
    ⟨.acInputVoltageRange, 2, .enum .inputVoltageRange⟩,
    ⟨.batteryUnderVoltage, 3, .number⟩,
    ⟨.chargingFloatVoltage, 4, .number⟩,
    ⟨.chargingBulkVoltage, 5, .number⟩,
    ⟨.batteryRechargeVoltage, 6, .number⟩,
    ⟨.batteryRedischargeVoltage, 7, .number⟩,
    ⟨.maxChargeCurrent, 8, .number⟩,
    ⟨.maxAcChargeCurrent, 9, .number⟩,
    ⟨.batteryType, 10, .enum .batteryType⟩,
    ⟨.outputSourcePriority, 11, .enum .outputSourcePriority⟩,
    ⟨.chargeSourcePriority, 12, .enum .chargeSourcePriority⟩,
    ⟨.solarPowerPriority, 13, .enum .solarPowerPriority⟩,
    ⟨.machineType, 14, .enum .machineType⟩,
    ⟨.outputMode, 15, .enum .outputMode⟩,
    ⟨.flagBuzzer, 16, .flag⟩,
    ⟨.flagOverloadRestart, 17, .flag⟩,
    ⟨.flagOverTempRestart, 18, .flag⟩,
    ⟨.flagBacklightOn, 19, .flag⟩,
    ⟨.flagAlarmOnPrimarySourceInterrupt, 20, .flag⟩,
    ⟨.flagFaultCodeRecord, 21, .flag⟩,
    ⟨.flagOverloadBypass, 22, .flag⟩,
    ⟨.flagLcdEscapeToDefaultPageAfter1minTimeout, 23, .flag⟩]
  indices := rfl

/-- The list of `ParallelRatedInformation::unpack`; the serial number is cut afterwards. -/
def parallelRatedInformation : ListLayout where
  lengths := [1, 2, 20, 1, 3, ⟨2, 3⟩, 1]
  assignments := [
    ⟨.parallelConnectionStatus, 0, .enum .parallelConnectionStatus⟩,
    ⟨.serialNumberValidLength, 1, .number⟩,
    ⟨.serialNumber, 2, .text⟩,
    ⟨.chargeSourcePriority, 3, .enum .chargeSourcePriority⟩,
    ⟨.maxChargeCurrent, 4, .number⟩,
    ⟨.maxAcChargeCurrent, 5, .number⟩,
    ⟨.outputMode, 6, .enum .outputMode⟩]
  indices := rfl

/-- The list of `ParallelGeneralStatus::unpack`; the last item may be missing. -/
def parallelGeneralStatus : ListLayout where
  lengths := [1, 1, 2, 4, 3, 4, 3, 4, 4, 5, 5, 3, 3, 3, 3, 3, 3, 3, 4, 4, 4, 4, 1, 1, 1, 1, 1, 1, 3]
  assignments := [
    ⟨.parallelConnectionStatus, 0, .enum .parallelConnectionStatus⟩,
    ⟨.workMode, 1, .enum .workingMode⟩,
    ⟨.faultCode, 2, .number⟩,
    ⟨.gridVoltage, 3, .number⟩,
    ⟨.gridFreq, 4, .number⟩,
    ⟨.acOutputVoltage, 5, .number⟩,
    ⟨.acOutputFreq, 6, .number⟩,
    ⟨.acOutputApparentPower, 7, .number⟩,
    ⟨.acOutputActivePower, 8, .number⟩,
    ⟨.totalAcOutputApparentPower, 9, .number⟩,
    ⟨.totalAcOutputActivePower, 10, .number⟩,
    ⟨.outputLoadPercent, 11, .number⟩,
    ⟨.totalOutputLoadPercent, 12, .number⟩,
    ⟨.batteryVoltage, 13, .number⟩,
    ⟨.batteryDischargeCurrent, 14, .number⟩,
    ⟨.batteryChargeCurrent, 15, .number⟩,
    ⟨.totalBatteryChargeCurrent, 16, .number⟩,
    ⟨.batteryCapacity, 17, .number⟩,
    ⟨.pv1InputPower, 18, .number⟩,
    ⟨.pv2InputPower, 19, .number⟩,
    ⟨.pv1InputVoltage, 20, .number⟩,
    ⟨.pv2InputVoltage, 21, .number⟩,
    ⟨.mppt1ChargerStatus, 22, .enum .mpptChargerStatus⟩,
    ⟨.mppt2ChargerStatus, 23, .enum .mpptChargerStatus⟩,
    ⟨.loadConnected, 24, .enum .loadConnectionStatus⟩,
    ⟨.batteryPowerDirection, 25, .enum .batteryPowerDirection⟩,
    ⟨.dcAcPowerDirection, 26, .enum .dcACPowerDirection⟩,
    ⟨.linePowerDirection, 27, .enum .linePowerDirection⟩,
    ⟨.maxTemp, 28, .number⟩]
  indices := rfl

/-- The demangled name of the response class of a get command. -/
def typeName : CommandType → String
  | .getProtocolID => "p18::response_type::ProtocolID"
  | .getCurrentTime => "p18::response_type::CurrentTime"
  | .getTotalGenerated => "p18::response_type::TotalGenerated"
  | .getYearGenerated => "p18::response_type::YearGenerated"
  | .getMonthGenerated => "p18::response_type::MonthGenerated"
  | .getDayGenerated => "p18::response_type::DayGenerated"
  | .getSerialNumber => "p18::response_type::SerialNumber"
  | .getCPUVersion => "p18::response_type::CPUVersion"
  | .getRatedInformation => "p18::response_type::RatedInformation"
  | .getGeneralStatus => "p18::response_type::GeneralStatus"
  | .getWorkingMode => "p18::response_type::WorkingMode"
  | .getFaultsAndWarnings => "p18::response_type::FaultsAndWarnings"
  | .getFlagsAndStatuses => "p18::response_type::FlagsAndStatuses"
  | .getRatedDefaults => "p18::response_type::RatedDefaults"
  | .getAllowedChargeCurrents => "p18::response_type::AllowedChargeCurrents"
  | .getAllowedACChargeCurrents => "p18::response_type::AllowedACChargeCurrents"
  | .getParallelRatedInformation => "p18::response_type::ParallelRatedInformation"
  | .getParallelGeneralStatus => "p18::response_type::ParallelGeneralStatus"
  | .getACChargeTimeBucket => "p18::response_type::ACChargeTimeBucket"
  | .getACSupplyTimeBucket => "p18::response_type::ACSupplyTimeBucket"
  | _ => "p18::response_type::SetResponse"

/-! ### Validation -/

/-- `GetResponse::validate`. -/
def getValidate (rawSize : ℕ) : Probe Exn Bool :=
  if rawSize < 5 then pure false
  else do
    let b0 ← Probe.byte 0
    if b0 ≠ 0x5E then pure false
    else
      let b1 ← Probe.byte 1
      if b1 ≠ 0x44 then pure false
      else
        let lenbuf ← Probe.range 2 3
        let len ← Probe.lift (stoul (cstr lenbuf))
        pure (decide ((len + 2 ^ 64 - 5) % 2 ^ 64 ≤ rawSize))

/-- `SetResponse::validate`. -/
def setValidate (rawSize : ℕ) : Probe Exn Bool :=
  if rawSize < 2 then pure false
  else do
    let b0 ← Probe.byte 0
    if b0 ≠ 0x5E then pure false
    else
      let b1 ← Probe.byte 1
      pure (b1 == 0x30 || b1 == 0x31)

/-- `SetResponse::get`. -/
def setGet (raw : Bytes) : Bool := decide (raw[1]? = some 0x31)

/-- `validate` of the response class of a command. -/
def validate (c : CommandType) (rawSize : ℕ) : Probe Exn Bool :=
  if c.isSet then setValidate rawSize else getValidate rawSize

/-! ### Decoding of lists -/

/-- The `ParseError`s of `getList`. -/
def parseError (c : CommandType) (text : Bytes) : Exn :=
  ⟨.parseError, ascii "while parsing " ++ ascii (typeName c) ++ ascii ": " ++ text⟩

/-- The second loop of `getList`; items that are not expected are only logged. -/
def checkItems (c : CommandType) : ℕ → List FieldLength → List Bytes → Except Exn Unit
  | _, [], _ => .ok ()
  | _, _, [] => .ok ()
  | i, l :: ls, s :: list =>
      if l.validate s.length then checkItems c (i + 1) ls list
      else .error (parseError c (ascii "item " ++ decimal i ++ ascii " is expected to be " ++
        l.put ++ ascii " characters long, " ++ ascii "got " ++ decimal s.length ++
        ascii " characters"))

/-- The checks of `getList`. -/
def checkList (c : CommandType) (itemLengths : List FieldLength) (expectAtLeast : ℕ)
    (list : List Bytes) : Except Exn Unit :=
  if itemLengths = [] then .ok ()
  else if list.length < expectAtLeast then
    .error (parseError c (ascii "list is expected to be " ++ decimal expectAtLeast ++
      ascii " items long, " ++ ascii "got only " ++ decimal list.length ++ ascii " items"))
  else checkItems c 0 itemLengths list

/-- `getList`. -/
def getList (c : CommandType) (rawSize : ℕ) (itemLengths : List FieldLength)
    (expectAtLeast : ℕ) : Probe Exn (List Bytes) := do
  let buf ← Probe.range 5 (rawSize - 5)
  let list := split buf 0x2C
  Probe.lift (checkList c itemLengths expectAtLeast list)
  pure list

/-- `list[i]`. -/
def elementAt (list : List Bytes) (i : ℕ) : Probe Exn Bytes :=
  match list[i]? with
  | some s => pure s
  | none => .fault

/-- The assignments of `unpack`. -/
def assign (list : List Bytes) : List Assignment → Probe Exn (List (Member × Val))
  | [] => pure []
  | a :: assignments => do
      let s ← elementAt list a.index
      let v ← Probe.lift (a.kind.decode s)
      let ms ← assign list assignments
      pure ((a.name, v) :: ms)

/-- `unpack` of a class whose list has exactly the items of a layout. -/
def unpackList (c : CommandType) (rawSize : ℕ) (l : ListLayout) : Probe Exn Decoded := do
  let list ← getList c rawSize l.lengths l.lengths.length
  let ms ← assign list l.assignments
  pure (.members ms)

/-- `std::string(list[2], 0, serial_number_valid_length)`. -/
def cutSerialNumber : List (Member × Val) → List (Member × Val)
  | a :: (n, .unsigned len) :: (k, .text s) :: ms =>
      a :: (n, .unsigned len) :: (k, .text (s.take len)) :: ms
  | ms => ms

/-- `ParallelRatedInformation::unpack`. -/
def unpackParallelRatedInformation (c : CommandType) (rawSize : ℕ) : Probe Exn Decoded := do
  let list ← getList c rawSize parallelRatedInformation.lengths
    parallelRatedInformation.lengths.length
  let ms ← assign list parallelRatedInformation.assignments
  pure (.members (cutSerialNumber ms))

/-- `ParallelGeneralStatus::unpack`. -/
def unpackParallelGeneralStatus (c : CommandType) (rawSize : ℕ) : Probe Exn Decoded := do
  let list ← getList c rawSize parallelGeneralStatus.lengths 28
  let ms ← assign list (parallelGeneralStatus.assignments.take 28)
  if 29 ≤ list.length then do
    let max_temp ← assign list (parallelGeneralStatus.assignments.drop 28)
    pure (.members (ms ++ max_temp))
  else pure (.members ms)

/-- `AllowedChargeCurrents::unpack`. -/
def unpackAllowedChargeCurrents (c : CommandType) (rawSize : ℕ) : Probe Exn Decoded := do
  let list ← getList c rawSize [] 0
  let amps ← Probe.lift (list.mapM stou)
  pure (.amps amps)

/-- `s.substr(pos, n)`. -/
def substr (s : Bytes) (pos n : ℕ) : Except Exn Bytes :=
  if s.length < pos then
    .error ⟨.outOfRange, ascii "basic_string::substr: __pos (which is " ++ decimal pos ++
      ascii ") > this->size() (which is " ++ decimal s.length ++ ascii ")"⟩
  else .ok ((s.drop pos).take n)

/-- One number of `ACChargeTimeBucket::unpack`. -/
def bucketPart (list : List Bytes) (i pos : ℕ) : Probe Exn ℕ := do
  let s ← elementAt list i
  let part ← Probe.lift (substr s pos 2)
  Probe.lift (stouh part)

/-- `ACChargeTimeBucket::unpack`. -/
def unpackACChargeTimeBucket (c : CommandType) (rawSize : ℕ) : Probe Exn Decoded := do
  let list ← getList c rawSize [4, 4] 2
  let start_h ← bucketPart list 0 0
  let start_m ← bucketPart list 0 2
  let end_h ← bucketPart list 1 0
  let end_m ← bucketPart list 1 2
  pure (.members [(.startH, .ushort start_h), (.startM, .ushort start_m),
    (.endH, .ushort end_h), (.endM, .ushort end_m)])

/-! ### Decoding at fixed offsets -/

/-- `ProtocolID::unpack`; `strncpy` stops behind a NUL. -/
def unpackProtocolID : Probe Exn Decoded := do
  let b0 ← Probe.byte 5
  let s ← if b0 = 0 then pure [] else do
    let b1 ← Probe.byte 6
    pure (cstr [b0, b1])
  let id ← Probe.lift (stou s)
  pure (.members [(.id, .unsigned id)])

/-- `stou(std::string(data + off, n))`. -/
def numberAt (off n : ℕ) : Probe Exn ℕ := do
  let buf ← Probe.range (5 + off) n
  Probe.lift (stou buf)

/-- `CurrentTime::unpack`. -/
def unpackCurrentTime : Probe Exn Decoded := do
  let year ← numberAt 0 4
  let month ← numberAt 4 2
  let day ← numberAt 6 2
  let hour ← numberAt 8 2
  let minute ← numberAt 10 2
  let second ← numberAt 12 2
  pure (.members [(.year, .unsigned year), (.month, .ushort (toUShort month)),
    (.day, .ushort (toUShort day)), (.hour, .ushort (toUShort hour)),
    (.minute, .ushort (toUShort minute)), (.second, .ushort (toUShort second))])

/-- `TotalGenerated::unpack`. -/
def unpackTotalGenerated : Probe Exn Decoded := do
  let wh ← numberAt 0 8
  pure (.members [(.wh, .ulong wh)])

/-- `std::string().max_size()`. -/
def stringMaxSize : ℕ := 2 ^ 62 - 1

/-- `SerialNumber::unpack`. -/
def unpackSerialNumber : Probe Exn Decoded := do
  let buf ← Probe.range 5 2
  let len ← Probe.lift (stoul buf)
  if stringMaxSize < len then .throw ⟨.lengthError, ascii "basic_string::_M_create"⟩
  else do
    let id ← Probe.range 7 len
    pure (.members [(.id, .text id)])

/-- `WorkingMode::unpack`. -/
def unpackWorkingMode : Probe Exn Decoded := do
  let mode ← numberAt 0 2
  pure (.members [(.mode, .enum (.cast .workingMode mode))])

/-- `unpack` of the response class of a command. -/
def unpack (c : CommandType) (rawSize : ℕ) : Probe Exn Decoded :=
  match c with
  | .getProtocolID => unpackProtocolID
  | .getCurrentTime => unpackCurrentTime
  | .getTotalGenerated | .getYearGenerated | .getMonthGenerated | .getDayGenerated =>
      unpackTotalGenerated
  | .getSerialNumber => unpackSerialNumber
  | .getCPUVersion => unpackList c rawSize cpuVersion
  | .getRatedInformation => unpackList c rawSize ratedInformation
  | .getGeneralStatus => unpackList c rawSize generalStatus
  | .getWorkingMode => unpackWorkingMode
  | .getFaultsAndWarnings => unpackList c rawSize faultsAndWarnings
  | .getFlagsAndStatuses => unpackList c rawSize flagsAndStatuses
  | .getRatedDefaults => unpackList c rawSize ratedDefaults
  | .getAllowedChargeCurrents | .getAllowedACChargeCurrents =>
      unpackAllowedChargeCurrents c rawSize
  | .getParallelRatedInformation => unpackParallelRatedInformation c rawSize
  | .getParallelGeneralStatus => unpackParallelGeneralStatus c rawSize
  | .getACChargeTimeBucket | .getACSupplyTimeBucket => unpackACChargeTimeBucket c rawSize
  | _ => pure .nothing

/-! ### Lists by place

The assignments of a layout take the elements in order, so `unpack` goes through the list once. -/

/-- Items from `list[i]` on. -/
def unpackItems (list : List Bytes) : ℕ → List Item → Probe Exn (List (Member × Val))
  | _, [] => pure []
  | i, item :: items => do
      let s ← elementAt list i
      let v ← Probe.lift (item.kind.decode s)
      let ms ← unpackItems list (i + 1) items
      pure ((item.name, v) :: ms)

theorem assign_eq (list : List Bytes) {assignments : List Assignment} {lengths : List FieldLength}
    {i : ℕ} (h : assignments.map Assignment.index = List.range' i lengths.length) :
    assign list assignments = unpackItems list i
      (List.zipWith (fun a length => ⟨a.name, length, a.kind⟩) assignments lengths) := by
  induction assignments generalizing lengths i with
  | nil => rfl
  | cons a assignments ih =>
      cases lengths with
      | nil => simp at h
      | cons length lengths =>
          rw [List.map_cons, List.length_cons, List.range'_succ, List.cons.injEq] at h
          rw [assign, List.zipWith_cons_cons, unpackItems, h.1, ih h.2]

namespace ListLayout

variable (l : ListLayout)

theorem length_assignments : l.assignments.length = l.lengths.length := by
  simpa using congrArg List.length l.indices

theorem map_length_items : l.items.map Item.length = l.lengths := by
  rw [items, List.map_zipWith, ← List.map_uncurry_zip_eq_zipWith]
  exact List.map_snd_zip l.length_assignments.ge

theorem length_items : l.items.length = l.lengths.length := by
  rw [← l.map_length_items, List.length_map]

theorem assign_assignments (list : List Bytes) :
    assign list l.assignments = unpackItems list 0 l.items :=
  assign_eq list (l.indices.trans List.range_eq_range')

end ListLayout

theorem unpackList_eq (c : CommandType) (rawSize : ℕ) (l : ListLayout) :
    unpackList c rawSize l = getList c rawSize (l.items.map Item.length) l.items.length >>=
      fun list => unpackItems list 0 l.items >>= fun ms => pure (.members ms) := by
  simp only [unpackList, l.map_length_items, l.length_items, l.assign_assignments]

theorem unpackParallelRatedInformation_eq (c : CommandType) (rawSize : ℕ) :
    unpackParallelRatedInformation c rawSize =
      getList c rawSize (parallelRatedInformation.items.map Item.length)
        parallelRatedInformation.items.length >>= fun list =>
      unpackItems list 0 parallelRatedInformation.items >>= fun ms =>
        pure (.members (cutSerialNumber ms)) := by
  simp only [unpackParallelRatedInformation, ListLayout.map_length_items, ListLayout.length_items,
    ListLayout.assign_assignments]

theorem unpackParallelGeneralStatus_eq (c : CommandType) (rawSize : ℕ) :
    unpackParallelGeneralStatus c rawSize =
      getList c rawSize (parallelGeneralStatus.items.map Item.length) 28 >>= fun list =>
      unpackItems list 0 (parallelGeneralStatus.items.take 28) >>= fun ms =>
        if 29 ≤ list.length then
          unpackItems list 28 (parallelGeneralStatus.items.drop 28) >>= fun max_temp =>
            pure (.members (ms ++ max_temp))
        else pure (.members ms) := by
  have hfirst (list : List Bytes) : assign list (parallelGeneralStatus.assignments.take 28) =
      unpackItems list 0 (parallelGeneralStatus.items.take 28) := by
    rw [assign_eq list (show _ = List.range' 0 (parallelGeneralStatus.lengths.take 28).length from
      rfl), ListLayout.items, List.take_zipWith]
  have hlast (list : List Bytes) : assign list (parallelGeneralStatus.assignments.drop 28) =
      unpackItems list 28 (parallelGeneralStatus.items.drop 28) := by
    rw [assign_eq list (show _ = List.range' 28 (parallelGeneralStatus.lengths.drop 28).length from
      rfl), ListLayout.items, List.drop_zipWith]
  simp only [unpackParallelGeneralStatus, ListLayout.map_length_items, hfirst, hlast]

end InverterTools.P18
