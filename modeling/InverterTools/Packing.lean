import InverterTools.Commands
import InverterTools.Device

/-! # Packing of requests (`Client::packArguments` and `Client::execute`, `p18/client.cc`)

The texts of the arguments are put into fixed-width fields, the machine ids as they are. -/

namespace InverterTools.P18

/-- `(int)round(x)`. -/
def Machine.roundInt (m : Machine) (x : CFloat) : ℤ :=
  match x with
  | .fin q =>
      let z := CFloat.roundAway q
      if z < -2 ^ 31 ∨ 2 ^ 31 ≤ z then m.castInt x else z
  | _ => m.castInt x

/-- `val * 10` in `double`. -/
def timesTen : CFloat → CFloat
  | .fin q => binary64.round (q * 10)
  | x => x

/-- `buf << std::setw(w) << z` under `std::setfill('0')`, for an `int`. -/
def fixedInt (w : ℕ) (z : ℤ) : Bytes := zeroPad w (intDecimal z)

/-- `std::setw(w) << std::stoi(arg)`. -/
def packInt (w : ℕ) (arg : Bytes) : Except Exn Bytes := fixedInt w <$> stoi arg

/-- `std::setw(3) << (int)round(std::stod(arg) * 10)`. -/
def packVoltage (m : Machine) (arg : Bytes) : Except Exn Bytes :=
  (fun v => fixedInt 3 (m.roundInt (timesTen v))) <$> stod m arg

/-- One part of a date: the year is counted from 2000. -/
def packDatePart (i : ℕ) (arg : Bytes) : Except Exn Bytes :=
  (fun val => fixedInt 2 (if i = 0 then val - 2000 else val)) <$> stoi arg

/-- `packArguments`. -/
def packArguments (m : Machine) (c : CommandType) (args : List Bytes) : Except Exn Bytes :=
  let arg := fun i => args.getD i []
  let comma : Bytes := ascii ","
  match c with
  | .getYearGenerated | .setOutputSourcePriority | .setSolarPowerPriority
  | .setACInputVoltageRange | .setBatteryType | .setACSupply => pure (arg 0)
  | .getMonthGenerated => do
      let month ← packInt 2 (arg 1)
      pure (arg 0 ++ month)
  | .getDayGenerated => do
      let month ← packInt 2 (arg 1)
      let day ← packInt 2 (arg 2)
      pure (arg 0 ++ month ++ day)
  | .getParallelGeneralStatus | .getParallelRatedInformation => intDecimal <$> stoi (arg 0)
  | .setFlag => pure ((if arg 1 = ascii "1" then ascii "E" else ascii "D") ++ arg 0)
  | .setBatteryMaxChargeCurrent | .setBatteryMaxACChargeCurrent => do
      let amps ← packInt 3 (arg 1)
      pure (arg 0 ++ comma ++ amps)
  | .setACOutputFreq => packInt 2 (arg 0)
  | .setBatteryMaxChargeVoltage | .setBatteryChargeThresholds => do
      let cv ← packVoltage m (arg 0)
      let v ← packVoltage m (arg 1)
      pure (cv ++ comma ++ v)
  | .setACOutputVoltage => (fun v => fixedInt 4 (v * 10)) <$> stoi (arg 0)
  | .setChargeSourcePriority | .setOutputMode => pure (arg 0 ++ comma ++ arg 1)
  | .setBatteryCutOffVoltage => packVoltage m (arg 0)
  | .setSolarConfig =>
      let len := (arg 0).length
      pure (fixed 2 len ++ arg 0 ++ List.replicate (20 - len) 0x30)
  | .setDateTime => do
      let year ← packDatePart 0 (arg 0)
      let month ← packDatePart 1 (arg 1)
      let day ← packDatePart 2 (arg 2)
      let hour ← packDatePart 3 (arg 3)
      let minute ← packDatePart 4 (arg 4)
      let second ← packDatePart 5 (arg 5)
      pure (year ++ month ++ day ++ hour ++ minute ++ second)
  | .setACChargeTimeBucket | .setACSupplyTimeBucket => do
      let startHour ← packInt 2 (arg 0)
      let startMinute ← packInt 2 (arg 1)
      let endHour ← packInt 2 (arg 2)
      let endMinute ← packInt 2 (arg 3)
      pure (startHour ++ startMinute ++ comma ++ endHour ++ endMinute)
  | _ => pure []

/-- The letter of a get or a set command. -/
def commandLetter (c : CommandType) : Bytes := if c.isSet then ascii "S" else ascii "P"

/-- The first half of `Client::execute`: the text that is handed to the device. -/
def packRequest (m : Machine) (c : CommandType) (args : List Bytes) : Except Exn Bytes :=
  match rawCommand c with
  | none => .error ⟨.runtimeError,
      ascii "packedCommand " ++ decimal c.code ++ ascii " not found"⟩
  | some packedCommand => do
      let packedArguments ← packArguments m c args
      let len := 2 + 1 + packedCommand.length + packedArguments.length
      pure (ascii "^" ++ commandLetter c ++ fixed 3 len ++ packedCommand ++ packedArguments)

theorem packRequest_eq_ok {m : Machine} {c : CommandType} {args : List Bytes} {packed : Bytes} :
    packRequest m c args = .ok packed ↔ ∃ raw packedArguments, rawCommand c = some raw ∧
      packArguments m c args = .ok packedArguments ∧
      packed = ascii "^" ++ commandLetter c ++ fixed 3 (3 + raw.length + packedArguments.length) ++
        raw ++ packedArguments := by
  unfold packRequest
  obtain ⟨raw, hraw, -⟩ := exists_rawCommand c
  simp only [hraw, bind_eq_ok, pure_eq_ok, Option.some.injEq]
  constructor
  · rintro ⟨pa, hpa, rfl⟩
    exact ⟨raw, pa, rfl, hpa, rfl⟩
  · rintro ⟨_, pa, rfl, hpa, rfl⟩
    exact ⟨pa, hpa, rfl⟩

end InverterTools.P18
