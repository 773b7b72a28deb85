import InverterTools.Util
import InverterTools.Crc

/-! # The device link (`voltronic/device.cc`, `usb_device.cc`, `serial_device.cc`)

A transaction is `Device::run`: `send` builds the frame and `writeLoop` hands it to the driver,
then `recv` collects bytes with `readLoop` up to a carriage return and checks the CRC.

The environment of a call is a script: what each call of the driver library returned
(`WriteEvent`, `ReadEvent`) and what the clock showed when the code asked for it.  A script that
is used up before the call has ended gives `Outcome.pending`; looking at memory outside a buffer
gives `Outcome.fault`.  Sizes are natural numbers; results of the drivers are signed and are cast
to `size_t` and `int` where the source casts them. -/

namespace InverterTools.Voltronic

/-- `flags_`, bit by bit. -/
structure Flags where
  writeCrc : Bool
  readCrc : Bool
  verifyCrc : Bool
deriving DecidableEq, Repr

/-- The flags the constructor sets. -/
def defaultFlags : Flags := ⟨true, true, true⟩

/-- No flags at all. -/
def noFlags : Flags := ⟨false, false, false⟩

/-- The driver behind the virtual `read` and `write`. -/
inductive Driver where
  | usb
  | serial
deriving DecidableEq, Repr

/-- `Device`. -/
structure Device where
  driver : Driver
  flags : Flags
  timeout : UInt64
deriving DecidableEq, Repr

/-- `TIMEOUT`. -/
def TIMEOUT : UInt64 := 1000

/-- One call of `write`: the library's result, the number of bytes it accepted, and the clock
readings of the time check after it. -/
structure WriteEvent where
  code : ℤ
  taken : ℕ
  now : UInt64
  late : UInt64
deriving DecidableEq, Repr

/-- One call of `read`: the library's result, the bytes it stored, and the clock readings of the
time check after it. -/
structure ReadEvent where
  code : ℤ
  data : Bytes
  now : UInt64
  late : UInt64
deriving DecidableEq, Repr

/-- Conversion of a driver result to `size_t`. -/
def toSize (code : ℤ) : ℕ := (code % 2 ^ 64).toNat

/-- A `size_t` taken as a signed pointer offset. -/
def toOffset (n : ℕ) : ℤ := Int.bmod n (2 ^ 64)

/-- `GET_HID_REPORT_SIZE`. -/
def hidReportSize (size : ℕ) : ℕ := if 8 < size then 8 else size

/-- `USBDevice::read` and `SerialDevice::read`: the `size_t` they return. -/
def Driver.read (d : Driver) (code : ℤ) : Except Exn ℕ :=
  match d with
  | .usb =>
      if code = -1 then .error ⟨.deviceError, ascii "hidapi_read_timeout() failed"⟩
      else .ok (toSize code)
  | .serial => .ok (toSize code)

/-- `USBDevice::write` and `SerialDevice::write`: the `size_t` they return. -/
def Driver.write (d : Driver) (code : ℤ) : Except Exn ℕ :=
  match d with
  | .usb =>
      if code = -1 then .error ⟨.deviceError, ascii "hidapi_write() failed"⟩
      else .ok (hidReportSize (toSize code))
  | .serial => .ok (toSize code)

/-- Bytes as they go out: over USB in whole reports, the last one filled up with zeros. -/
def Driver.padded (d : Driver) (data : Bytes) : Bytes :=
  match d with
  | .usb => data ++ List.replicate ((8 - data.length % 8) % 8) 0
  | .serial => data

namespace Device

variable (dev : Device)

/-- `getElapsedTime`, at the clock reading `now`. -/
def getElapsedTime (started now : UInt64) : UInt64 := now - started

/-- `getTimeLeft`, at the clock reading `now`. -/
def getTimeLeft (started now : UInt64) : UInt64 :=
  if dev.timeout = 0 then UInt64.ofNat (2 ^ 64 - 1)
  else
    let elapsed := getElapsedTime started now
    if dev.timeout < elapsed then 0 else dev.timeout - elapsed

/-- The `TimeoutError` of a step that has run over. -/
def timeoutError (step : String) (started late : UInt64) : Exn :=
  ⟨.timeoutError, ascii step ++ ascii " already took " ++
    decimal (getElapsedTime started late).toNat ++ ascii " ms"⟩

/-! ### Sending -/

/-- The frame `send` builds. -/
def frame (flags : Flags) (buf : Bytes) : Bytes :=
  if flags.writeCrc then buf ++ crcWrite (crcCalculate buf) ++ [CR] else buf ++ [CR]

/-- How `writeLoop` ended, and the bytes that have gone out. -/
structure WriteEnd where
  outcome : Outcome Exn Unit
  wire : Bytes
deriving DecidableEq, Repr

/-- `writeLoop`: `off` is the offset of `data` in the frame, `wire` what has gone out before. -/
def writeLoop (started : UInt64) (data : Bytes) (off bytesLeft : ℤ) (wire : Bytes) :
    List WriteEvent → WriteEnd
  | [] => ⟨.pending, wire⟩
  | e :: es =>
      if off < 0 ∨ data.length < off + bytesLeft then ⟨.fault, wire⟩
      else match dev.driver.write e.code with
        | .error x => ⟨.throw x, wire⟩
        | .ok bytesWritten =>
            let wire := wire ++ dev.driver.padded ((data.drop off.toNat).take e.taken)
            let bytesLeft := bytesLeft - toInt bytesWritten
            if bytesLeft ≤ 0 then ⟨.ret (), wire⟩
            else if dev.getTimeLeft started e.now = 0 then
              ⟨.throw (timeoutError "data writing" started e.late), wire⟩
            else writeLoop started data (off + toOffset bytesWritten) bytesLeft wire es

/-- `send`. -/
def send (started : UInt64) (buf : Bytes) (es : List WriteEvent) : WriteEnd :=
  dev.writeLoop started (frame dev.flags buf) 0 (frame dev.flags buf).length [] es

/-! ### Receiving -/

/-- The variables of `readLoop`: the buffer, the position of the moving pointer in it, the
remaining size and the number of bytes seen. -/
structure ReadState where
  mem : Bytes
  pos : ℕ
  left : ℕ
  size : ℕ
deriving DecidableEq, Repr

/-- What the inner loop of `readLoop` finds. -/
inductive Scan where
  | found (size : ℕ)
  | more (s : ReadState)
  | outside
deriving DecidableEq, Repr

/-- The inner loop: look at `bytesRead` bytes for the carriage return. -/
def scanBytes : ℕ → ReadState → Scan
  | 0, s => .more s
  | bytesRead + 1, s =>
      match s.mem[s.pos]? with
      | none => .outside
      | some b =>
          if b = CR then .found (s.size + 1)
          else scanBytes bytesRead ⟨s.mem, s.pos + 1, s.left - 1, s.size + 1⟩

/-- How `readLoop` or `recv` ended, the buffer, and the reads that were not made. -/
structure ReadEnd where
  outcome : Outcome Exn ℕ
  mem : Bytes
  unread : List ReadEvent
deriving DecidableEq, Repr

/-- `readLoop`. -/
def readLoop (started : UInt64) : List ReadEvent → ReadState → ReadEnd
  | [], s => ⟨.pending, s.mem, []⟩
  | e :: es, s =>
      match dev.driver.read e.code with
      | .error x => ⟨.throw x, s.mem, es⟩
      | .ok bytesRead =>
          let mem := splice s.mem s.pos e.data
          match scanBytes bytesRead { s with mem := mem } with
          | .outside => ⟨.fault, mem, es⟩
          | .found size => ⟨.ret size, mem, es⟩
          | .more s =>
              if dev.getTimeLeft started e.now = 0 then
                ⟨.throw (timeoutError "data reading" started e.late), mem, es⟩
              else if s.left ≤ 0 then
                ⟨.throw ⟨.overflowError, ascii "input buffer is not large enough"⟩, mem, es⟩
              else readLoop started es s

/-- What `recv` does with the `bytesRead` bytes at the head of the buffer. -/
def checkResponse (flags : Flags) (buf : Bytes) (bytesRead : ℕ) : Except Exn ℕ :=
  let minSize := if flags.readCrc then 2 + 1 else 1
  if bytesRead < minSize then .error ⟨.invalidDataError, ascii "response is too small"⟩
  else
    let dataSize := bytesRead - minSize
    if flags.readCrc then
      let crcActual := crcRead (buf.getD dataSize 0) (buf.getD (dataSize + 1) 0)
      let crcExpected := crcCalculate (buf.take dataSize)
      if flags.verifyCrc ∧ crcActual = crcExpected then .ok dataSize
      else .error ⟨.invalidDataError, ascii "crc is invalid: expected 0x" ++
        hexNumeral crcExpected.toNat ++ ascii ", got 0x" ++ hexNumeral crcActual.toNat⟩
    else .ok dataSize

/-- `recv` into a buffer with the contents `buf`. -/
def recv (started : UInt64) (buf : Bytes) (es : List ReadEvent) : ReadEnd :=
  let r := dev.readLoop started es ⟨buf, 0, buf.length, 0⟩
  ⟨r.outcome >>= fun n => .lift (checkResponse dev.flags r.mem n), r.mem, r.unread⟩

/-! ### The transaction -/

/-- The environment of one `run`: the clock at its start, the writes, the clock after sending, and
the reads. -/
structure Script where
  started : UInt64
  writes : List WriteEvent
  sent : UInt64
  sentLate : UInt64
  reads : List ReadEvent
deriving DecidableEq, Repr

/-- How `run` ended, the output buffer, the bytes that went out, and the reads not made. -/
structure RunEnd where
  outcome : Outcome Exn ℕ
  outbuf : Bytes
  wire : Bytes
  unread : List ReadEvent
deriving DecidableEq, Repr

/-- `run`. -/
def run (env : Script) (inbuf outbuf : Bytes) : RunEnd :=
  let w := dev.send env.started inbuf env.writes
  match w.outcome with
  | .ret () =>
      if dev.getTimeLeft env.started env.sent = 0 then
        ⟨.throw (timeoutError "sending" env.started env.sentLate), outbuf, w.wire, env.reads⟩
      else
        let r := dev.recv env.started outbuf env.reads
        ⟨r.outcome, r.mem, w.wire, r.unread⟩
  | .throw x => ⟨.throw x, outbuf, w.wire, env.reads⟩
  | .fault => ⟨.fault, outbuf, w.wire, env.reads⟩
  | .pending => ⟨.pending, outbuf, w.wire, env.reads⟩

end Device

/-! ### Reports -/

theorem Driver.exists_padded_eq (d : Driver) (data : Bytes) :
    ∃ n < 8, d.padded data = data ++ List.replicate n 0 := by
  cases d with
  | usb => exact ⟨_, Nat.lt_of_lt_of_le (Nat.mod_lt _ (by norm_num)) le_rfl, rfl⟩
  | serial => exact ⟨0, by norm_num, (List.append_nil data).symm⟩

@[simp] theorem Driver.padded_nil (d : Driver) : d.padded [] = [] := by
  cases d with
  | usb => rfl
  | serial => rfl

theorem Driver.padded_append {d : Driver} {s : Bytes} (h : d = .usb → s.length % 8 = 0)
    (t : Bytes) : d.padded (s ++ t) = s ++ d.padded t := by
  cases d with
  | serial => rfl
  | usb =>
      have hmod : (s ++ t).length % 8 = t.length % 8 := by
        have := h rfl
        rw [List.length_append]
        omega
      rw [Driver.padded, Driver.padded, hmod, List.append_assoc]

theorem Driver.padded_of_mod {d : Driver} {s : Bytes} (h : d = .usb → s.length % 8 = 0) :
    d.padded s = s := by
  have happend := Driver.padded_append h []
  rwa [List.append_nil, padded_nil, List.append_nil] at happend

/-- One write, with others behind it. -/
theorem Driver.padded_take {d : Driver} {data : Bytes} {off n : ℕ} (hn : d = .usb → n % 8 = 0)
    (hlt : off + n < data.length) :
    data.take off ++ d.padded ((data.drop off).take n) = data.take (off + n) := by
  have hwhole : d = .usb → ((data.drop off).take n).length % 8 = 0 := by
    intro hd
    rw [List.length_take, List.length_drop, Nat.min_eq_left (by omega)]
    exact hn hd
  rw [Driver.padded_of_mod hwhole, List.take_add]

theorem Driver.padded_take_last {d : Driver} {data : Bytes} {off n : ℕ}
    (hmod : d = .usb → off % 8 = 0) (hoff : off ≤ data.length) (hn : data.length ≤ off + n) :
    data.take off ++ d.padded ((data.drop off).take n) = d.padded data := by
  have hhead : d = .usb → (data.take off).length % 8 = 0 := by
    intro hd
    rw [List.length_take, Nat.min_eq_left hoff]
    exact hmod hd
  have hrest : (data.drop off).length ≤ n := by
    rw [List.length_drop]
    omega
  rw [List.take_of_length_le hrest, ← Driver.padded_append hhead, List.take_append_drop]

theorem Driver.take_isPrefix_padded (d : Driver) (n : ℕ) (data : Bytes) :
    data.take n <+: d.padded data := by
  obtain ⟨k, -, hpadded⟩ := d.exists_padded_eq data
  rw [hpadded]
  exact (List.take_prefix n data).trans (List.prefix_append _ _)

/-! ### What is thrown -/

section

variable {P : Exn → Prop}

theorem Driver.write_raises (d : Driver) (code : ℤ)
    (h : P ⟨.deviceError, ascii "hidapi_write() failed"⟩) : Raises P (d.write code) := by
  unfold Driver.write
  cases d with
  | usb =>
      dsimp only
      split_ifs
      · exact raises_error.mpr h
      · exact raises_ok _
  | serial => exact raises_ok _

theorem Driver.read_raises (d : Driver) (code : ℤ)
    (h : P ⟨.deviceError, ascii "hidapi_read_timeout() failed"⟩) : Raises P (d.read code) := by
  unfold Driver.read
  cases d with
  | usb =>
      dsimp only
      split_ifs
      · exact raises_error.mpr h
      · exact raises_ok _
  | serial => exact raises_ok _

theorem Device.writeLoop_throws (dev : Device) (started : UInt64)
    (hdriver : P ⟨.deviceError, ascii "hidapi_write() failed"⟩)
    (htime : ∀ late, P (timeoutError "data writing" started late)) (data : Bytes)
    (es : List WriteEvent) (off left : ℤ) (wire : Bytes) :
    (dev.writeLoop started data off left wire es).outcome.Throws P := by
  induction es generalizing off left wire with
  | nil => exact Outcome.throws_pending
  | cons e es ih =>
      unfold writeLoop
      by_cases hrange : off < 0 ∨ data.length < off + left
      · rw [if_pos hrange]
        exact Outcome.throws_fault
      · rw [if_neg hrange]
        cases hw : dev.driver.write e.code with
        | error x => exact Outcome.throws_throw.mpr (dev.driver.write_raises e.code hdriver x hw)
        | ok n =>
            dsimp only
            split_ifs
            · exact Outcome.throws_ret ()
            · exact Outcome.throws_throw.mpr (htime e.late)
            · exact ih _ _ _

end

end InverterTools.Voltronic
