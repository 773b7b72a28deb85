import InverterTools.Lib.Loop
import InverterTools.RequestGrammar

/-! # The options of both programs (`inverterctl.cc`, `inverterd.cc`)

`main` of either program calls `getopt_long` in a loop and sets a variable for each option; the
body throws on a value it does not take.  The branches for the device are the same in both
programs.  `--serial-data-bits` is refused when the number of bits is valid: without that option
both loops keep the serial parameters valid and accept what the help texts list
(`serial_options_sound`). -/

namespace InverterTools

open Formatter (Format)
open Connection (formatFromString formatNames)
open Loop (loop)

/-- The options with a long name (`common.h`), and `-h`. -/
inductive LongOption where
  | shortHelp
  | help
  | verbose
  | raw
  | timeout
  | cacheTimeout
  | delay
  | format
  | device
  | deviceErrorLimit
  | usbVendorId
  | usbDeviceId
  | usbPath
  | serialName
  | serialBaudRate
  | serialDataBits
  | serialStopBits
  | serialParity
  | host
  | port
deriving DecidableEq, Repr

/-- A result of `getopt_long`, with `optarg`. -/
structure Opt where
  code : LongOption
  arg : Bytes
deriving DecidableEq, Repr

/-- `DeviceType`. -/
inductive DeviceType where
  | usb
  | serial
  | pseudo
deriving DecidableEq, Repr

/-- `SerialStopBits`. -/
inductive SerialStopBits where
  | one
  | oneAndHalf
  | two
deriving DecidableEq, Repr

/-- `SerialParity`. -/
inductive SerialParity where
  | invalid
  | none
  | odd
  | even
  | mark
  | space
deriving DecidableEq, Repr

/-- `is_serial_baud_rate_valid`. -/
def isSerialBaudRateValid (baudRate : ℕ) : Bool :=
  [110, 300, 1200, 2400, 4800, 9600, 19200, 38400, 57600, 115200].contains baudRate

/-- `is_serial_data_bits_valid`; the enumeration holds any `int`. -/
def isSerialDataBitsValid (dataBits : ℤ) : Bool := [5, 6, 7, 8].contains dataBits

/-- `is_serial_stop_bits_valid`. -/
def isSerialStopBitsValid (stopBits : SerialStopBits) : Bool :=
  match stopBits with
  | .one | .oneAndHalf | .two => true

/-- `is_serial_parity_valid`. -/
def isSerialParityValid (parity : SerialParity) : Bool :=
  match parity with
  | .none | .odd | .even | .mark | .space => true
  | .invalid => false

/-! ### Numbers -/

/-- `std::stoull`. -/
def stoull (s : Bytes) : Except Exn ℕ := (strtoul s).toExcept "stoull"

/-- `0x` in front of a hexadecimal digit. -/
def dropHexMark : Bytes → Bytes
  | 0x30 :: x :: d :: s =>
      if (x = 0x78 ∨ x = 0x58) ∧ isHexDigit d = true then d :: s else 0x30 :: x :: d :: s
  | s => s

/-- `strtol(s, &end, 16)`: the number and the text from `end` on. -/
def strtolHex (s : Bytes) : ℤ × Bytes :=
  let t := takeSign (s.dropWhile isSpace)
  let digits := dropHexMark t.2
  if digits.takeWhile isHexDigit = [] then (0, s)
  else
    let n : ℤ := hexNumVal (digits.takeWhile isHexDigit)
    (max (-2 ^ 63) (min (2 ^ 63 - 1) (if t.1 then -n else n)), digits.dropWhile isHexDigit)

/-- `hextoul`. -/
def hextoul (s : Bytes) : Except Exn ℕ :=
  let n := strtolHex (cstr s)
  if n.2 ≠ [] then .error (invalidArgument "input string is not a hex number")
  else .ok (n.1 % 2 ^ 64).toNat

/-! ### The device -/

/-- The variables for the device. -/
structure DeviceOptions where
  deviceType : DeviceType
  usbVendorId : ℕ
  usbDeviceId : ℕ
  usbDevicePath : Bytes
  serialDeviceName : Bytes
  serialBaudRate : ℕ
  serialDataBits : ℤ
  serialStopBits : SerialStopBits
  serialParity : SerialParity
deriving DecidableEq, Repr

/-- Their initial values. -/
def DeviceOptions.init : DeviceOptions :=
  ⟨.usb, 0x0665, 0x5161, [], ascii "/dev/ttyUSB0", 2400, 8, .one, .none⟩

/-- The number in `--usb-vendor-id` or `--usb-device-id`. -/
def usbId (name : String) (arg : Bytes) : Except Exn ℕ :=
  let invalid := fun what => Except.error ⟨.invalidArgument, ascii name ++
    ascii ": invalid format: " ++ what⟩
  if arg.length ≠ 4 then invalid (ascii name ++ ascii ": invalid length")
  else match hextoul arg with
    | .error e => invalid e.what
    | .ok n => .ok (toUShort n)

/-- The branches of both loops for the device; any other option is passed over. -/
def DeviceOptions.set (d : DeviceOptions) (opt : Opt) : Except Exn DeviceOptions :=
  match opt.code with
  | .device =>
      if opt.arg = ascii "usb" then .ok { d with deviceType := .usb }
      else if opt.arg = ascii "serial" then .ok { d with deviceType := .serial }
      else if opt.arg = ascii "pseudo" then .ok { d with deviceType := .pseudo }
      else .error (invalidArgument "invalid device")
  | .usbVendorId => do
      let id ← usbId "usb-vendor-id" opt.arg
      pure { d with usbVendorId := id }
  | .usbDeviceId => do
      let id ← usbId "usb-device-id" opt.arg
      pure { d with usbDeviceId := id }
  | .usbPath => .ok { d with usbDevicePath := opt.arg }
  | .serialName => .ok { d with serialDeviceName := opt.arg }
  | .serialBaudRate => do
      let baudRate ← toUnsigned <$> stoul opt.arg
      if ! isSerialBaudRateValid baudRate then .error (invalidArgument "invalid serial baud rate")
      else pure { d with serialBaudRate := baudRate }
  | .serialDataBits => do
      let dataBits ← toInt <$> stoul opt.arg
      -- not negated in either program
      if isSerialDataBitsValid dataBits then .error (invalidArgument "invalid serial data bits")
      else pure { d with serialDataBits := dataBits }
  | .serialStopBits =>
      if opt.arg = ascii "1" then .ok { d with serialStopBits := .one }
      else if opt.arg = ascii "1.5" then .ok { d with serialStopBits := .oneAndHalf }
      else if opt.arg = ascii "2" then .ok { d with serialStopBits := .two }
      else .error (invalidArgument "invalid serial stop bits")
  | .serialParity =>
      if opt.arg = ascii "none" then .ok { d with serialParity := .none }
      else if opt.arg = ascii "odd" then .ok { d with serialParity := .odd }
      else if opt.arg = ascii "even" then .ok { d with serialParity := .even }
      else if opt.arg = ascii "mark" then .ok { d with serialParity := .mark }
      else if opt.arg = ascii "space" then .ok { d with serialParity := .space }
      else .error (invalidArgument "invalid serial parity")
  | _ => .ok d

/-! ### `inverterctl` -/

namespace Inverterctl

/-- `MAX_RAW_COMMAND_LENGTH`. -/
def MAX_RAW_COMMAND_LENGTH : ℕ := 128

/-- `Action`. -/
inductive Action where
  | shortHelp
  | fullHelp
  | raw
  | command
deriving DecidableEq, Repr

/-- The variables of `main` that the options set. -/
structure Params where
  action : Action
  timeout : ℕ
  verbose : Bool
  formatChanged : Bool
  format : Format
  raw : Bytes
  device : DeviceOptions
deriving DecidableEq, Repr

/-- Their initial values. -/
def Params.init : Params :=
  ⟨.command, Voltronic.TIMEOUT.toNat, false, false, .table, [], .init⟩

/-- The body of the option loop. -/
def Params.set (p : Params) (opt : Opt) : Except Exn Params :=
  match opt.code with
  | .shortHelp => .ok { p with action := .shortHelp }
  | .help => .ok { p with action := .fullHelp }
  | .verbose => .ok { p with verbose := true }
  | .format => do
      let format ← formatFromString opt.arg
      pure { p with format := format, formatChanged := true }
  | .raw =>
      if MAX_RAW_COMMAND_LENGTH < opt.arg.length then
        .error (invalidArgument "command is too long")
      else .ok { p with raw := opt.arg, action := .raw }
  | .timeout => do
      let timeout ← stoull opt.arg
      pure { p with timeout := timeout }
  | _ => do
      let device ← p.device.set opt
      pure { p with device := device }

/-- The option loop, over what `getopt_long` returns before `EOF` or `'?'`. -/
def readOptions (opts : List Opt) : Params × Option Exn := loop Params.set .init opts

end Inverterctl

/-! ### `inverterd` -/

namespace Inverterd

/-- The variables of `main` that the options set. -/
structure Params where
  timeout : ℕ
  cacheTimeout : ℕ
  delay : ℕ
  deviceErrorLimit : ℕ
  verbose : Bool
  host : Bytes
  port : ℤ
  device : DeviceOptions
deriving DecidableEq, Repr

/-- Their initial values. -/
def Params.init : Params :=
  ⟨Voltronic.TIMEOUT.toNat, Server.CACHE_TIMEOUT.toNat, Server.DELAY.toNat,
    Server.DEVICE_ERROR_LIMIT.toNat, false, ascii "127.0.0.1", 8305, .init⟩

/-- How the body of the option loop stops `main`: an exception, or the `exit` in `usage`. -/
inductive Stop where
  | thrown (e : Exn)
  | exit
deriving DecidableEq, Repr

/-- A step that may throw. -/
def orThrow {α : Type} (x : Except Exn α) : Except Stop α := x.mapError .thrown

/-- The body of the option loop. -/
def Params.set (p : Params) (opt : Opt) : Except Stop Params :=
  match opt.code with
  | .shortHelp | .help => .error .exit
  | .verbose => .ok { p with verbose := true }
  | .timeout => orThrow do
      let timeout ← stoull opt.arg
      pure { p with timeout := timeout }
  | .cacheTimeout => orThrow do
      let cacheTimeout ← stoull opt.arg
      pure { p with cacheTimeout := cacheTimeout }
  | .delay => orThrow do
      let delay ← stoull opt.arg
      pure { p with delay := delay }
  | .deviceErrorLimit => orThrow do
      let deviceErrorLimit ← toUnsigned <$> stoul opt.arg
      pure { p with deviceErrorLimit := deviceErrorLimit }
  | .host => .ok { p with host := opt.arg }
  | .port => orThrow do
      let port ← stoi opt.arg
      pure { p with port := port }
  | _ => orThrow do
      let device ← p.device.set opt
      pure { p with device := device }

/-- The option loop, over what `getopt_long` returns before `EOF` or `'?'`. -/
def readOptions (opts : List Opt) : Params × Option Stop := loop Params.set .init opts

end Inverterd

/-! ### Valid parameters -/

/-- The parameters that are handed to `SerialDevice` are valid. -/
structure DeviceOptions.SerialValid (d : DeviceOptions) : Prop where
  baudRate : isSerialBaudRateValid d.serialBaudRate = true
  dataBits : isSerialDataBitsValid d.serialDataBits = true
  stopBits : isSerialStopBitsValid d.serialStopBits = true
  parity : isSerialParityValid d.serialParity = true

/-- The values the help texts list. -/
def listed (code : LongOption) : List Bytes :=
  match code with
  | .device => [ascii "usb", ascii "serial", ascii "pseudo"]
  | .format => formatNames
  | .serialBaudRate => [ascii "110", ascii "300", ascii "1200", ascii "2400", ascii "4800",
      ascii "9600", ascii "19200", ascii "38400", ascii "57600", ascii "115200"]
  | .serialDataBits => [ascii "5", ascii "6", ascii "7", ascii "8"]
  | .serialStopBits => [ascii "1", ascii "1.5", ascii "2"]
  | .serialParity => [ascii "none", ascii "odd", ascii "even", ascii "mark", ascii "space"]
  | _ => []

/-- An option as the help texts have it, other than the help itself: with a listed value, without a
value, or with a value of the kind that is named. -/
def Documented (opt : Opt) : Prop :=
  match opt.code with
  | .device | .format | .serialBaudRate | .serialDataBits | .serialStopBits | .serialParity =>
      opt.arg ∈ listed opt.code
  | .verbose | .usbPath | .serialName | .host => True
  | .raw => opt.arg.length ≤ Inverterctl.MAX_RAW_COMMAND_LENGTH
  | .timeout | .cacheTimeout | .delay | .deviceErrorLimit =>
      AllDigits opt.arg ∧ opt.arg ≠ [] ∧ numVal opt.arg < 2 ^ 64
  | .port => AllDigits opt.arg ∧ opt.arg ≠ [] ∧ numVal opt.arg < 2 ^ 31
  | .usbVendorId | .usbDeviceId => opt.arg.length = 4 ∧ ∀ b ∈ opt.arg, isHexDigit b = true
  | .shortHelp | .help => False

/-! ### One option -/

section

variable {d d' : DeviceOptions} {opt : Opt}

theorem DeviceOptions.set_valid (hcode : opt.code ≠ .serialDataBits) (hd : d.SerialValid)
    (h : d.set opt = .ok d') : d'.SerialValid := by
  obtain ⟨hbaud, hbits, hstop, hparity⟩ := hd
  obtain ⟨code, arg⟩ := opt
  unfold DeviceOptions.set at h
  cases code with
  | serialDataBits => exact absurd rfl hcode
  | serialBaudRate =>
      simp only [bind_eq_ok] at h
      obtain ⟨baudRate, -, h⟩ := h
      split_ifs at h with hvalid
      obtain rfl := pure_eq_ok.mp h
      exact ⟨by simpa using hvalid, hbits, hstop, hparity⟩
  | serialStopBits =>
      dsimp only at h
      split_ifs at h <;> obtain rfl := Except.ok.inj h <;> exact ⟨hbaud, hbits, rfl, hparity⟩
  | serialParity =>
      dsimp only at h
      split_ifs at h <;> obtain rfl := Except.ok.inj h <;> exact ⟨hbaud, hbits, hstop, rfl⟩
  | device =>
      dsimp only at h
      split_ifs at h <;> obtain rfl := Except.ok.inj h <;> exact ⟨hbaud, hbits, hstop, hparity⟩
  | usbVendorId | usbDeviceId =>
      obtain ⟨id, -, h⟩ := bind_eq_ok.mp h
      obtain rfl := pure_eq_ok.mp h
      exact ⟨hbaud, hbits, hstop, hparity⟩
  | _ =>
      obtain rfl := Except.ok.inj h
      exact ⟨hbaud, hbits, hstop, hparity⟩

/-- The branch for the data bits takes invalid numbers only. -/
theorem DeviceOptions.set_dataBits (hcode : opt.code = .serialDataBits) (h : d.set opt = .ok d') :
    isSerialDataBitsValid d'.serialDataBits = false := by
  rw [DeviceOptions.set, hcode] at h
  obtain ⟨dataBits, -, h⟩ := bind_eq_ok.mp h
  split_ifs at h with hvalid
  obtain rfl := pure_eq_ok.mp h
  simpa using hvalid

theorem DeviceOptions.set_keeps_dataBits (hcode : opt.code ≠ .serialDataBits)
    (h : d.set opt = .ok d') : d'.serialDataBits = d.serialDataBits := by
  obtain ⟨code, arg⟩ := opt
  unfold DeviceOptions.set at h
  cases code with
  | serialDataBits => exact absurd rfl hcode
  | serialBaudRate =>
      simp only [bind_eq_ok] at h
      obtain ⟨baudRate, -, h⟩ := h
      split_ifs at h with hvalid
      rw [← pure_eq_ok.mp h]
  | serialStopBits | serialParity | device =>
      dsimp only at h
      split_ifs at h <;> rw [← Except.ok.inj h]
  | usbVendorId | usbDeviceId =>
      obtain ⟨id, -, h⟩ := bind_eq_ok.mp h
      rw [← pure_eq_ok.mp h]
  | _ => rw [← Except.ok.inj h]

end

/-! ### Documented values -/

theorem isHexDigit_bounds {b : UInt8} (h : isHexDigit b = true) :
    0x30 ≤ b.toNat ∧ b.toNat ≤ 0x66 := by
  have hlt := b.toNat_lt
  simp only [isHexDigit, Bool.or_eq_true, isDigit_iff, Bool.and_eq_true, decide_eq_true_eq,
    toLower, UInt8.le_iff_toNat_le, UInt8.reduceToNat] at h
  split_ifs at h with hupper
  · simp only [UInt8.toNat_add, UInt8.reduceToNat] at h
    omega
  · omega

theorem hextoul_hexDigits {s : Bytes} (hne : s ≠ []) (h : ∀ b ∈ s, isHexDigit b = true) :
    ∃ n, hextoul s = .ok n := by
  have hbounds (b : UInt8) (hb : b ∈ s) := isHexDigit_bounds (h b hb)
  have hzero : 0 ∉ s := fun hb => absurd (hbounds 0 hb).1 (by decide)
  have hrest : (strtolHex s).2 = [] := by
    obtain ⟨b, t, rfl⟩ := List.exists_cons_of_ne_nil hne
    obtain ⟨hlow, hhigh⟩ := hbounds b List.mem_cons_self
    have hspace : (b :: t).dropWhile isSpace = b :: t := by
      refine List.dropWhile_cons_of_neg ?_
      simp only [isSpace, Bool.or_eq_true, beq_iff_eq, Bool.and_eq_true, decide_eq_true_eq,
        UInt8.le_iff_toNat_le, ← UInt8.toNat_inj, UInt8.reduceToNat]
      omega
    have hsign : takeSign (b :: t) = (false, b :: t) := by
      unfold takeSign
      split
      · next heq =>
          obtain ⟨rfl, -⟩ := List.cons.inj heq
          exact absurd hlow (by decide)
      · next heq =>
          obtain ⟨rfl, -⟩ := List.cons.inj heq
          exact absurd hlow (by decide)
      · rfl
    have hmark : dropHexMark (b :: t) = b :: t := by
      unfold dropHexMark
      split
      · next x d u heq =>
          rw [heq] at hbounds
          have hx := (hbounds x (by simp)).2
          refine (if_neg fun hmark => ?_).trans heq.symm
          rcases hmark.1 with rfl | rfl
          · exact absurd hx (by decide)
          · exact absurd (h 0x58 (by rw [heq]; simp)) (by decide)
      · rfl
    have htake : (b :: t).takeWhile isHexDigit = b :: t := List.takeWhile_eq_self_iff.mpr h
    simp only [strtolHex, hspace, hsign, hmark, htake]
    rw [if_neg (by simp), List.dropWhile_eq_nil_iff.mpr h]
  rw [hextoul, cstr_of_notMem hzero]
  exact ⟨_, if_neg (not_not.mpr hrest)⟩

theorem usbId_hexDigits (name : String) {arg : Bytes} (hlen : arg.length = 4)
    (h : ∀ b ∈ arg, isHexDigit b = true) : ∃ n, usbId name arg = .ok n := by
  obtain ⟨n, hn⟩ := hextoul_hexDigits (List.ne_nil_of_length_pos (by omega)) h
  refine ⟨toUShort n, ?_⟩
  simp only [usbId, hlen, ne_eq, not_true_eq_false, if_false, hn]

theorem stoull_allDigits {s : Bytes} (h : AllDigits s) (hs : s ≠ []) (hv : numVal s < 2 ^ 64) :
    stoull s = .ok (numVal s) := by
  rw [stoull, strtoul_allDigits h hs hv]
  rfl

/-- Except for the data bits, the device takes every documented value. -/
theorem DeviceOptions.set_documented {opt : Opt} (hcode : opt.code ≠ .serialDataBits)
    (h : Documented opt) (d : DeviceOptions) : ∃ d', d.set opt = .ok d' := by
  obtain ⟨code, arg⟩ := opt
  cases code with
  | serialDataBits => exact absurd rfl hcode
  | serialBaudRate =>
      simp only [Documented, listed, List.mem_cons, List.not_mem_nil, or_false] at h
      rcases h with rfl | rfl | rfl | rfl | rfl | rfl | rfl | rfl | rfl | rfl <;> exact ⟨_, rfl⟩
  | serialStopBits =>
      simp only [Documented, listed, List.mem_cons, List.not_mem_nil, or_false] at h
      rcases h with rfl | rfl | rfl <;> exact ⟨_, rfl⟩
  | serialParity =>
      simp only [Documented, listed, List.mem_cons, List.not_mem_nil, or_false] at h
      rcases h with rfl | rfl | rfl | rfl | rfl <;> exact ⟨_, rfl⟩
  | device =>
      simp only [Documented, listed, List.mem_cons, List.not_mem_nil, or_false] at h
      rcases h with rfl | rfl | rfl <;> exact ⟨_, rfl⟩
  | usbVendorId =>
      obtain ⟨n, hn⟩ := usbId_hexDigits "usb-vendor-id" h.1 h.2
      exact ⟨_, by rw [DeviceOptions.set, hn]; rfl⟩
  | usbDeviceId =>
      obtain ⟨n, hn⟩ := usbId_hexDigits "usb-device-id" h.1 h.2
      exact ⟨_, by rw [DeviceOptions.set, hn]; rfl⟩
  | _ => exact ⟨_, rfl⟩

theorem DeviceOptions.set_validDataBits {arg : Bytes} {z : ℤ} (hz : toInt <$> stoul arg = .ok z)
    (hvalid : isSerialDataBitsValid z = true) (d d' : DeviceOptions) :
    d.set ⟨.serialDataBits, arg⟩ ≠ .ok d' := by
  intro h
  obtain ⟨z', hz', h⟩ := bind_eq_ok.mp h
  obtain rfl := Except.ok.inj (hz.symm.trans hz')
  rw [if_pos hvalid] at h
  cases h

theorem DeviceOptions.set_documented_dataBits {opt : Opt} (hcode : opt.code = .serialDataBits)
    (h : Documented opt) (d d' : DeviceOptions) : d.set opt ≠ .ok d' := by
  obtain ⟨code, arg⟩ := opt
  obtain rfl : code = .serialDataBits := hcode
  simp only [Documented, listed, List.mem_cons, List.not_mem_nil, or_false] at h
  obtain ⟨z, hz, hvalid⟩ : ∃ z, toInt <$> stoul arg = .ok z ∧ isSerialDataBitsValid z = true := by
    rcases h with rfl | rfl | rfl | rfl
    · exact ⟨5, by decide, rfl⟩
    · exact ⟨6, by decide, rfl⟩
    · exact ⟨7, by decide, rfl⟩
    · exact ⟨8, by decide, rfl⟩
  exact DeviceOptions.set_validDataBits hz hvalid d d'

/-! ### The loops -/

/-- What is handed to `SerialDevice` after an accepted sequence of options is valid, and a sequence
of documented options is accepted. -/
structure SerialSound (opts : List Opt) (accepted : Prop) (device : DeviceOptions) : Prop where
  valid : accepted → device.deviceType = .serial → device.SerialValid
  accepts : (∀ opt ∈ opts, Documented opt) → accepted

/-- An accepted sequence leaves an invalid number of data bits, and no sequence of documented
options is accepted. -/
structure DataBitsInverted (opts : List Opt) (accepted : Prop) (device : DeviceOptions) : Prop where
  invalid : accepted → isSerialDataBitsValid device.serialDataBits = false
  refuses : (∀ opt ∈ opts, Documented opt) → ¬ accepted

/-- A loop body that sets the device as both programs do. -/
structure SetsDevice {σ ε : Type} (step : σ → Opt → Except ε σ) (device : σ → DeviceOptions) :
    Prop where
  device_cases : ∀ s opt s', step s opt = .ok s' →
    (opt.code ≠ .serialDataBits ∧ device s' = device s) ∨ (device s).set opt = .ok (device s')
  documented : ∀ s opt, opt.code ≠ .serialDataBits → Documented opt → ∃ s', step s opt = .ok s'

section

variable {σ ε : Type} {step : σ → Opt → Except ε σ} {device : σ → DeviceOptions} {s : σ}
  {opts : List Opt}

theorem SetsDevice.sound (h : SetsDevice step device) (hs : (device s).SerialValid)
    (hno : ∀ opt ∈ opts, opt.code ≠ .serialDataBits) :
    SerialSound opts ((loop step s opts).2 = none) (device (loop step s opts).1) := by
  refine ⟨fun _ _ => ?_, fun hdoc => Loop.loop_eq_none fun t opt hopt =>
    h.documented t opt (hno opt hopt) (hdoc opt hopt)⟩
  refine Loop.loop_invariant (I := fun t => (device t).SerialValid) hs
    fun t t' opt hopt ht hset => ?_
  rcases h.device_cases t opt t' hset with ⟨-, heq⟩ | hdevice
  · rwa [heq]
  · exact DeviceOptions.set_valid (hno opt hopt) ht hdevice

theorem SetsDevice.inverted (h : SetsDevice step device) {opt : Opt} (hopt : opt ∈ opts)
    (hcode : opt.code = .serialDataBits) :
    DataBitsInverted opts ((loop step s opts).2 = none) (device (loop step s opts).1) := by
  have hset {t t' : σ} {o : Opt} (ho : o.code = .serialDataBits) (hstep : step t o = .ok t') :
      (device t).set o = .ok (device t') :=
    (h.device_cases t o t' hstep).resolve_left fun hother => hother.1 ho
  refine ⟨fun hnone => ?_, fun hdoc hnone => ?_⟩
  · -- the option leaves an invalid number, and no option repairs it
    refine Loop.loop_establishes
      (I := fun t => isSerialDataBitsValid (device t).serialDataBits = false) hopt hnone
      (fun t t' hstep => DeviceOptions.set_dataBits hcode (hset hcode hstep)) ?_
    intro t t' o ho ht hstep
    by_cases hbits : o.code = .serialDataBits
    · exact DeviceOptions.set_dataBits hbits (hset hbits hstep)
    · rcases h.device_cases t o t' hstep with ⟨-, heq⟩ | hdevice
      · rwa [heq]
      · rwa [DeviceOptions.set_keeps_dataBits hbits hdevice]
  · obtain ⟨t, t', hstep⟩ := Loop.step_of_loop hopt hnone
    exact DeviceOptions.set_documented_dataBits hcode (hdoc opt hopt) _ _ (hset hcode hstep)

end

/-- A body that hands an option on to the branches for the device. -/
theorem device_of_bind {α : Type} {d : DeviceOptions} {opt : Opt} {f : DeviceOptions → α}
    {device : α → DeviceOptions} (hf : ∀ d, device (f d) = d) {a : α}
    (h : (d.set opt >>= fun d => pure (f d)) = .ok a) : d.set opt = .ok (device a) := by
  obtain ⟨d', hd, hpure⟩ := bind_eq_ok.mp h
  rw [← pure_eq_ok.mp hpure, hf, hd]

theorem Inverterctl.setsDevice : SetsDevice Params.set Params.device := by
  refine ⟨fun p opt p' h => ?_, fun p opt hcode hdoc => ?_⟩
  · obtain ⟨code, arg⟩ := opt
    cases code with
    | shortHelp | help | verbose =>
        rw [← Except.ok.inj h]
        exact .inl ⟨nofun, rfl⟩
    | format | timeout =>
        obtain ⟨v, -, hpure⟩ := bind_eq_ok.mp h
        rw [← pure_eq_ok.mp hpure]
        exact .inl ⟨nofun, rfl⟩
    | raw =>
        simp only [Params.set] at h
        split_ifs at h
        rw [← Except.ok.inj h]
        exact .inl ⟨nofun, rfl⟩
    | _ => exact .inr (device_of_bind (fun _ => rfl) h)
  · obtain ⟨d', hdevice⟩ := DeviceOptions.set_documented hcode hdoc p.device
    obtain ⟨code, arg⟩ := opt
    cases code with
    | shortHelp | help | verbose => exact ⟨_, rfl⟩
    | format =>
        obtain ⟨format, hformat⟩ := Connection.mem_formatNames_iff.mp hdoc
        exact ⟨_, bind_eq_ok.mpr ⟨format, hformat, rfl⟩⟩
    | timeout => exact ⟨_, bind_eq_ok.mpr ⟨_, stoull_allDigits hdoc.1 hdoc.2.1 hdoc.2.2, rfl⟩⟩
    | raw => exact ⟨_, if_neg (Nat.not_lt.mpr hdoc)⟩
    | _ => exact ⟨_, bind_eq_ok.mpr ⟨d', hdevice, rfl⟩⟩

theorem Inverterd.orThrow_eq_ok {α : Type} {x : Except Exn α} {a : α} :
    orThrow x = .ok a ↔ x = .ok a := by
  cases x with
  | error e => exact iff_of_false nofun nofun
  | ok b =>
      constructor
      · intro h
        cases h
        rfl
      · intro h
        cases h
        rfl

theorem Inverterd.setsDevice : SetsDevice Params.set Params.device := by
  refine ⟨fun p opt p' h => ?_, fun p opt hcode hdoc => ?_⟩
  · obtain ⟨code, arg⟩ := opt
    cases code with
    | shortHelp | help => cases h
    | verbose | host =>
        rw [← Except.ok.inj h]
        exact .inl ⟨nofun, rfl⟩
    | timeout | cacheTimeout | delay | deviceErrorLimit | port =>
        obtain ⟨v, -, hpure⟩ := bind_eq_ok.mp (orThrow_eq_ok.mp h)
        rw [← pure_eq_ok.mp hpure]
        exact .inl ⟨nofun, rfl⟩
    | _ => exact .inr (device_of_bind (fun _ => rfl) (orThrow_eq_ok.mp h))
  · obtain ⟨d', hdevice⟩ := DeviceOptions.set_documented hcode hdoc p.device
    obtain ⟨code, arg⟩ := opt
    cases code with
    | shortHelp | help => exact hdoc.elim
    | verbose | host => exact ⟨_, rfl⟩
    | timeout | cacheTimeout | delay =>
        exact ⟨_, orThrow_eq_ok.mpr
          (bind_eq_ok.mpr ⟨_, stoull_allDigits hdoc.1 hdoc.2.1 hdoc.2.2, rfl⟩)⟩
    | deviceErrorLimit =>
        exact ⟨_, orThrow_eq_ok.mpr (bind_eq_ok.mpr
          ⟨_, map_eq_ok.mpr ⟨_, stoul_allDigits hdoc.1 hdoc.2.1 hdoc.2.2, rfl⟩, rfl⟩)⟩
    | port =>
        exact ⟨_, orThrow_eq_ok.mpr
          (bind_eq_ok.mpr ⟨_, stoi_allDigits hdoc.1 hdoc.2.1 hdoc.2.2, rfl⟩)⟩
    | _ => exact ⟨_, orThrow_eq_ok.mpr (bind_eq_ok.mpr ⟨d', hdevice, rfl⟩)⟩

/-- **Serial parameters.**  For all sequences of options, in both programs: without
`--serial-data-bits`, what an accepted sequence hands to `SerialDevice` is valid and documented
options are accepted; with it, an accepted sequence leaves an invalid number of data bits and
documented options are refused. -/
theorem serial_options_sound (opts : List Opt) :
    let ctl := Inverterctl.readOptions opts
    let daemon := Inverterd.readOptions opts
    ((∀ opt ∈ opts, opt.code ≠ .serialDataBits) →
      SerialSound opts (ctl.2 = none) ctl.1.device ∧
        SerialSound opts (daemon.2 = none) daemon.1.device) ∧
    ((∃ opt ∈ opts, opt.code = .serialDataBits) →
      DataBitsInverted opts (ctl.2 = none) ctl.1.device ∧
        DataBitsInverted opts (daemon.2 = none) daemon.1.device) := by
  have hinit : DeviceOptions.init.SerialValid := ⟨by decide, by decide, rfl, rfl⟩
  refine ⟨fun hno => ⟨?_, ?_⟩, fun ⟨opt, hopt, hcode⟩ => ⟨?_, ?_⟩⟩
  · exact Inverterctl.setsDevice.sound hinit hno
  · exact Inverterd.setsDevice.sound hinit hno
  · exact Inverterctl.setsDevice.inverted hopt hcode
  · exact Inverterd.setsDevice.inverted hopt hcode

/-- A serial device at 9600 baud with two stop bits. -/
theorem serial_options_sound_baud_rate :
    let opts : List Opt := [⟨.device, ascii "serial"⟩, ⟨.serialBaudRate, ascii "9600"⟩,
      ⟨.serialStopBits, ascii "2"⟩]
    SerialSound opts ((Inverterctl.readOptions opts).2 = none)
        (Inverterctl.readOptions opts).1.device ∧
      SerialSound opts ((Inverterd.readOptions opts).2 = none)
        (Inverterd.readOptions opts).1.device :=
  (serial_options_sound _).1 (by decide)

/-- `--device serial --serial-data-bits 9` is accepted, and `SerialDevice` gets nine data bits. -/
theorem serial_options_nine_bits : ¬ ∀ opts : List Opt,
    SerialSound opts ((Inverterctl.readOptions opts).2 = none)
      (Inverterctl.readOptions opts).1.device := by
  intro h
  have hvalid := (h [⟨.device, ascii "serial"⟩, ⟨.serialDataBits, ascii "9"⟩]).valid
    (by decide) (by decide)
  exact absurd hvalid.dataBits (by decide)

end InverterTools
