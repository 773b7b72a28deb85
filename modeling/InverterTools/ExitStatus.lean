import InverterTools.CommandLine

/-! # The exit status of `inverterctl`

`main` has two `try` blocks: one around the options and the command, one around the device.  The
status at its end is written the wrong way round, the second block leaves some exception classes
uncaught, and the flag for an option error is never looked at.  So the status tells success from
failure only for command lines that are refused before (`exit_status_iff`). -/

namespace InverterTools.Inverterctl

open Formatter (Format JsonDump)
open P18 (CommandType Machine ResponseBuffer errorFormat execute)
open Voltronic (Device Driver)

/-- What is to be run on the device. -/
inductive Request where
  | raw (data : Bytes)
  | command (commandType : CommandType) (arguments : List Bytes)
deriving DecidableEq, Repr

/-- The `switch` over the action and the check for extra parameters; `none` is a usage text, after
which the program exits. -/
def readRequest (m : Machine) (p : Params) (words : List Bytes) : Except Exn (Option Request) :=
  match p.action with
  | .shortHelp | .fullHelp => .ok none
  | .command => do
      let (commandType, arguments) ← readCommand m words
      pure (some (.command commandType arguments))
  | .raw =>
      if p.formatChanged then .error (invalidArgument "--format is not allowed with --raw")
      else if words ≠ [] then .error (invalidArgument "extra parameter found")
      else .ok (some (.raw p.raw))

/-- The first `try` block, with the variables it leaves. -/
def readArguments (m : Machine) (g : Getopt) : Params × Except Exn (Option Request) :=
  match readOptions g.opts with
  | (p, some e) => (p, .error e)
  | (p, none) => (p, readRequest m p g.words)

/-- What the program has printed. -/
inductive Printed where
  | nothing
  | usage
  | answer (text : Bytes)
  | error (text : Bytes)
deriving DecidableEq, Repr

/-- How `main` ended (an exception is one that leaves it), what was printed and what went out. -/
structure MainEnd where
  outcome : Outcome Exn ℤ
  printed : Printed
  wire : Bytes
deriving DecidableEq, Repr

/-- The driver behind a device type; a pseudo device hands back sizes as a serial one does. -/
def driverOf : DeviceType → Driver
  | .usb => .usb
  | .serial | .pseudo => .serial

/-- `success ? 1 : 0`. -/
def exitStatus (success : Bool) : ℤ := if success then 1 else 0

section

variable (J : JsonDump) (m : Machine) (depth : ℕ)

/-- `output_formatted_error`, and the return behind it. -/
def outputFormattedError (format : Format) (e : Exn) (s : Bytes) (status : ℤ) (wire : Bytes) :
    MainEnd :=
  match (errorFormat ((if s = [] then [] else s ++ ascii ": ") ++ cstr e.what)).write J depth
      format with
  | .ret text => ⟨.ret status, .error text, wire⟩
  | .throw e' => ⟨.throw e', .nothing, wire⟩
  | .fault => ⟨.fault, .nothing, wire⟩
  | .pending => ⟨.pending, .nothing, wire⟩

/-- The handlers of the second `try` block. -/
def handleError (format : Format) (e : Exn) (wire : Bytes) : MainEnd :=
  let report := fun s => outputFormattedError J depth format e (ascii s) (exitStatus false) wire
  match e.cls with
  | .deviceError => report "device error"
  | .timeoutError => report "timeout"
  | .invalidDataError => report "data is invalid"
  | .invalidResponseError | .parseError => report "response is invalid"
  | _ => ⟨.throw e, .nothing, wire⟩

/-- The end of the second `try` block: `text` is what is printed in front of the line feed. -/
def finish (format : Format) (text : Outcome Exn Bytes) (wire : Bytes) : MainEnd :=
  match text with
  | .ret text => ⟨.ret (exitStatus true), .answer (text ++ [LF]), wire⟩
  | .throw e => handleError J depth format e wire
  | .fault => ⟨.fault, .nothing, wire⟩
  | .pending => ⟨.pending, .nothing, wire⟩

/-- The request on a device that is open. -/
def runRequest (p : Params) (request : Request) (env : Device.Script) (buf : ResponseBuffer) :
    MainEnd :=
  let dev : Device := ⟨driverOf p.device.deviceType, Voltronic.defaultFlags, UInt64.ofNat p.timeout⟩
  match request with
  | .raw data =>
      let r := dev.run env data buf.1
      finish J depth p.format (r.outcome >>= fun n => .ret (r.outbuf.take n)) r.wire
  | .command commandType arguments =>
      let r := execute m dev env buf commandType arguments
      finish J depth p.format (r.outcome >>= fun response =>
        (P18.format response.command response.raw response.fields).write J depth p.format) r.wire

/-- `main`, with at least one argument.  `opened` is what the constructor of the device does. -/
def main (g : Getopt) (opened : Except Exn Unit) (env : Device.Script) (buf : ResponseBuffer) :
    MainEnd :=
  match readArguments m g with
  | (p, .error e) =>
      if e.cls = .invalidArgument then outputFormattedError J depth p.format e [] 1 []
      else ⟨.throw e, .nothing, []⟩
  | (_, .ok none) => ⟨.ret 1, .usage, []⟩
  | (p, .ok (some request)) =>
      match opened with
      | .error e => handleError J depth p.format e []
      | .ok () => runRequest J m depth p request env buf

end

/-- The exit status tells success from failure: no exception leaves `main`, it returns `0` exactly
when it has printed the answer of the device, and else it has printed an error; and nothing goes out
after an option error. -/
structure TellsSuccess (g : Getopt) (r : MainEnd) : Prop where
  returns : ∃ status, r.outcome = .ret status
  success : r.outcome = .ret 0 ↔ ∃ text, r.printed = .answer text
  failure : r.outcome ≠ .ret 0 → ∃ text, r.printed = .error text
  unsent : g.error = true → r.wire = []

/-- No option asks for help. -/
def NoHelp (g : Getopt) : Prop := ∀ opt ∈ g.opts, opt.code ≠ .shortHelp ∧ opt.code ≠ .help

instance (g : Getopt) : Decidable (NoHelp g) :=
  inferInstanceAs (Decidable (∀ opt ∈ g.opts, opt.code ≠ .shortHelp ∧ opt.code ≠ .help))

/-! ### What the first block throws -/

theorem hextoul_raises (s : Bytes) : Raises Exn.Printable (hextoul s) := by
  unfold hextoul
  dsimp only
  split_ifs
  · exact raises_error.mpr (by decide)
  · exact raises_ok _

theorem usbId_raises {name : String} (hname : isPrintable (ascii name) = true) (arg : Bytes) :
    Raises Exn.Printable (usbId name arg) := by
  have hinvalid {what : Bytes} (h : isPrintable what = true) : Exn.Printable
      ⟨.invalidArgument, ascii name ++ ascii ": invalid format: " ++ what⟩ := by
    simp only [Exn.Printable, isPrintable_append, hname, h, and_true, true_and]
    decide
  unfold usbId
  dsimp only
  split_ifs
  · refine raises_error.mpr (hinvalid ?_)
    simp only [isPrintable_append, hname, true_and]
    decide
  · have hhex := hextoul_raises arg
    cases hn : hextoul arg with
    | error e => exact raises_error.mpr (hinvalid (hhex e hn))
    | ok n => exact raises_ok _

theorem deviceSet_raises (d : DeviceOptions) (opt : Opt) : Raises Exn.Printable (d.set opt) := by
  obtain ⟨code, arg⟩ := opt
  unfold DeviceOptions.set
  cases code with
  | device | serialStopBits | serialParity =>
      dsimp only
      split_ifs <;> first | exact raises_ok _ | exact raises_error.mpr (by decide)
  | usbVendorId => exact raises_bind (usbId_raises (by decide) arg) fun id => raises_pure _
  | usbDeviceId => exact raises_bind (usbId_raises (by decide) arg) fun id => raises_pure _
  | serialBaudRate | serialDataBits =>
      refine raises_bind (raises_map.mpr (stoul_raises arg)) fun n => ?_
      split_ifs
      · exact raises_error.mpr (by decide)
      · exact raises_pure _
  | _ => exact raises_ok _

theorem set_raises (p : Params) (opt : Opt) : Raises Exn.Printable (p.set opt) := by
  obtain ⟨code, arg⟩ := opt
  unfold Params.set
  cases code with
  | shortHelp | help | verbose => exact raises_ok _
  | format => exact raises_bind (Connection.formatFromString_raises arg) fun f => raises_pure _
  | raw =>
      dsimp only
      split_ifs
      · exact raises_error.mpr (by decide)
      · exact raises_ok _
  | timeout => exact raises_bind (toExcept_raises (by decide) _) fun n => raises_pure _
  | _ => exact raises_bind (deviceSet_raises p.device _) fun d => raises_pure _

theorem requiresArguments_printable (count : ℕ) : (requiresArguments count).Printable := by
  simp only [Exn.Printable, requiresArguments, isPrintable_append, isPrintable_decimal]
  split_ifs <;> decide

theorem takeArgs_raises (count n : ℕ) (arguments argv : List Bytes) :
    Raises Exn.Printable (takeArgs count n arguments argv) := by
  induction n generalizing arguments argv with
  | zero => exact raises_ok _
  | succ n ih =>
      cases argv with
      | nil => exact raises_error.mpr (requiresArguments_printable count)
      | cons word argv =>
          unfold takeArgs
          split_ifs
          · exact ih _ _
          · exact raises_error.mpr (requiresArguments_printable count)

theorem readCommand_raises (m : Machine) (words : List Bytes) :
    Raises Exn.Printable (readCommand m words) := by
  cases words with
  | nil => exact raises_error.mpr (by decide)
  | cons command argv =>
      refine raises_bind (P18.validateInput_raises_of
        (fun n => raises_map.mpr (takeArgs_raises n n [] argv)) command) fun input => ?_
      dsimp only
      split_ifs
      · exact raises_error.mpr (by decide)
      · exact raises_pure _

theorem readArguments_raises (m : Machine) (g : Getopt) :
    Raises Exn.Printable (readArguments m g).2 := by
  unfold readArguments
  rcases ho : readOptions g.opts with ⟨p, _ | e⟩
  · dsimp only
    unfold readRequest
    cases p.action with
    | shortHelp | fullHelp => exact raises_ok none
    | command => exact raises_bind (readCommand_raises m g.words) fun c => raises_pure _
    | raw =>
        dsimp only
        split_ifs <;> first | exact raises_ok _ | exact raises_error.mpr (by decide)
  · obtain ⟨p', opt, -, hstep⟩ := Loop.step_error_of_loop (congrArg Prod.snd ho)
    exact raises_error.mpr (set_raises p' opt e hstep)

theorem set_action {p p' : Params} {opt : Opt} (h : p.set opt = .ok p')
    (hhelp : opt.code ≠ .shortHelp ∧ opt.code ≠ .help) :
    p'.action = (if opt.code = .raw then .raw else p.action) ∧
      p'.formatChanged = (p.formatChanged || decide (opt.code = .format)) := by
  obtain ⟨code, arg⟩ := opt
  cases code with
  | shortHelp => exact absurd rfl hhelp.1
  | help => exact absurd rfl hhelp.2
  | verbose =>
      obtain rfl := Except.ok.inj h
      simp
  | raw =>
      simp only [Params.set] at h
      split_ifs at h
      obtain rfl := Except.ok.inj h
      simp
  | format =>
      obtain ⟨v, -, hpure⟩ := bind_eq_ok.mp h
      obtain rfl := pure_eq_ok.mp hpure
      simp
  | _ =>
      obtain ⟨v, -, hpure⟩ := bind_eq_ok.mp h
      obtain rfl := pure_eq_ok.mp hpure
      simp

/-- Without an option for help, the action is `Raw` when `--raw` is among the options, and else
`Command`. -/
theorem action_of_noHelp {g : Getopt} (h : NoHelp g) (htaken : ∀ opt ∈ g.opts, Taken opt) :
    (readOptions g.opts).1.action =
      if ∃ opt ∈ g.opts, opt.code = .raw then .raw else .command := by
  have hnone := (readOptions_taken_iff g.opts).mpr htaken
  split_ifs with hraw
  · obtain ⟨opt, hopt, hcode⟩ := hraw
    apply Loop.loop_establishes (I := fun p : Params => p.action = .raw) hopt hnone
    · intro p p' hset
      rw [(set_action hset (h opt hopt)).1, if_pos hcode]
    · intro p p' b hb hp hset
      rw [(set_action hset (h b hb)).1, hp, ite_self]
  · apply Loop.loop_invariant (I := fun p : Params => p.action = .command) rfl
    intro p p' opt hopt hp hset
    have hcode : opt.code ≠ .raw := fun hcode => hraw ⟨opt, hopt, hcode⟩
    rw [(set_action hset (h opt hopt)).1, if_neg hcode, hp]

theorem formatChanged_iff {g : Getopt} (h : NoHelp g) (htaken : ∀ opt ∈ g.opts, Taken opt) :
    (readOptions g.opts).1.formatChanged = true ↔ ∃ opt ∈ g.opts, opt.code = .format := by
  have hnone := (readOptions_taken_iff g.opts).mpr htaken
  constructor
  · intro hchanged
    by_contra hformat
    have hfalse : (readOptions g.opts).1.formatChanged = false := by
      apply Loop.loop_invariant (I := fun p : Params => p.formatChanged = false) rfl
      intro p p' opt hopt hp hset
      have hcode : opt.code ≠ .format := fun hcode => hformat ⟨opt, hopt, hcode⟩
      rw [(set_action hset (h opt hopt)).2, hp, decide_eq_false hcode]
      rfl
    rw [hfalse] at hchanged
    cases hchanged
  · rintro ⟨opt, hopt, hcode⟩
    apply Loop.loop_establishes (I := fun p : Params => p.formatChanged = true) hopt hnone
    · intro p p' hset
      rw [(set_action hset (h opt hopt)).2, decide_eq_true hcode, Bool.or_true]
    · intro p p' b hb hp hset
      rw [(set_action hset (h b hb)).2, hp, Bool.true_or]

theorem readRequest_refused_iff {m : Machine} {g : Getopt} (h : NoHelp g)
    (htaken : ∀ opt ∈ g.opts, Taken opt) :
    (∃ e, readRequest m (readOptions g.opts).1 g.words = .error e ∧ e.Invalid) ↔
      if ∃ opt ∈ g.opts, opt.code = .raw then (∃ opt ∈ g.opts, opt.code = .format) ∨ g.words ≠ []
      else CommandRefused m g.words := by
  have haction := action_of_noHelp h htaken
  unfold readRequest
  by_cases hraw : ∃ opt ∈ g.opts, opt.code = .raw
  · rw [if_pos hraw] at haction ⊢
    rw [haction, ← formatChanged_iff h htaken]
    dsimp only
    by_cases hformat : (readOptions g.opts).1.formatChanged = true
    · rw [if_pos hformat]
      exact iff_of_true ⟨_, rfl, rfl⟩ (.inl hformat)
    · by_cases hwords : g.words ≠ []
      · rw [if_neg hformat, if_pos hwords]
        exact iff_of_true ⟨_, rfl, rfl⟩ (.inr hwords)
      · rw [if_neg hformat, if_neg hwords]
        exact iff_of_false (fun ⟨e, he, _⟩ => nomatch he) (not_or.mpr ⟨hformat, hwords⟩)
  · rw [if_neg hraw] at haction ⊢
    rw [haction, ← readCommand_refused_iff, error_invalid_iff, error_invalid_iff]
    exact and_congr (not_congr exists_bind_pure) raises_bind_pure

theorem readRequest_ne_none {m : Machine} {g : Getopt} (h : NoHelp g)
    (htaken : ∀ opt ∈ g.opts, Taken opt) :
    readRequest m (readOptions g.opts).1 g.words ≠ .ok none := by
  have haction := action_of_noHelp h htaken
  unfold readRequest
  by_cases hraw : ∃ opt ∈ g.opts, opt.code = .raw
  · rw [if_pos hraw] at haction
    rw [haction]
    dsimp only
    split_ifs <;> exact nofun
  · rw [if_neg hraw] at haction
    rw [haction]
    intro hnone
    obtain ⟨c, -, hpure⟩ := bind_eq_ok.mp hnone
    cases pure_eq_ok.mp hpure

theorem readArguments_ne_none {m : Machine} {g : Getopt} (h : NoHelp g) :
    (readArguments m g).2 ≠ .ok none := by
  have htaken := readOptions_taken_iff g.opts
  have hrequest := readRequest_ne_none (m := m) h
  unfold readArguments
  rcases ho : readOptions g.opts with ⟨p, _ | e⟩
  · rw [ho] at htaken hrequest
    exact hrequest (htaken.mp rfl)
  · exact nofun

/-- **What the first block refuses** with `std::invalid_argument`. -/
theorem readArguments_refused_iff {m : Machine} {g : Getopt} (h : NoHelp g) :
    (∃ e, (readArguments m g).2 = .error e ∧ e.Invalid) ↔ Refused m g := by
  have htaken := readOptions_taken_iff g.opts
  have hrefused := readOptions_refused_iff g.opts
  have hrequest := readRequest_refused_iff (m := m) h
  unfold readArguments Refused
  rcases ho : readOptions g.opts with ⟨p, _ | e⟩
  · rw [ho] at htaken hrefused hrequest
    have hall := htaken.mp rfl
    have hnot : ¬ OptionRefused g.opts := fun hopt => by
      obtain ⟨e, he, -⟩ := hrefused.mpr hopt
      cases he
    rw [or_iff_right hnot, and_iff_right hall]
    exact hrequest hall
  · rw [ho] at htaken hrefused
    have hnot : ¬ ∀ opt ∈ g.opts, Taken opt := fun hall => nomatch htaken.mpr hall
    rw [or_iff_left fun hall => hnot hall.1, ← hrefused]
    simp

/-! ### The end of `main` -/

section

variable {J : JsonDump} {depth : ℕ} {format : Format} {g : Getopt} {wire : Bytes}

theorem errorFormat_ret {text : Bytes} (h : isAscii text = true) :
    ∃ t, (errorFormat text).write J depth format = .ret t := by
  have hkeys : (errorFormat text).AsciiKeys := trivial
  cases Formatter.Formattable.write_written J depth format hkeys with
  | text t ho => exact ⟨t, ho⟩
  | thrown e ho _ _ hp => exact absurd (.inr (.inr (validUtf8_of_isAscii h))) hp
  | stuck ho he => exact absurd trivial he

theorem not_tellsSuccess {r : MainEnd} (h : ∀ status, r.outcome ≠ .ret status) :
    ¬ TellsSuccess g r := fun htells => by
  obtain ⟨status, hret⟩ := htells.returns
  exact h status hret

/-- A formatted error with the status of success tells nothing. -/
theorem outputFormattedError_zero (e : Exn) (s : Bytes) :
    ¬ TellsSuccess g (outputFormattedError J depth format e s (exitStatus false) wire) := by
  unfold outputFormattedError
  cases (errorFormat ((if s = [] then [] else s ++ ascii ": ") ++ cstr e.what)).write J depth
      format with
  | ret text =>
      intro h
      obtain ⟨answer, hanswer⟩ := h.success.mp rfl
      cases hanswer
  | throw e' => exact not_tellsSuccess fun status => nofun
  | fault => exact not_tellsSuccess fun status => nofun
  | pending => exact not_tellsSuccess fun status => nofun

theorem handleError_not_tells (e : Exn) :
    ¬ TellsSuccess g (handleError J depth format e wire) := by
  unfold handleError
  cases e.cls with
  | deviceError => exact outputFormattedError_zero e _
  | timeoutError => exact outputFormattedError_zero e _
  | invalidDataError => exact outputFormattedError_zero e _
  | invalidResponseError => exact outputFormattedError_zero e _
  | parseError => exact outputFormattedError_zero e _
  | _ => exact not_tellsSuccess fun status => nofun

/-- Behind the first block the status is wrong, however the device behaves. -/
theorem finish_not_tells (text : Outcome Exn Bytes) :
    ¬ TellsSuccess g (finish J depth format text wire) := by
  cases text with
  | ret text =>
      intro h
      have hzero := h.success.mpr ⟨_, rfl⟩
      cases hzero
  | throw e => exact handleError_not_tells e
  | fault => exact not_tellsSuccess fun status => nofun
  | pending => exact not_tellsSuccess fun status => nofun

theorem runRequest_not_tells (m : Machine) (p : Params) (request : Request) (env : Device.Script)
    (buf : ResponseBuffer) : ¬ TellsSuccess g (runRequest J m depth p request env buf) := by
  cases request with
  | raw data => exact finish_not_tells _
  | command commandType arguments => exact finish_not_tells _

end

/-- **The exit status.**  For every command line without a request for help and every behaviour of
the device, the status tells success from failure if and only if the command line is refused: the
value of an option, or the command and its arguments, is none that is taken, and no number that is
read before is too large for its type. -/
theorem exit_status_iff (J : JsonDump) (m : Machine) (depth : ℕ) (g : Getopt) (hhelp : NoHelp g)
    (opened : Except Exn Unit) (env : Device.Script) (buf : ResponseBuffer) :
    TellsSuccess g (main J m depth g opened env buf) ↔ Refused m g := by
  have hraises := readArguments_raises m g
  have hne := readArguments_ne_none (m := m) hhelp
  rw [← readArguments_refused_iff hhelp]
  unfold main
  rcases hr : readArguments m g with ⟨p, e | _ | request⟩
  · rw [hr] at hraises
    dsimp only
    split_ifs with hcls
    · refine iff_of_true ?_ ⟨e, rfl, hcls⟩
      have hascii : isAscii (cstr e.what) = true :=
        isAscii_of_subset (cstr_isPrefix e.what).subset (hraises e rfl).ascii
      obtain ⟨t, ht⟩ : ∃ t, (errorFormat (cstr e.what)).write J depth p.format = .ret t :=
        errorFormat_ret hascii
      have hend : outputFormattedError J depth p.format e [] 1 [] = ⟨.ret 1, .error t, []⟩ := by
        rw [outputFormattedError, if_pos rfl, List.nil_append, ht]
      rw [hend]
      refine ⟨⟨1, rfl⟩, ?_, fun _ => ⟨t, rfl⟩, fun _ => rfl⟩
      exact iff_of_false nofun (fun ⟨text, h⟩ => nomatch h)
    · refine iff_of_false (not_tellsSuccess fun status => nofun) ?_
      rintro ⟨e', he, hcls'⟩
      obtain rfl := Except.error.inj he
      exact hcls hcls'
  · rw [hr] at hne
    exact absurd rfl hne
  · refine iff_of_false ?_ (fun ⟨e, he, _⟩ => nomatch he)
    cases opened with
    | error e => exact handleError_not_tells e
    | ok u => exact runRequest_not_tells m p request env buf

/-- `inverterctl --device foo get-mode` prints an error and returns `1`. -/
theorem exit_status_invalid_device :
    let g : Getopt := ⟨[⟨.device, ascii "foo"⟩], false, [ascii "get-mode"]⟩
    TellsSuccess g (main Formatter.textDump P18.x86 0 g (.ok ()) ⟨0, [], 0, 0, []⟩
      P18.zeroBuffer) :=
  (exit_status_iff _ _ _ _ (by decide) _ _ _).mpr (.inl ⟨[], ⟨.device, ascii "foo"⟩, [], rfl, nofun,
    show ascii "foo" ∉ listed .device by decide, trivial⟩)

/-- `inverterctl get-mode` without a device prints an error and returns `0`. -/
theorem exit_status_zero_without_device : ¬ ∀ (J : JsonDump) (m : Machine) (depth : ℕ) (g : Getopt)
    (opened : Except Exn Unit) (env : Device.Script) (buf : ResponseBuffer), NoHelp g →
      TellsSuccess g (main J m depth g opened env buf) := fun h => by
  have hend := h Formatter.textDump P18.x86 0 ⟨[], false, [ascii "get-mode"]⟩
    (.error ⟨.deviceError, ascii "failed to create hidapi device"⟩) ⟨0, [], 0, 0, []⟩ P18.zeroBuffer
    (by decide)
  obtain ⟨text, htext⟩ := hend.success.mp (by decide)
  exact Printed.noConfusion htext

end InverterTools.Inverterctl
