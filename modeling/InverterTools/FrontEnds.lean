import InverterTools.ClientMutex
import InverterTools.ErrorContract
import InverterTools.ExitStatus
import InverterTools.RequestGrammar

/-! # One command at both front ends

`inverterctl` opens the device itself, the daemon has it open; the words of the command come from
the command line or from a request.  Whatever the device does, both send it the same bytes and show
the same text (`front_ends_answer`).  They differ in the exceptions: the daemon catches every
`std::exception`, `inverterctl` the five classes of `Exn.Handled`. -/

namespace InverterTools.Inverterctl

open Formatter (Format JsonDump)
open P18 (CommandType Machine argCount clientCommand errorFormat validateArgs validateInput)
open Connection (ConnectionOptions inputCommand processRequest report)
open Server (Call Live RequestType transmitted words)

/-! ### The command -/

/-- What `inverterctl` accepts, the daemon does. -/
theorem inputCommand_of_readCommand {m : Machine} {argv args : List Bytes} {c : CommandType}
    (h : readCommand m argv = .ok (c, args)) : inputCommand m argv = .ok (c, args) := by
  cases argv with
  | nil => cases h
  | cons command argv =>
      obtain ⟨hc, -, hlen, hargs⟩ := readCommand_eq_ok.mp h
      apply inputCommand_eq_ok.mpr
      rw [← hlen, List.take_length]
      exact ⟨hc, le_rfl, hargs⟩

/-! ### The answer -/

/-- What the daemon responds and what `inverterctl` prints: the same answer; the same error, when
its class is handled; else the daemon reports it, and `inverterctl` is ended by it; or neither comes
to an end. -/
inductive SameAnswer (J : JsonDump) (depth : ℕ) (format : Format)
    (response : Outcome Exn Connection.Response) (r : MainEnd) : Prop where
  | answer (text : Bytes) (hresponse : response = .ret ⟨.ok, text⟩) (hend : r.outcome = .ret 1)
      (hprinted : r.printed = .answer (text ++ [LF]))
  | error (text : Bytes) (hresponse : response = .ret ⟨.error, text⟩) (hend : r.outcome = .ret 0)
      (hprinted : r.printed = .error text)
  | uncaught (e : Exn) (text : Bytes) (hresponse : response = .ret ⟨.error, text⟩)
      (hend : r.outcome = .throw e) (hprinted : r.printed = .nothing) (hclass : ¬ e.Handled)
      (htext : (errorFormat (cstr e.what)).write J depth format = .ret text)
  | stuck (hresponse : ¬ response.Ended) (hend : ¬ r.outcome.Ended)

section

variable {J : JsonDump} {depth : ℕ} {format : Format} {options : ConnectionOptions} {e : Exn}
  {wire : Bytes}

theorem report_ret (he : e.Ascii) : ∃ text, report J depth options e = .ret ⟨.error, text⟩ ∧
    (errorFormat (cstr e.what)).write J depth options.format = .ret text := by
  have hascii : isAscii (cstr e.what) = true := isAscii_of_subset (cstr_isPrefix e.what).subset he
  obtain ⟨text, htext⟩ : ∃ text, (errorFormat (cstr e.what)).write J depth options.format =
    .ret text := errorFormat_ret hascii
  refine ⟨text, ?_, htext⟩
  rw [report, htext]
  rfl

/-- A handler of `inverterctl` prints the text that the daemon translates the exception to. -/
theorem outputFormattedError_translate {s : String} (hne : ascii s ≠ []) (hzero : 0 ∉ ascii s)
    {what : Bytes} (hwhat : what = ascii s ++ ascii ": " ++ e.what) {text : Bytes}
    (htext : (errorFormat (cstr what)).write J depth format = .ret text) :
    outputFormattedError J depth format e (ascii s) (exitStatus false) wire =
      ⟨.ret 0, .error text, wire⟩ := by
  have hcolon : 0 ∉ ascii s ++ ascii ": " := by
    rw [List.mem_append, not_or]
    exact ⟨hzero, by decide⟩
  rw [hwhat, cstr_append_of_notMem hcolon] at htext
  rw [outputFormattedError, if_neg hne, htext]
  rfl

theorem sameAnswer_of_thrown (he : e.Printable) :
    SameAnswer J depth options.format (report J depth options (Server.translate e))
      (handleError J depth options.format e wire) := by
  obtain ⟨text, hreport, htext⟩ :=
    @report_ret J depth options _ (Server.translate_printable he).ascii
  rw [hreport]
  have hmain (s : String) (hne : ascii s ≠ []) (hzero : 0 ∉ ascii s)
      (hwhat : (Server.translate e).what = ascii s ++ ascii ": " ++ e.what)
      {r : MainEnd} (hr : r = outputFormattedError J depth options.format e (ascii s)
        (exitStatus false) wire) :
      SameAnswer J depth options.format (.ret ⟨.error, text⟩) r := by
    rw [hr, outputFormattedError_translate hne hzero hwhat htext]
    exact .error text rfl rfl rfl
  have huncaught (htranslate : Server.translate e = e) (hclass : ¬ e.Handled)
      (hr : handleError J depth options.format e wire = ⟨.throw e, .nothing, wire⟩) :
      SameAnswer J depth options.format (.ret ⟨.error, text⟩)
        (handleError J depth options.format e wire) := by
    rw [htranslate] at htext
    rw [hr]
    exact .uncaught e text rfl rfl rfl hclass htext
  obtain ⟨cls, what⟩ := e
  cases cls with
  | deviceError => exact hmain "device error" (by decide) (by decide) rfl rfl
  | timeoutError => exact hmain "timeout" (by decide) (by decide) rfl rfl
  | invalidDataError => exact hmain "data is invalid" (by decide) (by decide) rfl rfl
  | invalidResponseError => exact hmain "response is invalid" (by decide) (by decide) rfl rfl
  | parseError => exact hmain "response is invalid" (by decide) (by decide) rfl rfl
  | invalidArgument => exact huncaught rfl (by simp [Exn.Handled]) rfl
  | outOfRange => exact huncaught rfl (by simp [Exn.Handled]) rfl
  | lengthError => exact huncaught rfl (by simp [Exn.Handled]) rfl
  | overflowError => exact huncaught rfl (by simp [Exn.Handled]) rfl
  | runtimeError => exact huncaught rfl (by simp [Exn.Handled]) rfl
  | typeError => exact huncaught rfl (by simp [Exn.Handled]) rfl

/-! ### The exchange -/

/-- The device that `main` sets up. -/
def Params.open (p : Params) : Voltronic.Device :=
  ⟨driverOf p.device.deviceType, Voltronic.defaultFlags, UInt64.ofNat p.timeout⟩

theorem runRequest_command (m : Machine) (p : Params) (c : CommandType) (args : List Bytes)
    (env : Server.Env) :
    runRequest J m depth p (.command c args) env.device env.buffer =
      let x := P18.execute m p.open env.device env.buffer c args
      finish J depth p.format (x.outcome >>= fun response =>
        (P18.format response.command response.raw response.fields).write J depth p.format) x.wire :=
  rfl

/-- The exchange comes to the same at both front ends. -/
theorem sameAnswer_of_exchange (m : Machine) (p : Params) {s : Server} {c : CommandType}
    {args : List Bytes} {env : Server.Env} {uninitialised : Option RequestType} {buf : Bytes}
    {arguments : List Bytes}
    (hresult : (Server.tokenise (cstr buf)).result = .ok (some .execute, arguments))
    (hinput : inputCommand m arguments = .ok (c, args)) (hdevice : s.device = p.open)
    (hlive : ¬ Live (s, ⟨c, args, env⟩)) (hformat : options.format = p.format) :
    SameAnswer J depth p.format (processRequest J m depth options s env uninitialised buf).outcome
      (runRequest J m depth p (.command c args) env.device env.buffer) := by
  have hend := Server.finish_of_not_live (m := m) hlive
  have hprintable := P18.execute_throws m p.open env.device env.buffer c args
  have hattempt : Connection.attempt J m depth options s env uninitialised buf =
      Connection.executeRequest J m depth options s env arguments := by
    unfold Connection.attempt
    rw [hresult]
    rfl
  unfold Server.onDevice Server.finish Call.run at hend
  dsimp only at hend
  rw [hdevice] at hend
  rw [runRequest_command, ← hformat]
  unfold processRequest
  rw [hattempt]
  unfold Connection.executeRequest
  rw [hinput]
  dsimp only
  generalize P18.execute m p.open env.device env.buffer c args = x at hend hprintable
  obtain ⟨o, wire, sent, unread⟩ := x
  dsimp only at hend hprintable ⊢
  cases o with
  | ret response =>
      rw [hend.1, Outcome.ret_bind]
      cases Connection.format_written J depth options response with
      | text text ho =>
          rw [ho]
          exact .answer text rfl rfl rfl
      | thrown e ho hdump =>
          obtain ⟨text, hreport, htext⟩ :=
            @report_ret J depth options e hdump.2
          have hclass : ¬ e.Handled := by simp [Exn.Handled, hdump.1]
          have hmain : handleError J depth options.format e wire = ⟨.throw e, .nothing, wire⟩ := by
            unfold handleError
            rw [hdump.1]
          rw [ho]
          dsimp only [finish]
          rw [hreport, hmain]
          exact .uncaught e text rfl rfl rfl hclass htext
      | stuck ho =>
          rw [ho]
          exact .stuck (fun h => h.2 rfl) (fun h => h.2 rfl)
  | throw e =>
      rw [hend.1]
      exact sameAnswer_of_thrown (hprintable e rfl)
  | fault =>
      rw [hend.1]
      exact .stuck (fun h => h.1 rfl) (fun h => h.1 rfl)
  | pending =>
      rw [hend.1]
      exact .stuck (fun h => h.2 rfl) (fun h => h.2 rfl)

theorem finish_wire (text : Outcome Exn Bytes) : (finish J depth format text wire).wire = wire := by
  have hformatted (e : Exn) (s : Bytes) (status : ℤ) :
      (outputFormattedError J depth format e s status wire).wire = wire := by
    unfold outputFormattedError
    cases (errorFormat ((if s = [] then [] else s ++ ascii ": ") ++ cstr e.what)).write J depth
      format <;> rfl
  cases text with
  | ret text => rfl
  | fault => rfl
  | pending => rfl
  | throw e =>
      show (handleError J depth format e wire).wire = wire
      unfold handleError
      cases e.cls with
      | deviceError => exact hformatted _ _ _
      | timeoutError => exact hformatted _ _ _
      | invalidDataError => exact hformatted _ _ _
      | invalidResponseError => exact hformatted _ _ _
      | parseError => exact hformatted _ _ _
      | _ => rfl

/-- **One command, two front ends.**  A command line that `inverterctl` accepts, and a request line
of the same words behind `exec`, on the same device, with the same timeout and format, for a daemon
that has no good response in its cache: whatever the device does, both send the same bytes and show
the same answer or the same error; they differ only when an exception of a class that `inverterctl`
does not handle ends it, while the daemon reports the text of it. -/
theorem front_ends_answer (J : JsonDump) (m : Machine) (depth : ℕ) (g : Getopt) {p : Params}
    {c : CommandType} {args : List Bytes}
    (hread : readArguments m g = (p, .ok (some (.command c args))))
    {line buf : Bytes} (hwords : words line = ascii "exec" :: g.words) (hline : ¬ crlf <:+: line)
    (hbuf : cstr buf = line ++ crlf) {s : Server} {env : Server.Env} (hdevice : s.device = p.open)
    (hlive : ¬ Live (s, ⟨c, args, env⟩)) {options : ConnectionOptions}
    (hformat : options.format = p.format) (uninitialised : Option RequestType) :
    let r := main J m depth g (.ok ()) env.device env.buffer
    r.wire = transmitted m (s, ⟨c, args, env⟩) ∧
      SameAnswer J depth p.format
        (processRequest J m depth options s env uninitialised buf).outcome r := by
  intro r
  have hr : r = runRequest J m depth p (.command c args) env.device env.buffer := by
    show main J m depth g (.ok ()) env.device env.buffer = _
    unfold main
    rw [hread]
  have hcommand : readCommand m g.words = .ok (c, args) := by
    unfold readArguments at hread
    rcases ho : readOptions g.opts with ⟨p', _ | e⟩
    · rw [ho] at hread
      obtain ⟨rfl, hrequest⟩ := Prod.mk.inj hread
      unfold readRequest at hrequest
      cases haction : p'.action with
      | shortHelp => simp [haction] at hrequest
      | fullHelp => simp [haction] at hrequest
      | raw =>
          simp only [haction] at hrequest
          split_ifs at hrequest
          cases hrequest
      | command =>
          simp only [haction] at hrequest
          obtain ⟨input, hinput, hpure⟩ := bind_eq_ok.mp hrequest
          obtain ⟨c', args'⟩ := input
          cases pure_eq_ok.mp hpure
          exact hinput
    · rw [ho] at hread
      cases (Prod.mk.inj hread).2
  have hresult : (Server.tokenise (cstr buf)).result = .ok (some .execute, g.words) := by
    rw [hbuf, Server.tokenise_line hline]
    exact Connection.lineRequest_eq_ok.mpr hwords
  refine ⟨?_, ?_⟩
  · rw [hr, runRequest_command, transmitted, if_neg hlive, hdevice]
    exact finish_wire _
  · rw [hr]
    exact sameAnswer_of_exchange m p hresult (inputCommand_of_readCommand hcommand) hdevice hlive
      hformat

/-- `get-mode` on a device that answers. -/
theorem front_ends_answer_mode :
    let g : Getopt := ⟨[], false, [ascii "get-mode"]⟩
    let env := Server.answeredAt 100 (ascii "^D00505")
    let r := main Formatter.textDump P18.x86 0 g (.ok ()) env.device env.buffer
    r.wire = transmitted P18.x86 (Server.started, ⟨.getWorkingMode, [], env⟩) ∧
      SameAnswer Formatter.textDump 0 .table (processRequest Formatter.textDump P18.x86 0
        ⟨1, .table⟩ Server.started env none (ascii "exec get-mode" ++ crlf ++ [0])).outcome r := by
  intro g env r
  have hread : readArguments P18.x86 g =
      (Params.init, .ok (some (.command .getWorkingMode []))) := by
    decide +kernel
  have hline : ¬ crlf <:+: ascii "exec get-mode" := by decide
  apply front_ends_answer Formatter.textDump P18.x86 0 g hread (by decide +kernel) hline
    (by decide +kernel) rfl _ rfl none
  decide +kernel

end

end InverterTools.Inverterctl
