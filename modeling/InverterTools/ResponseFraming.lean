import InverterTools.OutputLines
import InverterTools.Requests

/-! # The framing of the daemon's responses (`operator<<` in `server/connection.cc`)

The daemon's protocol ends every line of a response with CR LF.  `operator<<` does so for the status
line and the end of the body, but the lines of the body come from the formatter, which is shared
with the command-line tool and puts `std::endl` between them.  `response_framed_iff` says which
requests are answered in the promised form. -/

namespace InverterTools

open P18 (CommandType Machine)

namespace Connection

open Formatter (Format JsonDump)
open P18 (OneLine errorFormat)
open Server (RequestType requestType tokenise next)

/-- The status of a response. -/
def ResponseType.put : ResponseType → Bytes
  | .ok => ascii "ok"
  | .error => ascii "err"

/-- `operator<<` for `Response`. -/
def Response.put (r : Response) : Bytes :=
  r.type.put ++ (if r.buf = [] then [] else crlf ++ r.buf) ++ crlf ++ crlf

/-- The first lines of responses. -/
def heads : List Bytes := [ascii "ok", ascii "err"]

theorem framed_put_iff (r : Response) : Framed heads r.put ↔ Lines r.buf := by
  have hheads : ∀ head ∈ heads, head ≠ [] ∧ LF ∉ head := by decide
  have hhead : r.type.put ∈ heads := by cases r.type <;> decide
  exact framed_iff hheads hhead

section

variable (J : JsonDump) (m : Machine) (depth : ℕ) (options : ConnectionOptions) (s : Server)
  (env : Server.Env)

theorem dispatch_cases (type : Option RequestType) (arguments : List Bytes) :
    let a := dispatch J m depth options s env type arguments
    (∃ c args, type = some .execute ∧ inputCommand m arguments = .ok (c, args) ∧
        a.options = options ∧ a.outcome = (s.executeCommand m env c args).outcome >>=
          fun response => (P18.format response.command response.raw response.fields).write J depth
            options.format) ∨
      ((type = some .execute → ∃ e, inputCommand m arguments = .error e) ∧
        (a.outcome = .ret [] ∨ a.options = options ∧ ∃ e, a.outcome = .throw e)) := by
  have happly (x : Except Exn ConnectionOptions) :
      let a := applyOptions options s x
      a.outcome = .ret [] ∨ a.options = options ∧ ∃ e, a.outcome = .throw e := by
    cases x with
    | error e => exact .inr ⟨rfl, e, rfl⟩
    | ok options' => exact .inl rfl
  cases type with
  | none => exact .inr ⟨by simp, .inl rfl⟩
  | some type =>
      cases type with
      | version => exact .inr ⟨by simp, happly (selectVersion options arguments)⟩
      | format => exact .inr ⟨by simp, happly (selectFormat options arguments)⟩
      | raw => exact .inr ⟨by simp, .inr ⟨rfl, _, rfl⟩⟩
      | execute =>
          cases hinput : inputCommand m arguments with
          | error e =>
              refine .inr ⟨fun _ => ⟨e, rfl⟩, .inr ?_⟩
              simp only [dispatch, executeRequest, hinput]
              exact ⟨trivial, e, rfl⟩
          | ok input =>
              refine .inl ⟨input.1, input.2, rfl, rfl, ?_⟩
              simp only [dispatch, executeRequest, hinput, and_self]

/-- Where a response comes from: an unknown first token, a request without a command, an exception,
or the output of a command. -/
inductive Answer (buf : Bytes) (r : Response) : Prop where
  | unknown (token : Bytes) (e : Exn) (hfirst : firstToken (cstr buf) = some token)
      (htype : requestType token = .error e) (hrequested : requested m buf = none)
      (hr : report J depth options e = .ret r)
  | empty (input : Option RequestType × List Bytes)
      (hresult : (tokenise (cstr buf)).result = .ok input) (hrequested : requested m buf = none)
      (hr : r.buf = [])
  | thrown (input : Option RequestType × List Bytes) (e : Exn)
      (hresult : (tokenise (cstr buf)).result = .ok input) (he : Tame options e)
      (hcommand : ∀ c args response, requested m buf = some (c, args) →
        (s.executeCommand m env c args).outcome = .ret response →
        (P18.format response.command response.raw response.fields).write J depth options.format =
          .throw e)
      (hr : report J depth options e = .ret r)
  | written (input : Option RequestType × List Bytes) (c : CommandType) (args : List Bytes)
      (response : P18.Response) (hresult : (tokenise (cstr buf)).result = .ok input)
      (hrequested : requested m buf = some (c, args))
      (hret : (s.executeCommand m env c args).outcome = .ret response)
      (hr : (P18.format response.command response.raw response.fields).write J depth
        options.format = .ret r.buf)

/-- The rest of a request that has no unknown first token. -/
theorem answer_of_dispatch {uninitialised : Option RequestType} {buf : Bytes} {r : Response}
    {type : Option RequestType} {arguments : List Bytes}
    (hresult : (tokenise (cstr buf)).result = .ok (type, arguments))
    (hblank : type = none → arguments = [])
    (h : (processRequest J m depth options s env uninitialised buf).outcome = .ret r) :
    Answer J m depth options s env buf r := by
  have hattempt : attempt J m depth options s env uninitialised buf =
      dispatch J m depth options s env (type.orElse fun _ => uninitialised) arguments := by
    rw [attempt, hresult]
  have htame := dispatch_tame J m depth options s env (type.orElse fun _ => uninitialised) arguments
  have hcases := dispatch_cases J m depth options s env (type.orElse fun _ => uninitialised)
    arguments
  unfold processRequest at h
  rw [hattempt] at h
  dsimp only at h hcases
  rcases hcases with ⟨c, args, htype, hinput, hoptions, hoeq⟩ | ⟨hnone, hcases⟩
  · -- a command: without a token there are no arguments, and no command
    have hsome : type = some .execute := by
      cases type with
      | none =>
          rw [hblank rfl] at hinput
          cases hinput
      | some type' => exact htype
    have hcommand : requested m buf = some (c, args) := by
      rw [requested, hresult, hsome]
      show (inputCommand m arguments).toOption = _
      rw [hinput]
      rfl
    have hunique {c' : CommandType} {args' : List Bytes} {response : P18.Response}
        (hcommand' : requested m buf = some (c', args'))
        (hret : (s.executeCommand m env c' args').outcome = .ret response) :
        (s.executeCommand m env c args).outcome = .ret response := by
      obtain ⟨rfl, rfl⟩ := Prod.mk.inj (Option.some.inj (hcommand.symm.trans hcommand'))
      exact hret
    rw [hoeq] at h htame
    cases ho : (s.executeCommand m env c args).outcome with
    | ret response =>
        rw [ho, Outcome.ret_bind] at h htame
        cases hwrite : (P18.format response.command response.raw response.fields).write J depth
            options.format with
        | ret text =>
            rw [hwrite] at h
            obtain rfl := Outcome.ret.inj h
            exact .written _ c args response hresult hcommand ho hwrite
        | throw e =>
            rw [hwrite] at h htame
            refine .thrown _ e hresult (htame e rfl) ?_ (hoptions ▸ h)
            intro c' args' response' hcommand' hret
            obtain rfl := Outcome.ret.inj (ho.symm.trans (hunique hcommand' hret))
            exact hwrite
        | fault =>
            rw [hwrite] at h
            cases h
        | pending =>
            rw [hwrite] at h
            cases h
    | throw e =>
        rw [ho] at h htame
        refine .thrown _ e hresult (htame e rfl) ?_ (hoptions ▸ h)
        intro c' args' response' hcommand' hret
        cases ho.symm.trans (hunique hcommand' hret)
    | fault =>
        rw [ho] at h
        cases h
    | pending =>
        rw [ho] at h
        cases h
  · have hnocommand : requested m buf = none := by
      rw [requested, hresult]
      cases type with
      | none => rfl
      | some type' =>
          cases type' with
          | execute =>
              obtain ⟨e, he⟩ := hnone rfl
              show (inputCommand m arguments).toOption = none
              rw [he]
              rfl
          | _ => rfl
    rcases hcases with hempty | ⟨hoptions, e, he⟩
    · rw [hempty] at h
      obtain rfl := Outcome.ret.inj h
      exact .empty _ hresult hnocommand rfl
    · rw [he] at h
      refine .thrown _ e hresult (htame e he) ?_ (hoptions ▸ h)
      intro c args response hcommand
      rw [hnocommand] at hcommand
      cases hcommand

theorem answer {uninitialised : Option RequestType} {buf : Bytes} {r : Response}
    (h : (processRequest J m depth options s env uninitialised buf).outcome = .ret r) :
    Answer J m depth options s env buf r := by
  cases tokens (cstr buf) with
  | unknown token e hfirst htype hresult =>
      refine .unknown token e hfirst htype (by rw [requested, hresult]) ?_
      unfold processRequest at h
      rwa [attempt_unknown J m depth uninitialised hresult] at h
  | blank hfirst hresult =>
      exact answer_of_dispatch J m depth options s env hresult (fun _ => rfl) h
  | request token type arguments hfirst htype hresult =>
      exact answer_of_dispatch J m depth options s env hresult (by simp) h

end

/-- Nothing in the response ends a line differently: the format is JSON; or an unknown first token
has no line feed, and the response to a command is shown in one line. -/
def LineByLine (m : Machine) (options : ConnectionOptions) (s : Server) (env : Server.Env)
    (buf : Bytes) : Prop :=
  options.format = .json ∨ options.format = .simpleJSON ∨
    (∀ token e, firstToken (cstr buf) = some token → requestType token = .error e → LF ∉ token) ∧
      ∀ c args response, requested m buf = some (c, args) →
        (s.executeCommand m env c args).outcome = .ret response → OneLine options.format response

section

variable {J : JsonDump} {m : Machine} {depth : ℕ} {options : ConnectionOptions} {s : Server}
  {env : Server.Env} {buf : Bytes} {r : Response}

theorem write_of_report {e : Exn} (h : report J depth options e = .ret r) :
    (errorFormat (cstr e.what)).write J depth options.format = .ret r.buf := by
  obtain ⟨text, hwrite, h⟩ := Outcome.bind_eq_ret.mp h
  obtain rfl := Outcome.ret.inj h
  exact hwrite

theorem Answer.lines_of_json (hJ : J.EscapesControls)
    (hformat : options.format = .json ∨ options.format = .simpleJSON)
    (h : Answer J m depth options s env buf r) : Lines r.buf := by
  cases h with
  | unknown token e _ _ _ hr => exact Formatter.lines_of_json hJ hformat (write_of_report hr)
  | empty input _ _ hr =>
      rw [hr]
      exact lines_of_notMem (by simp)
  | thrown input e _ _ _ hr => exact Formatter.lines_of_json hJ hformat (write_of_report hr)
  | written input c args response _ _ _ hr => exact Formatter.lines_of_json hJ hformat hr

/-- An unknown first token has no CR LF, so it continues a line exactly when it has no line feed. -/
theorem continues_unknown_iff {token : Bytes} {e : Exn}
    (hfirst : firstToken (cstr buf) = some token) (htype : requestType token = .error e) :
    Continues (cstr e.what) ↔ LF ∉ token := by
  have hline : ¬ crlf <:+: token := by
    obtain ⟨t, -, rfl⟩ := Option.map_eq_some_iff.mp hfirst
    unfold Server.lineToken
    cases hcut : strstr crlf t.token with
    | none => exact strstr_eq_none_iff.mp hcut
    | some i => exact strstr_first (by decide) hcut
  have hzero : 0 ∉ ascii "invalid token: " ++ token := by
    rw [List.mem_append, not_or]
    exact ⟨by decide, zero_notMem_firstToken hfirst⟩
  rw [requestType_eq_error htype, cstr_of_notMem hzero]
  constructor
  · rintro h hLF
    obtain ⟨u, v, rfl⟩ := List.append_of_mem hLF
    obtain ⟨hlast, -⟩ := h (ascii "invalid token: " ++ u) v (by simp)
    cases hu : u.getLast? with
    | none =>
        obtain rfl := List.getLast?_eq_none_iff.mp hu
        exact absurd hlast (by decide)
    | some b =>
        rw [List.getLast?_append, hu] at hlast
        obtain rfl := Option.some.inj hlast
        obtain ⟨w, rfl⟩ := List.getLast?_eq_some_iff.mp hu
        exact hline ⟨w, v, by simp⟩
  · intro hLF
    have hhead : LF ∉ ascii "invalid token: " := by decide
    exact Continues.of_notMem (by simp [hhead, hLF])

theorem Answer.lines_of_table (hformat : options.format = .table ∨ options.format = .simpleTable)
    (hreceived : ∀ c args response, (s.executeCommand m env c args).outcome = .ret response →
      response.Received)
    (h : Answer J m depth options s env buf r) : Lines r.buf ↔ LineByLine m options s env buf := by
  have hnot : ¬ (options.format = .json ∨ options.format = .simpleJSON) := by
    rcases hformat with hf | hf <;> simp [hf]
  rw [LineByLine, ← or_assoc, or_iff_right hnot]
  have hknown {input : Option RequestType × List Bytes}
      (hresult : (tokenise (cstr buf)).result = .ok input) : ∀ token e,
      firstToken (cstr buf) = some token → requestType token = .error e → LF ∉ token :=
    fun token e hfirst htype => absurd htype (requestType_ne_error hresult hfirst)
  cases h with
  | unknown token e hfirst htype hrequested hr =>
      rw [Formatter.lines_status_iff hformat (write_of_report hr),
        continues_unknown_iff hfirst htype]
      constructor
      · intro hLF
        refine ⟨?_, ?_⟩
        · intro token' e' hfirst' _
          rw [hfirst] at hfirst'
          rwa [← Option.some.inj hfirst']
        · intro c args response hcommand
          rw [hrequested] at hcommand
          cases hcommand
      · exact fun h => h.1 token e hfirst htype
  | empty input hresult hrequested hr =>
      rw [hr]
      refine iff_of_true (lines_of_notMem (by simp)) ⟨hknown hresult, ?_⟩
      intro c args response hcommand
      rw [hrequested] at hcommand
      cases hcommand
  | thrown input e hresult he hcommand hr =>
      have hprintable : isPrintable e.what = true := by
        rcases he with he | ⟨htable, hsimple, -⟩
        · exact he
        · exact absurd hformat (not_or.mpr ⟨htable, hsimple⟩)
      have hcstr : LF ∉ cstr e.what := fun hmem =>
        notMem_of_isPrintable hprintable (by decide) ((cstr_isPrefix _).subset hmem)
      rw [Formatter.lines_status_iff hformat (write_of_report hr)]
      refine iff_of_true (Continues.of_notMem hcstr) ⟨hknown hresult, ?_⟩
      intro c args response hrequested hret
      have hthrow := hcommand c args response hrequested hret
      cases format_written J depth options response with
      | text text ho =>
          rw [ho] at hthrow
          cases hthrow
      | thrown e' _ _ _ hp => exact absurd hformat (not_or.mpr (not_table_of_not_plain hp))
      | stuck ho =>
          rw [ho] at hthrow
          cases hthrow
  | written input c args response hresult hrequested hret hr =>
      rw [P18.lines_response_iff hformat (hreceived c args response hret) hr]
      constructor
      · intro hline
        refine ⟨hknown hresult, ?_⟩
        intro c' args' response' hrequested' hret'
        obtain ⟨rfl, rfl⟩ := Prod.mk.inj (Option.some.inj (hrequested.symm.trans hrequested'))
        rwa [← Outcome.ret.inj (hret.symm.trans hret')]
      · exact fun h => h.2 c args response hrequested hret

/-- **The framing of responses.**  After any calls of a daemon that started with an empty cache,
whatever the device does, a response of `processRequest` is written as the protocol says, a first
line `ok` or `err` and further lines, each ended by CR LF, and an extra CR LF that stands nowhere
else twice, exactly when nothing in it ends a line differently; and a reader can then cut a stream
that begins with it in one way only. -/
theorem response_framed_iff (hJ : J.EscapesControls) (m : Machine) {s : Server}
    (hs : ∀ c, s.cache c = none) (calls : List Server.Call) {depth : ℕ}
    {options : ConnectionOptions} {env : Server.Env} {uninitialised : Option RequestType}
    {buf : Bytes} {r : Response}
    (h : (processRequest J m depth options (calls.foldl (next m) s) env uninitialised buf).outcome =
      .ret r) :
    (Framed heads r.put ↔ LineByLine m options (calls.foldl (next m) s) env buf) ∧
      (LineByLine m options (calls.foldl (next m) s) env buf → ∀ us vs : List Bytes,
        (∀ u ∈ us, Framed heads u) → (∀ v ∈ vs, Framed heads v) →
        (r.put :: us).flatten = vs.flatten → vs = r.put :: us) := by
  have hanswer := answer J m depth options (calls.foldl (next m) s) env h
  have hiff : Framed heads r.put ↔ LineByLine m options (calls.foldl (next m) s) env buf := by
    rw [framed_put_iff]
    by_cases hjson : options.format = .json ∨ options.format = .simpleJSON
    · exact iff_of_true (hanswer.lines_of_json hJ hjson) (or_assoc.mp (.inl hjson))
    · have hformat : options.format = .table ∨ options.format = .simpleTable := by
        cases hf : options.format with
        | table => exact .inl rfl
        | simpleTable => exact .inr rfl
        | json => exact absurd (.inl hf) hjson
        | simpleJSON => exact absurd (.inr hf) hjson
      refine hanswer.lines_of_table hformat fun c args response hret => ?_
      have hreturned : Server.Returned m (calls.foldl (next m) s, ⟨c, args, env⟩) response := hret
      exact Server.received_of_returned hs hreturned
  refine ⟨hiff, fun hline us vs hus hvs heq => ?_⟩
  exact (stream_splits (List.forall_mem_cons.mpr ⟨hiff.mpr hline, hus⟩) hvs heq).symm

end

/-- `exec get-mode` in the format `table`. -/
theorem response_framed_mode :
    let o := (processRequest Formatter.textDump P18.x86 0 ⟨1, .table⟩ Server.started
      (Server.answeredAt 100 (ascii "^D00505")) none (ascii "exec get-mode" ++ crlf ++ [0])).outcome
    ∃ r, o = .ret r ∧ (Framed heads r.put ↔ LineByLine P18.x86 ⟨1, .table⟩ Server.started
      (Server.answeredAt 100 (ascii "^D00505")) (ascii "exec get-mode" ++ crlf ++ [0])) := by
  have hret : (processRequest Formatter.textDump P18.x86 0 ⟨1, .table⟩ Server.started
      (Server.answeredAt 100 (ascii "^D00505")) none
      (ascii "exec get-mode" ++ crlf ++ [0])).outcome =
        .ret ⟨.ok, ascii "Working mode: Hybrid mode"⟩ := by
    decide +kernel
  exact ⟨_, hret, (response_framed_iff (Dumper.compact_escapesControls _) P18.x86
    (s := Server.started) (fun _ => rfl) [] hret).1⟩

/-- `exec get-date-time` in the format `table`: the lines of the body end with a bare line feed. -/
theorem response_breaks_framing : ¬ ∀ (J : JsonDump), J.EscapesControls → ∀ (m : Machine)
    (s : Server), (∀ c, s.cache c = none) → ∀ (depth : ℕ) (options : ConnectionOptions)
    (env : Server.Env) (uninitialised : Option RequestType) (buf : Bytes) (r : Response),
    (processRequest J m depth options s env uninitialised buf).outcome = .ret r →
      Framed heads r.put := by
  intro h
  have hret : (processRequest Formatter.textDump P18.x86 0 ⟨1, .table⟩ Server.started
      (Server.answeredAt 100 (ascii "^D01720240131120000")) none
      (ascii "exec get-date-time" ++ crlf ++ [0])).outcome = .ret ⟨.ok, ascii "Year:   2024" ++
        LF :: ascii "Month:  1\nDay:    31\nHour:   12\nMinute: 0\nSecond: 0"⟩ := by
    decide +kernel
  have hframed := h _ (Dumper.compact_escapesControls _) P18.x86 Server.started (fun _ => rfl) 0
    ⟨1, .table⟩ _ none _ _ hret
  have hlines := (framed_put_iff _).mp hframed
  obtain ⟨hlast, -⟩ := (lines_iff.mp hlines).1 _ _ rfl
  exact absurd hlast (by decide)

end Connection

end InverterTools
