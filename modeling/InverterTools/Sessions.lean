import InverterTools.Requests

/-! # The options of a connection over a session

A session is any number of requests that `processRequest` has answered, one after the other, each
with whatever the device did and whatever other connections left in the server.  One request moves
the options as `Step` says; over a session this makes the format the one that was named last
(`session_options`). -/

namespace InverterTools.Connection

open Formatter (Format JsonDump)
open P18 (Machine errorFormat)
open Server (RequestType tokenise)

/-- The requests of a session with their responses, and the options after them. -/
inductive Session (J : JsonDump) (m : Machine) : List (Bytes × Response) → ConnectionOptions → Prop
  where
  | start : Session J m [] .init
  | answer {log : List (Bytes × Response)} {options : ConnectionOptions} (depth : ℕ) (s : Server)
      (env : Server.Env) (uninitialised : Option RequestType) (buf : Bytes) (response : Response)
      (hlog : Session J m log options)
      (hret : (processRequest J m depth options s env uninitialised buf).outcome = .ret response) :
      Session J m (log ++ [(buf, response)])
        (processRequest J m depth options s env uninitialised buf).options

/-- The first token of the request selects `type`, with these arguments behind it. -/
def Selects (buf : Bytes) (type : RequestType) (arguments : List Bytes) : Prop :=
  (tokenise (cstr buf)).result = .ok (some type, arguments)

/-- The format that an exchange has selected: the name in a `format` request answered `ok`. -/
def namedFormat (exchange : Bytes × Response) : Option Format :=
  match exchange.2.type, (tokenise (cstr exchange.1)).result with
  | .ok, .ok (some .format, [name]) => (formatFromString name).toOption
  | _, _ => none

/-- The format that was selected last; JSON if there was none. -/
def lastFormat (log : List (Bytes × Response)) : Format :=
  (log.filterMap namedFormat).getLast?.getD .json

/-- The body is empty, the output of a command, or, after an exception, its text; rendered in a
format. -/
def Response.RenderedIn (J : JsonDump) (format : Format) (r : Response) : Prop :=
  match r.type with
  | .ok => r.buf = [] ∨ ∃ (depth : ℕ) (response : P18.Response),
      (P18.format response.command response.raw response.fields).write J depth format = .ret r.buf
  | .error => ∃ (depth : ℕ) (what : Bytes), (errorFormat what).write J depth format = .ret r.buf

/-- What one answered request may do to the options. -/
structure Step (J : JsonDump) (options : ConnectionOptions) (buf : Bytes) (response : Response)
    (options' : ConnectionOptions) : Prop where
  version : options.version = 1 → options'.version = 1
  format : options'.format = (namedFormat (buf, response)).getD options.format
  named : ∀ arguments, Selects buf .format arguments → response.type = .ok →
    ∃ name format, arguments = [name] ∧ formatFromString name = .ok format ∧
      options'.format = format
  error : response.type = .error → options' = options
  execute : ∀ arguments, Selects buf .execute arguments → options' = options
  rendered : response.RenderedIn J options.format

/-! ### One request -/

section

variable {J : JsonDump} {m : Machine} {depth : ℕ} {options options' : ConnectionOptions}
  {s : Server} {env : Server.Env} {uninitialised : Option RequestType} {buf text : Bytes}

theorem namedFormat_ok {type : Option RequestType} {arguments : List Bytes}
    (hresult : (tokenise (cstr buf)).result = .ok (type, arguments)) (htype : type ≠ some .format) :
    namedFormat (buf, ⟨.ok, text⟩) = none := by
  simp only [namedFormat, hresult]
  cases type with
  | none => rfl
  | some type =>
      cases type with
      | format => exact absurd rfl htype
      | version => rfl
      | execute => rfl
      | raw => rfl

/-- Only a `format` request that is answered `ok` moves the format. -/
theorem Done.step (h : Done J m depth options s env uninitialised buf text options') :
    Step J options buf ⟨.ok, text⟩ options' := by
  cases h with
  | version argument hresult hone =>
      refine ⟨fun _ => rfl, ?_, fun arguments h => ?_, nofun, fun arguments h => ?_, .inl rfl⟩
      · rw [namedFormat_ok hresult (by simp)]
        rfl
      · exact absurd (hresult.symm.trans h) (by simp)
      · exact absurd (hresult.symm.trans h) (by simp)
  | format name format hresult hname =>
      refine ⟨id, ?_, fun arguments h _ => ?_, nofun, fun arguments h => ?_, .inl rfl⟩
      · simp only [namedFormat, hresult, hname]
        rfl
      · obtain ⟨-, rfl⟩ := Prod.mk.inj (Except.ok.inj (hresult.symm.trans h))
        exact ⟨name, format, rfl, hname, rfl⟩
      · exact absurd (hresult.symm.trans h) (by simp)
  | execute arguments c args response text hresult hinput hret hwrite =>
      refine ⟨id, ?_, fun arguments h => ?_, nofun, fun _ _ => rfl, .inr ⟨depth, response, hwrite⟩⟩
      · rw [namedFormat_ok hresult (by simp)]
        rfl
      · exact absurd (hresult.symm.trans h) (by simp)
  | blank hresult hnone =>
      refine ⟨id, ?_, fun arguments h => ?_, nofun, fun _ _ => rfl, .inl rfl⟩
      · rw [namedFormat_ok hresult (by simp)]
        rfl
      · exact absurd (hresult.symm.trans h) (by simp)

/-- A request that is answered `err` leaves the options alone. -/
theorem step_error {response : Response} {e : Exn} (h : report J depth options e = .ret response) :
    Step J options buf response options := by
  obtain ⟨text, hwrite, hpure⟩ := Outcome.bind_eq_ret.mp h
  obtain rfl := Outcome.ret.inj hpure
  refine ⟨id, ?_, nofun, fun _ => rfl, fun _ _ => rfl, depth, _, hwrite⟩
  rfl

theorem processRequest_step {response : Response}
    (h : (processRequest J m depth options s env uninitialised buf).outcome = .ret response) :
    Step J options buf response
      (processRequest J m depth options s env uninitialised buf).options := by
  unfold processRequest at h ⊢
  cases ho : (attempt J m depth options s env uninitialised buf).outcome with
  | ret text =>
      simp only [ho] at h
      obtain rfl := Outcome.ret.inj h
      exact (attempt_ret J m depth ho).step
  | throw e =>
      have hoptions := attempt_throw J m depth ho
      simp only [ho, hoptions] at h ⊢
      exact step_error h
  | fault =>
      simp only [ho] at h
      cases h
  | pending =>
      simp only [ho] at h
      cases h

end

/-! ### A session -/

section

variable {J : JsonDump} {m : Machine} {log before after : List (Bytes × Response)}
  {exchange : Bytes × Response} {options : ConnectionOptions}

theorem lastFormat_append_singleton :
    lastFormat (log ++ [exchange]) = (namedFormat exchange).getD (lastFormat log) := by
  rw [lastFormat, List.filterMap_append]
  cases hname : namedFormat exchange with
  | none =>
      rw [List.filterMap_cons_none hname, List.filterMap_nil, List.append_nil]
      rfl
  | some format =>
      rw [List.filterMap_cons_some hname, List.filterMap_nil, List.getLast?_concat]
      rfl

theorem eq_mk {format : Format} (hversion : options.version = 1)
    (hformat : options.format = format) : options = ⟨1, format⟩ := by
  rw [← hversion, ← hformat]

theorem Session.options_eq (h : Session J m log options) : options = ⟨1, lastFormat log⟩ := by
  -- by induction on the session; the options are those of the log
  induction h with
  | start => rfl
  | answer depth s env uninitialised buf response hlog hret ih =>
      subst ih
      have hstep := processRequest_step hret
      refine eq_mk (hstep.version rfl) ?_
      rw [hstep.format, lastFormat_append_singleton]

theorem Session.split (h : Session J m log options) (hlog : log = before ++ exchange :: after) :
    ∃ options' options'', Session J m before options' ∧
      Session J m (before ++ [exchange]) options'' ∧
      Step J options' exchange.1 exchange.2 options'' := by
  induction h generalizing after with
  | start => simp at hlog
  | answer depth s env uninitialised buf response hsession hret ih =>
      rcases List.eq_nil_or_concat after with rfl | ⟨after, last, rfl⟩
      · obtain ⟨rfl, hexchange⟩ := List.append_inj' hlog rfl
        obtain rfl := List.cons.inj hexchange |>.1
        exact ⟨_, _, hsession, .answer depth s env uninitialised buf response hsession hret,
          processRequest_step hret⟩
      · rw [List.concat_eq_append, ← List.cons_append, ← List.append_assoc] at hlog
        exact ih (List.append_inj' hlog rfl).1

/-- **The options of a connection.**  After any session the version is `1` and the format is the
one named by the last `format` request that was answered `ok`; and each request of the session, if
it was answered `err` or selects `exec`, has left the options as they were, and its body is rendered
in the format that was in force before it. -/
theorem session_options (h : Session J m log options) :
    options.version = 1 ∧ options.format = lastFormat log ∧
      ∀ before buf response after, log = before ++ (buf, response) :: after →
        ∃ options options', Session J m before options ∧
          Session J m (before ++ [(buf, response)]) options' ∧
          (response.type = .error → options' = options) ∧
          (∀ arguments, Selects buf .execute arguments → options' = options) ∧
          (∀ arguments, Selects buf .format arguments → response.type = .ok →
            ∃ name format, arguments = [name] ∧ formatFromString name = .ok format ∧
              options'.format = format) ∧
          response.RenderedIn J options.format := by
  refine ⟨by rw [h.options_eq], by rw [h.options_eq], fun before buf response after hlog => ?_⟩
  obtain ⟨options', options'', hbefore, hthrough, hstep⟩ := h.split hlog
  exact ⟨options', options'', hbefore, hthrough, hstep.error, hstep.execute, hstep.named,
    hstep.rendered⟩

/-- `format table`, then a request with an unknown first token: the error is rendered as a table,
and the table stays. -/
theorem session_options_table :
    let buf := ascii "format table" ++ crlf ++ [0]
    let buf' := ascii "mode" ++ crlf ++ [0]
    let r : Response := ⟨.error, ascii "error: invalid token: mode"⟩
    ∃ options, Session Formatter.textDump P18.x86 [(buf, ⟨.ok, []⟩), (buf', r)] options ∧
      options.version = 1 ∧ options.format = lastFormat [(buf, ⟨.ok, []⟩), (buf', r)] := by
  intro buf buf' r
  let s := Server.init ⟨.usb, Voltronic.defaultFlags, Voltronic.TIMEOUT⟩
  let env : Server.Env := ⟨0, 0, ⟨0, [], 0, 0, []⟩, P18.zeroBuffer, 0⟩
  have htable : (processRequest Formatter.textDump P18.x86 0 .init s env none buf).outcome =
      .ret ⟨.ok, []⟩ := by decide
  have hmode : (processRequest Formatter.textDump P18.x86 0 ⟨1, .table⟩ s env none buf').outcome =
      .ret r := by decide
  have hsession : Session Formatter.textDump P18.x86 [(buf, ⟨.ok, []⟩), (buf', r)] ⟨1, .table⟩ :=
    .answer 0 _ _ _ _ _ (.answer 0 _ _ _ _ _ .start htable) hmode
  obtain ⟨hversion, hformat, -⟩ := session_options hsession
  exact ⟨_, hsession, hversion, hformat⟩

end

end InverterTools.Connection
