import InverterTools.History
import InverterTools.RequestGrammar
import InverterTools.Sessions

/-! # The daemon with all of its connections

The requests of all connections reach the one server.  A move of the daemon is a connection that is
accepted, a request of an open connection, a connection that is closed, or a signal; the moves of
different connections come in any order.

`daemon_refines` says what a run is: for the server a run of events, for each connection a session.
`answer_origin` says where the text comes from with which a command is answered: from the device,
in this request or in one that any connection made a short time before.  `isolated` says what no
other connection can influence. -/

namespace InverterTools.Connection

open Formatter (Format JsonDump)
open P18 (CommandType Machine errorFormat)
open Server (Call Clocked Event Latest Live Performed RequestType Returned finish next react
  tokenise)

/-- A request, and what `type` holds when no token sets it. -/
structure Request where
  buf : Bytes
  uninitialised : Option RequestType

/-- What a request meets outside the server. -/
structure Surroundings where
  depth : ℕ
  env : Server.Env

/-- The server, and the options of the connections that are open. -/
structure Daemon (ι : Type) where
  server : Server
  options : ι → Option ConnectionOptions

/-- A move of the daemon. -/
inductive Move (ι : Type) where
  | accept (i : ι)
  | request (i : ι) (x : Request) (t : Surroundings)
  | close (i : ι)
  | signal

/-- The daemon before the first connection. -/
def daemon (ι : Type) (s : Server) : Daemon ι := ⟨s, fun _ => none⟩

section

variable {ι : Type} [DecidableEq ι] (J : JsonDump) (m : Machine)

/-- `processRequest`, for a request of the daemon. -/
def ask (s : Server) (options : ConnectionOptions) (x : Request) (t : Surroundings) : RequestEnd :=
  processRequest J m t.depth options s t.env x.uninitialised x.buf

/-- The options after a request; without a response there is no further request.  (An exception that
leaves `processRequest` ends the whole process: `Inverterd.live`.) -/
def kept (r : RequestEnd) : Option ConnectionOptions :=
  match r.outcome with
  | .ret _ => some r.options
  | _ => none

/-- One move, as long as the process lives. -/
def step (d : Daemon ι) : Move ι → Daemon ι
  | .accept i => { d with options := Function.update d.options i (some .init) }
  | .request i x t =>
      match d.options i with
      | none => d
      | some options =>
          let r := ask J m d.server options x t
          ⟨r.server, Function.update d.options i (kept r)⟩
  | .close i => { d with options := Function.update d.options i none }
  | .signal => { d with server := react m d.server .signal }

/-! ### What a run is -/

/-- What a move does to the server. -/
def happened (m : Machine) (p : Daemon ι × Move ι) : Option (Server × Event) :=
  match p.2 with
  | .request i x t =>
      match p.1.options i, requested m x.buf with
      | some _, some (c, args) => some (p.1.server, .call ⟨c, args, t.env⟩)
      | _, _ => none
  | .signal => some (p.1.server, .signal)
  | _ => none

/-- The call that a move makes. -/
def called (m : Machine) (p : Daemon ι × Move ι) : Option (Server × Call) :=
  match happened m p with
  | some (s, .call call) => some (s, call)
  | _ => none

/-- The calls of a run. -/
def calls (m : Machine) (run : List (Daemon ι × Move ι)) : List (Server × Call) :=
  run.filterMap (called m)

/-- What a move adds to the answered requests of a connection; a new connection starts afresh. -/
def record (i : ι) (log : List (Bytes × Response)) (p : Daemon ι × Move ι) :
    List (Bytes × Response) :=
  match p.2 with
  | .accept j => if j = i then [] else log
  | .request j x t =>
      if j = i then
        match p.1.options j with
        | none => log
        | some options =>
            match (ask J m p.1.server options x t).outcome with
            | .ret r => log ++ [(x.buf, r)]
            | _ => log
      else log
  | _ => log

/-- The answered requests of a connection since it was accepted. -/
def log (i : ι) (run : List (Daemon ι × Move ι)) : List (Bytes × Response) :=
  run.foldl (record J m i) []

end

/-! ### One request -/

section

variable {J : JsonDump} {m : Machine} {options : ConnectionOptions} {s : Server} {x : Request}
  {t : Surroundings} {c : CommandType} {args : List Bytes}

theorem applyOptions_server (y : Except Exn ConnectionOptions) :
    (applyOptions options s y).server = s := by
  cases y with
  | error e => rfl
  | ok options' => rfl

theorem requested_eq_some {buf : Bytes} (h : requested m buf = some (c, args)) :
    ∃ arguments, (tokenise (cstr buf)).result = .ok (some .execute, arguments) ∧
      inputCommand m arguments = .ok (c, args) := by
  unfold requested at h
  cases hresult : (tokenise (cstr buf)).result with
  | error e => simp [hresult] at h
  | ok input =>
      obtain ⟨type, arguments⟩ := input
      simp only [hresult] at h
      cases type with
      | none => cases h
      | some type =>
          cases type with
          | version => cases h
          | format => cases h
          | raw => cases h
          | execute =>
              dsimp only at h
              refine ⟨arguments, rfl, ?_⟩
              cases hinput : inputCommand m arguments with
              | error e =>
                  rw [hinput] at h
                  cases h
              | ok input =>
                  rw [hinput] at h
                  exact congrArg Except.ok (Option.some.inj h)

theorem returned_of_answered {body : Bytes} (hrequest : requested m x.buf = some (c, args))
    (h : (ask J m s options x t).outcome = .ret ⟨.ok, body⟩) :
    ∃ r, Returned m (s, ⟨c, args, t.env⟩) r ∧
      (P18.format r.command r.raw r.fields).write J t.depth options.format = .ret body := by
  obtain ⟨arguments, hresult, hinput⟩ := requested_eq_some hrequest
  have hdone := attempt_ret J m t.depth (processRequest_eq_ok.mp h)
  generalize (attempt J m t.depth options s t.env x.uninitialised x.buf).options = options' at hdone
  cases hdone with
  | version argument hother => simp [hresult] at hother
  | format name format hother => simp [hresult] at hother
  | blank hother => simp [hresult] at hother
  | execute arguments' c' args' r text hother hinput' hcall hwrite =>
      obtain ⟨-, rfl⟩ := Prod.mk.inj (Except.ok.inj (hresult.symm.trans hother))
      obtain ⟨rfl, rfl⟩ := Prod.mk.inj (Except.ok.inj (hinput.symm.trans hinput'))
      exact ⟨r, hcall, hwrite⟩

/-- A request that executes a command is that command, and leaves the options alone. -/
theorem ask_of_requested (h : requested m x.buf = some (c, args)) :
    (ask J m s options x t).server = next m s ⟨c, args, t.env⟩ ∧
      (ask J m s options x t).options = options := by
  obtain ⟨arguments, hresult, hinput⟩ := requested_eq_some h
  have hattempt : attempt J m t.depth options s t.env x.uninitialised x.buf =
      executeRequest J m t.depth options s t.env arguments := by
    unfold attempt
    rw [hresult]
    rfl
  unfold ask processRequest
  rw [hattempt]
  unfold executeRequest
  rw [hinput]
  exact ⟨rfl, rfl⟩

/-- A request that executes nothing leaves the server alone, and neither the server nor anything
around the request matters for it. -/
theorem ask_of_not_requested (s' : Server) (t' : Surroundings) (h : requested m x.buf = none) :
    (ask J m s options x t).server = s ∧
      (ask J m s options x t).outcome = (ask J m s' options x t').outcome ∧
      (ask J m s options x t).options = (ask J m s' options x t').options := by
  have happly (y : Except Exn ConnectionOptions) : (applyOptions options s y).outcome =
      (applyOptions options s' y).outcome ∧ (applyOptions options s y).options =
      (applyOptions options s' y).options := by
    cases y with
    | error e => exact ⟨rfl, rfl⟩
    | ok options' => exact ⟨rfl, rfl⟩
  have hattempt : (attempt J m t.depth options s t.env x.uninitialised x.buf).server = s ∧
      (attempt J m t.depth options s t.env x.uninitialised x.buf).outcome =
        (attempt J m t'.depth options s' t'.env x.uninitialised x.buf).outcome ∧
      (attempt J m t.depth options s t.env x.uninitialised x.buf).options =
        (attempt J m t'.depth options s' t'.env x.uninitialised x.buf).options := by
    unfold requested at h
    unfold attempt
    cases tokens (cstr x.buf) with
    | unknown token e _ _ hresult =>
        rw [hresult]
        exact ⟨rfl, rfl, rfl⟩
    | blank _ hresult =>
        rw [hresult]
        cases x.uninitialised with
        | none => exact ⟨rfl, rfl, rfl⟩
        | some type =>
            cases type with
            | version => exact ⟨applyOptions_server _, happly _⟩
            | format => exact ⟨applyOptions_server _, happly _⟩
            | raw => exact ⟨rfl, rfl, rfl⟩
            | execute => exact ⟨rfl, rfl, rfl⟩
    | request token type arguments _ _ hresult =>
        rw [hresult] at h ⊢
        cases type with
        | version => exact ⟨applyOptions_server _, happly _⟩
        | format => exact ⟨applyOptions_server _, happly _⟩
        | raw => exact ⟨rfl, rfl, rfl⟩
        | execute =>
            dsimp only at h
            cases hinput : inputCommand m arguments with
            | ok input =>
                rw [hinput] at h
                cases h
            | error e =>
                show (executeRequest J m t.depth options s t.env arguments).server = s ∧
                  (executeRequest J m t.depth options s t.env arguments).outcome =
                    (executeRequest J m t'.depth options s' t'.env arguments).outcome ∧
                  (executeRequest J m t.depth options s t.env arguments).options =
                    (executeRequest J m t'.depth options s' t'.env arguments).options
                unfold executeRequest
                rw [hinput]
                exact ⟨rfl, rfl, rfl⟩
  obtain ⟨hserver, houtcome, hoptions⟩ := hattempt
  have hreport (o : ConnectionOptions) (e : Exn) :
      report J t.depth o e = report J t'.depth o e := by
    unfold report
    cases o.format <;> rfl
  refine ⟨hserver, ?_, hoptions⟩
  unfold ask processRequest
  simp only [houtcome, hoptions, hreport]

end

/-! ### Runs -/

section

variable {ι : Type} [DecidableEq ι] {J : JsonDump} {m : Machine} {d : Daemon ι} {i : ι}

theorem step_closed {x : Request} {t : Surroundings} (h : d.options i = none) :
    step J m d (.request i x t) = d := by
  simp only [step, h]

theorem step_open {x : Request} {t : Surroundings} {options : ConnectionOptions}
    (h : d.options i = some options) : step J m d (.request i x t) =
      ⟨(ask J m d.server options x t).server,
        Function.update d.options i (kept (ask J m d.server options x t))⟩ := by
  simp only [step, h]

theorem server_step (d : Daemon ι) (move : Move ι) :
    happened m (d, move) = none ∧ (step J m d move).server = d.server ∨
      ∃ event, happened m (d, move) = some (d.server, event) ∧
        (step J m d move).server = react m d.server event := by
  cases move with
  | accept j => exact .inl ⟨rfl, rfl⟩
  | close j => exact .inl ⟨rfl, rfl⟩
  | signal => exact .inr ⟨.signal, rfl, rfl⟩
  | request j x t =>
      cases hj : d.options j with
      | none =>
          rw [step_closed hj]
          exact .inl ⟨by simp [happened, hj], rfl⟩
      | some options =>
          rw [step_open hj]
          cases hrequested : requested m x.buf with
          | none =>
              apply Or.inl
              refine ⟨by simp [happened, hrequested], ?_⟩
              exact (ask_of_not_requested d.server t hrequested).1
          | some command =>
              obtain ⟨c, args⟩ := command
              apply Or.inr
              refine ⟨.call ⟨c, args, t.env⟩, by simp [happened, hj, hrequested], ?_⟩
              exact (ask_of_requested hrequested).1

theorem record_open {log : List (Bytes × Response)} {x : Request} {t : Surroundings}
    {options : ConnectionOptions} (h : d.options i = some options) :
    record J m i log (d, .request i x t) =
      match (ask J m d.server options x t).outcome with
      | .ret r => log ++ [(x.buf, r)]
      | _ => log := by
  simp only [record, h, if_true]

/-- Each move keeps the log of an open connection a session. -/
theorem session_step {log : List (Bytes × Response)}
    (h : ∀ options, d.options i = some options → Session J m log options) (move : Move ι) :
    ∀ options, (step J m d move).options i = some options →
      Session J m (record J m i log (d, move)) options := by
  intro options hoptions
  cases move with
  | signal => exact h options hoptions
  | accept j =>
      by_cases hj : j = i
      · subst hj
        simp only [step, Function.update_self, Option.some.injEq] at hoptions
        subst hoptions
        simp only [record, if_true]
        exact .start
      · simp only [step, Function.update_of_ne (Ne.symm hj)] at hoptions
        simp only [record, if_neg hj]
        exact h options hoptions
  | close j =>
      by_cases hj : j = i
      · subst hj
        simp [step] at hoptions
      · simp only [step, Function.update_of_ne (Ne.symm hj)] at hoptions
        exact h options hoptions
  | request j x t =>
      by_cases hj : j = i
      · subst hj
        cases hopen : d.options j with
        | none =>
            rw [step_closed hopen, hopen] at hoptions
            cases hoptions
        | some options' =>
            simp only [step_open hopen, Function.update_self] at hoptions
            rw [record_open hopen]
            unfold kept at hoptions
            cases hret : (ask J m d.server options' x t).outcome with
            | ret r =>
                rw [hret] at hoptions
                obtain rfl := Option.some.inj hoptions
                exact .answer t.depth d.server t.env x.uninitialised x.buf r (h _ hopen) hret
            | throw e =>
                rw [hret] at hoptions
                cases hoptions
            | fault =>
                rw [hret] at hoptions
                cases hoptions
            | pending =>
                rw [hret] at hoptions
                cases hoptions
      · have hsame : (step J m d (.request j x t)).options i = d.options i := by
          cases hopen : d.options j with
          | none => rw [step_closed hopen]
          | some options' => simp only [step_open hopen, Function.update_of_ne (Ne.symm hj)]
        rw [hsame] at hoptions
        simp only [record, if_neg hj]
        exact h options hoptions

theorem log_append (run : List (Daemon ι × Move ι)) (p : Daemon ι × Move ι) :
    log J m i (run ++ [p]) = record J m i (log J m i run) p := by
  rw [log, List.foldl_append]
  rfl

theorem session_run (s : Server) (moves : List (Move ι)) (i : ι) :
    ∀ options, (moves.foldl (step J m) (daemon ι s)).options i = some options →
      Session J m (log J m i (trace (step J m) (daemon ι s) moves)) options := by
  apply @trace_run _ _ (step J m) (fun run d => ∀ options, d.options i = some options →
    Session J m (log J m i run) options)
  · intro options h
    cases h
  · intro run d move h
    rw [log_append]
    exact session_step h move

/-- **What a run of the daemon is.**  Whatever order the moves of the connections come in: the
server goes through a run of events, the calls of the requests that execute a command and the
signals, and nothing else changes it; and the answered requests of every open connection are a
session, so its options are those of its own requests. -/
theorem daemon_refines (J : JsonDump) (m : Machine) (s : Server) (moves : List (Move ι)) :
    let run := trace (step J m) (daemon ι s) moves
    let d := moves.foldl (step J m) (daemon ι s)
    let events := (run.filterMap (happened m)).map Prod.snd
    run.filterMap (happened m) = trace (react m) s events ∧ d.server = events.foldl (react m) s ∧
      ∀ i options, d.options i = some options →
        Session J m (log J m i run) options ∧ options = ⟨1, lastFormat (log J m i run)⟩ := by
  intro run d events
  have hpart := fun (p : Daemon ι × Move ι) (_ : p ∈ run) => @server_step ι _ J m p.1 p.2
  obtain ⟨hrun, hend⟩ := trace_part (step J m) (daemon ι s) moves hpart
  refine ⟨hrun, hend, fun i options hoptions => ?_⟩
  have hsession := session_run s moves i options hoptions
  exact ⟨hsession, hsession.options_eq⟩

/-! ### Where an answer comes from -/

omit [DecidableEq ι] in
theorem calls_append (run : List (Daemon ι × Move ι)) (p : Daemon ι × Move ι) :
    calls m (run ++ [p]) = calls m run ++ (called m p).toList := by
  rw [calls, calls, List.filterMap_append]
  cases h : called m p with
  | none => rw [List.filterMap_cons_none h, List.filterMap_nil, Option.toList_none]
  | some st => rw [List.filterMap_cons_some h, List.filterMap_nil, Option.toList_some]

/-- Each move keeps every cached response that of the latest transaction, and the settings. -/
theorem cache_step {run : List (Daemon ι × Move ι)}
    (h : ∀ c cr, d.server.cache c = some cr → Latest m (calls m run) c cr) (move : Move ι) :
    (∀ c cr, (step J m d move).server.cache c = some cr →
        Latest m (calls m (run ++ [(d, move)])) c cr) ∧
      (step J m d move).server.settings = d.server.settings := by
  rw [calls_append]
  obtain ⟨hnone, hserver⟩ | ⟨event, hsome, hserver⟩ := @server_step ι _ J m d move
  · have hcalled : called m (d, move) = none := by rw [called, hnone]
    rw [hserver, hcalled, Option.toList_none, List.append_nil]
    exact ⟨h, rfl⟩
  · rw [hserver]
    cases event with
    | call call =>
        have hcalled : called m (d, move) = some (d.server, call) := by rw [called, hsome]
        rw [hcalled, Option.toList_some]
        refine ⟨fun c cr hcr => ?_, Server.settings_next m d.server call⟩
        exact Server.latest_next h hcr
    | signal =>
        have hcalled : called m (d, move) = none := by rw [called, hsome]
        rw [hcalled, Option.toList_none, List.append_nil]
        exact ⟨h, rfl⟩

theorem cache_run {s : Server} (hs : ∀ c, s.cache c = none) (moves : List (Move ι)) :
    let d := moves.foldl (step J m) (daemon ι s)
    (∀ c cr, d.server.cache c = some cr →
        Latest m (calls m (trace (step J m) (daemon ι s) moves)) c cr) ∧
      d.server.settings = s.settings := by
  apply @trace_run _ _ (step J m) (fun run d =>
    (∀ c cr, d.server.cache c = some cr → Latest m (calls m run) c cr) ∧
      d.server.settings = s.settings)
  · refine ⟨fun c cr hcr => ?_, rfl⟩
    rw [show (daemon ι s).server.cache c = none from hs c] at hcr
    cases hcr
  · intro run d move h
    obtain ⟨hcache, hsettings⟩ := cache_step h.1 move
    exact ⟨hcache, hsettings.trans h.2⟩

omit [DecidableEq ι] in
theorem command_of_performed {st : Server × Call} {r : P18.Response} (h : Performed m st r) :
    r.command = st.2.command := by
  obtain ⟨-, hret⟩ := h
  unfold Server.onDevice P18.execute at hret
  cases hpacked : P18.packRequest m st.2.command st.2.arguments with
  | error e =>
      rw [hpacked] at hret
      cases hret
  | ok packed =>
      rw [hpacked] at hret
      obtain ⟨n, -, hdecode⟩ := Outcome.bind_eq_ret.mp hret
      unfold P18.decodeResponse at hdecode
      obtain ⟨valid, -, hdecode⟩ := Outcome.bind_eq_ret.mp hdecode
      cases valid with
      | false => cases hdecode
      | true =>
          obtain ⟨fields, -, hdecode⟩ := Outcome.bind_eq_ret.mp hdecode
          rw [← Outcome.ret.inj hdecode]

/-- A cached answer is that of the transaction `old`, for the same command and arguments, recent,
and with no other of its command after it. -/
structure Origin (m : Machine) (timeout : UInt64) (call : Call) (r : P18.Response)
    (old : Server × Call) (after : List (Server × Call)) : Prop where
  performed : Performed m old r
  command_eq : old.2.command = call.command
  arguments_eq : old.2.arguments = call.arguments
  done_le : old.2.env.done ≤ call.env.cacheNow
  recent : call.env.cacheNow.toNat - old.2.env.done.toNat ≤ timeout.toNat
  latest : ∀ later ∈ after, later.2.command = call.command → ∀ r, ¬ Performed m later r

omit [DecidableEq ι] in
theorem returned_origin {run : List (Server × Call)} {st : Server × Call} {r : P18.Response}
    (hlatest : ∀ c cr, st.1.cache c = some cr → Latest m run c cr)
    (hclock : Clocked (run ++ [st])) (hr : Returned m st r) :
    Performed m st r ∨ ∃ older old after, run = older ++ old :: after ∧
      Origin m st.1.cacheTimeout st.2 r old after := by
  by_cases hlive : Live st
  · apply Or.inr
    obtain ⟨cr, hcr, hage, hargs, hresponse, -⟩ | ⟨hnot, -⟩ := Server.returned_cases hr
    · obtain ⟨older, old, after, hrun, hold, hafter⟩ := hlatest _ cr hcr
      have hle : old.2.env.done ≤ st.2.env.cacheNow := by
        rw [hrun, Clocked, List.flatMap_append, List.pairwise_append] at hclock
        apply hclock.2.2
        · exact List.mem_flatMap.mpr ⟨old, by simp, by simp [Server.readings]⟩
        · exact List.mem_flatMap.mpr ⟨st, by simp, by simp [Server.readings]⟩
      refine ⟨older, old, after, hrun, hresponse ▸ hold.performed, hold.command_eq,
        hold.arguments_eq.trans hargs.symm, hle, ?_, hafter⟩
      rwa [← hold.done_eq, UInt64.le_iff_toNat_le, UInt64.toNat_sub_of_le _ _ hle] at hage
    · exact absurd hlive hnot
  · exact .inl (Server.performed_of_returned hlive hr)

theorem origin_of_answered {s : Server} (hs : ∀ c, s.cache c = none) {moves : List (Move ι)}
    {i : ι} {x : Request} {t : Surroundings} {options : ConnectionOptions} {c : CommandType}
    {args : List Bytes} {body : Bytes}
    (hopen : (moves.foldl (step J m) (daemon ι s)).options i = some options)
    (hcommand : requested m x.buf = some (c, args))
    (hret : (ask J m (moves.foldl (step J m) (daemon ι s)).server options x t).outcome =
      .ret ⟨.ok, body⟩)
    (hclock : Clocked (calls m (trace (step J m) (daemon ι s) (moves ++ [.request i x t])))) :
    let run := trace (step J m) (daemon ι s) moves
    let current : Server × Call :=
      ((moves.foldl (step J m) (daemon ι s)).server, ⟨c, args, t.env⟩)
    calls m (trace (step J m) (daemon ι s) (moves ++ [.request i x t])) = calls m run ++ [current] ∧
      ∃ r : P18.Response,
        (P18.format r.command r.raw r.fields).write J t.depth options.format = .ret body ∧
        (Performed m current r ∨ ∃ older old after, calls m run = older ++ old :: after ∧
          Origin m s.cacheTimeout ⟨c, args, t.env⟩ r old after) := by
  intro run current
  obtain ⟨hcache, hsettings⟩ := cache_run (J := J) (m := m) hs moves
  have hlast : called m (moves.foldl (step J m) (daemon ι s), .request i x t) = some current := by
    simp [called, happened, hopen, hcommand, current]
  have hcalls : calls m (trace (step J m) (daemon ι s) (moves ++ [.request i x t])) =
      calls m run ++ [current] := by
    rw [trace_append, trace_cons, trace_nil, calls_append, hlast, Option.toList_some]
  rw [hcalls] at hclock
  obtain ⟨r, hr, hwrite⟩ := returned_of_answered hcommand hret
  have htimeout : current.1.cacheTimeout = s.cacheTimeout :=
    congrArg (fun settings => settings.2.1) hsettings
  have horigin := returned_origin hcache hclock hr
  rw [htimeout] at horigin
  exact ⟨hcalls, r, hwrite, horigin⟩

/-- **Where an answer comes from.**  In every run of the daemon, with a clock that does not go back:
when a request that executes a command is answered `ok`, the body is the output of that command, in
the format that the requests of this very connection have selected, for a response that the device
gave to this request, or to the latest request of any connection whose command succeeded and was the
same, with the same arguments and not longer ago than the cache allows. -/
theorem answer_origin (J : JsonDump) (m : Machine) {s : Server} (hs : ∀ c, s.cache c = none)
    (moves : List (Move ι)) (i : ι) (x : Request) (t : Surroundings) {options : ConnectionOptions}
    {c : CommandType} {args : List Bytes} {body : Bytes}
    (hopen : (moves.foldl (step J m) (daemon ι s)).options i = some options)
    (hcommand : requested m x.buf = some (c, args))
    (hret : (ask J m (moves.foldl (step J m) (daemon ι s)).server options x t).outcome =
      .ret ⟨.ok, body⟩)
    (hclock : Clocked (calls m (trace (step J m) (daemon ι s) (moves ++ [.request i x t])))) :
    let run := trace (step J m) (daemon ι s) moves
    let call : Call := ⟨c, args, t.env⟩
    ∃ r : P18.Response,
      (P18.format c r.raw r.fields).write J t.depth (lastFormat (log J m i run)) = .ret body ∧
      (Performed m ((moves.foldl (step J m) (daemon ι s)).server, call) r ∨
        ∃ older old after, calls m run = older ++ old :: after ∧
          Origin m s.cacheTimeout call r old after) := by
  intro run call
  have hoptions : options = ⟨1, lastFormat (log J m i run)⟩ :=
    (session_run s moves i options hopen).options_eq
  obtain ⟨-, r, hwrite, horigin⟩ := origin_of_answered hs hopen hcommand hret hclock
  have hname : r.command = c := by
    obtain hperformed | ⟨older, old, after, -, hold⟩ := horigin
    · exact command_of_performed hperformed
    · exact (command_of_performed hold.performed).trans hold.command_eq
  rw [hname, hoptions] at hwrite
  exact ⟨r, hwrite, horigin⟩

/-- One connection selects tables, the other reads the mode at 100 ms. -/
def tableAndMode : List (Move Bool) := [
  .accept true,
  .accept false,
  .request true ⟨ascii "format table" ++ crlf ++ [0], none⟩ ⟨0, Server.answeredAt 50 []⟩,
  .request false ⟨ascii "exec get-mode" ++ crlf ++ [0], none⟩
    ⟨0, Server.answeredAt 100 (ascii "^D00505")⟩]

/-- At 500 ms the first connection reads the mode too, and the device says nothing. -/
theorem answer_origin_cached :
    let d := daemon Bool Server.started
    let run := trace (step Formatter.textDump P18.x86) d tableAndMode
    ∃ r : P18.Response, (P18.format .getWorkingMode r.raw r.fields).write Formatter.textDump 0
        (lastFormat (log Formatter.textDump P18.x86 true run)) =
          .ret (ascii "Working mode: Hybrid mode") ∧
      (Performed P18.x86 ((tableAndMode.foldl (step Formatter.textDump P18.x86) d).server,
          ⟨.getWorkingMode, [], Server.answeredAt 500 []⟩) r ∨
        ∃ older old after, calls P18.x86 run = older ++ old :: after ∧
          Origin P18.x86 Server.CACHE_TIMEOUT ⟨.getWorkingMode, [], Server.answeredAt 500 []⟩ r old
            after) := by
  have hopen : (tableAndMode.foldl (step Formatter.textDump P18.x86)
      (daemon Bool Server.started)).options true = some ⟨1, .table⟩ := by
    decide +kernel
  apply answer_origin Formatter.textDump P18.x86 (fun _ => rfl) tableAndMode true
    ⟨ascii "exec get-mode" ++ crlf ++ [0], none⟩ ⟨0, Server.answeredAt 500 []⟩ hopen
  · decide +kernel
  · decide +kernel
  · decide +kernel

/-! ### Isolation -/

/-- What a connection does itself. -/
inductive Deed where
  | accept
  | request (x : Request)
  | close

/-- The part of a move that is the connection's own. -/
def own (i : ι) : Move ι → Option Deed
  | .accept j => if j = i then some .accept else none
  | .request j x _ => if j = i then some (.request x) else none
  | .close j => if j = i then some .close else none
  | .signal => none

/-- The reply that a move brings a connection, without the replies to commands. -/
def reply (J : JsonDump) (m : Machine) (i : ι) (p : Daemon ι × Move ι) :
    Option (Bytes × Outcome Exn Response) :=
  match p.2 with
  | .request j x t =>
      if j = i then
        match p.1.options j, requested m x.buf with
        | some options, none => some (x.buf, (ask J m p.1.server options x t).outcome)
        | _, _ => none
      else none
  | _ => none

/-- The commands of a connection are answered. -/
def CommandsAnswered (J : JsonDump) (m : Machine) (i : ι) (run : List (Daemon ι × Move ι)) : Prop :=
  ∀ p ∈ run, ∀ x t options, p.2 = .request i x t → p.1.options i = some options →
    requested m x.buf ≠ none → ∃ r, (ask J m p.1.server options x t).outcome = .ret r

section

variable (J) (m)

/-- A request meets nothing. -/
def nothing : Surroundings := ⟨0, ⟨0, 0, ⟨0, [], 0, 0, []⟩, P18.zeroBuffer, 0⟩⟩

/-- A connection by itself, with a server that does not matter; its commands change nothing. -/
def alone (s : Server) (options : Option ConnectionOptions) : Deed → Option ConnectionOptions
  | .accept => some .init
  | .request x =>
      match options, requested m x.buf with
      | some options, none => kept (ask J m s options x nothing)
      | options, _ => options
  | .close => none

/-- The reply to a connection by itself. -/
def aloneReply (s : Server) (p : Option ConnectionOptions × Deed) :
    Option (Bytes × Outcome Exn Response) :=
  match p.2 with
  | .request x =>
      match p.1, requested m x.buf with
      | some options, none => some (x.buf, (ask J m s options x nothing).outcome)
      | _, _ => none
  | _ => none

end

/-- A move of the daemon leaves a connection alone, or is a deed of it. -/
theorem alone_step (s : Server) (p : Daemon ι × Move ι)
    (h : ∀ x t options, p.2 = .request i x t → p.1.options i = some options →
      requested m x.buf ≠ none → ∃ r, (ask J m p.1.server options x t).outcome = .ret r) :
    own i p.2 = none ∧ reply J m i p = none ∧ (step J m p.1 p.2).options i = p.1.options i ∨
      ∃ deed, own i p.2 = some deed ∧ reply J m i p = aloneReply J m s (p.1.options i, deed) ∧
        (step J m p.1 p.2).options i = alone J m s (p.1.options i) deed := by
  obtain ⟨d, move⟩ := p
  cases move with
  | signal => exact .inl ⟨rfl, rfl, rfl⟩
  | accept j =>
      by_cases hj : j = i
      · subst hj
        apply Or.inr
        exact ⟨.accept, if_pos rfl, rfl, Function.update_self _ _ _⟩
      · apply Or.inl
        exact ⟨if_neg hj, rfl, Function.update_of_ne (Ne.symm hj) _ _⟩
  | close j =>
      by_cases hj : j = i
      · subst hj
        apply Or.inr
        exact ⟨.close, if_pos rfl, rfl, Function.update_self _ _ _⟩
      · apply Or.inl
        exact ⟨if_neg hj, rfl, Function.update_of_ne (Ne.symm hj) _ _⟩
  | request j x t =>
      by_cases hj : j = i
      · subst hj
        apply Or.inr
        refine ⟨.request x, if_pos rfl, ?_⟩
        cases hopen : d.options j with
        | none => simp [reply, aloneReply, alone, step, hopen]
        | some options =>
            cases hrequested : requested m x.buf with
            | none =>
                have hsame := @ask_of_not_requested J m options d.server x t s nothing hrequested
                obtain ⟨-, houtcome, hoptions⟩ := hsame
                have hkept : kept (ask J m d.server options x t) =
                    kept (ask J m s options x nothing) := by
                  rw [kept, kept, houtcome, hoptions]
                rw [step_open hopen]
                simp [reply, aloneReply, alone, hopen, hrequested, houtcome, hkept]
            | some command =>
                obtain ⟨r, hr⟩ := h x t options rfl hopen (by simp [hrequested])
                have hoptions : (ask J m d.server options x t).options = options :=
                  (ask_of_requested hrequested).2
                have hkept : kept (ask J m d.server options x t) = some options := by
                  rw [kept, hr, hoptions]
                rw [step_open hopen]
                simp [reply, aloneReply, alone, hopen, hrequested, hkept]
      · apply Or.inl
        refine ⟨if_neg hj, if_neg hj, ?_⟩
        cases hopen : d.options j with
        | none => rw [step_closed hopen]
        | some options => simp only [step_open hopen, Function.update_of_ne (Ne.symm hj)]

theorem alone_run (s : Server) : ∀ (d : Daemon ι) (moves : List (Move ι)),
    CommandsAnswered J m i (trace (step J m) d moves) →
    (trace (step J m) d moves).filterMap (reply J m i) =
        (trace (alone J m s) (d.options i) (moves.filterMap (own i))).filterMap
          (aloneReply J m s) ∧
      (moves.foldl (step J m) d).options i =
        (moves.filterMap (own i)).foldl (alone J m s) (d.options i)
  | d, [], _ => ⟨rfl, rfl⟩
  | d, move :: moves, h => by
      obtain ⟨hfirst, hrest⟩ := List.forall_mem_cons.mp h
      obtain ⟨hreplies, hend⟩ := alone_run s (step J m d move) moves hrest
      rw [trace_cons, List.foldl_cons]
      obtain ⟨hown, hreply, hsame⟩ | ⟨deed, hown, hreply, hnext⟩ := alone_step s (d, move) hfirst
      · rw [List.filterMap_cons_none hown, List.filterMap_cons_none hreply]
        rw [hsame] at hreplies hend
        exact ⟨hreplies, hend⟩
      · rw [List.filterMap_cons_some hown, trace_cons, List.foldl_cons]
        rw [hnext] at hreplies hend
        refine ⟨?_, hend⟩
        rw [List.filterMap_cons, List.filterMap_cons, hreply, hreplies]

/-- **Isolation.**  Two runs of the daemon, from different states of the server, with other
connections that do different things, with another device and other times: when the own moves of a
connection are the same, and its commands are answered in both, it has the same options after them,
and all its requests other than commands get the same replies. -/
theorem isolated (J : JsonDump) (m : Machine) (i : ι) {d d' : Daemon ι}
    (hoptions : d.options i = d'.options i) {moves moves' : List (Move ι)}
    (hown : moves.filterMap (own i) = moves'.filterMap (own i))
    (hanswered : CommandsAnswered J m i (trace (step J m) d moves))
    (hanswered' : CommandsAnswered J m i (trace (step J m) d' moves')) :
    (moves.foldl (step J m) d).options i = (moves'.foldl (step J m) d').options i ∧
      (trace (step J m) d moves).filterMap (reply J m i) =
        (trace (step J m) d' moves').filterMap (reply J m i) := by
  obtain ⟨hreplies, hend⟩ := alone_run d.server d moves hanswered
  obtain ⟨hreplies', hend'⟩ := alone_run d.server d' moves' hanswered'
  rw [hreplies, hreplies', hend, hend', hoptions, hown]
  exact ⟨rfl, rfl⟩

/-- The connection that selects tables, by itself and beside another one. -/
theorem isolated_table :
    let step' := step Formatter.textDump P18.x86
    let d := daemon Bool Server.started
    let moves := tableAndMode.take 3
    (tableAndMode.foldl step' d).options true = (moves.foldl step' d).options true ∧
      (trace step' d tableAndMode).filterMap (reply Formatter.textDump P18.x86 true) =
        (trace step' d moves).filterMap (reply Formatter.textDump P18.x86 true) := by
  have hnone (run : List (Daemon Bool × Move Bool))
      (h : ∀ p ∈ run, ∀ x t, p.2 = .request true x t → requested P18.x86 x.buf = none) :
      CommandsAnswered Formatter.textDump P18.x86 true run :=
    fun p hp x t _ hx _ hcommand => absurd (h p hp x t hx) hcommand
  have hquiet (moves : List (Move Bool)) (hmoves : moves ⊆ tableAndMode) :
      CommandsAnswered Formatter.textDump P18.x86 true
        (trace (step Formatter.textDump P18.x86) (daemon Bool Server.started) moves) := by
    apply hnone
    intro p hp x t hx
    have hmem := hmoves (mem_of_mem_trace _ hp)
    rw [hx] at hmem
    simp only [tableAndMode, List.mem_cons, List.not_mem_nil, reduceCtorEq, false_or, or_false,
      Move.request.injEq, true_and, Bool.true_eq_false, false_and] at hmem
    rw [hmem.1]
    decide
  exact isolated Formatter.textDump P18.x86 true rfl rfl (hquiet _ (List.Subset.refl _))
    (hquiet _ (List.take_subset 3 _))

end

end InverterTools.Connection
