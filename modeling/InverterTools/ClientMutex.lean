import InverterTools.History
import InverterTools.Lib.Critical

/-! # Threads that share the client (`client_mutex_` in `server/server.cc`)

Every connection has a thread of its own, and `Server::executeCommand` holds `client_mutex_` from
its first line to its last, exceptions included.  `body` takes it apart into atomic steps in the
order of the source: a look at the cache, the erasure, the delay, each call of the driver, what the
device answers, and each assignment behind it.  A signal can come between any two of them.

`run_body` says that the steps in one piece are `executeCommand`.  From it and the rules of a lock
come `calls_serialised`, which makes every interleaving of threads a run of `Event`s, and
`mutex_comes_free`. -/

namespace InverterTools.Server

open P18 (CommandType Machine Response ResponseBuffer packRequest decodeResponse)
open Voltronic (Device WriteEvent toOffset)
open Critical (Body)

/-- What the threads share: the server, and the bytes that have gone out to the device. -/
structure Shared where
  server : Server
  wire : Bytes

/-- How a call is over. -/
structure CallResult where
  outcome : Except Exn Response
  sent : Bool
  slept : UInt32

/-- A change of the server. -/
def Shared.onServer (f : Server → Server) (s : Shared) : Shared := { s with server := f s.server }

/-- A call of the driver that has sent some bytes. -/
def Shared.transmit (data : Bytes) (s : Shared) : Shared := { s with wire := s.wire ++ data }

/-- The signals that `set_signal_handlers` is for. -/
inductive Signal where
  | SIGTERM
  | SIGINT
deriving DecidableEq, Repr

/-- `sighandler`. -/
def sighandler (_ : Signal) : Shared → Shared :=
  Shared.onServer fun s => { s with shutdownCaught := true }

/-! ### The atomic steps -/

/-- `Device::writeLoop`, one call of the driver after the other. -/
def writeBody (dev : Device) (started : UInt64) (data : Bytes)
    (k : Outcome Exn Unit → Body Shared CallResult) :
    ℤ → ℤ → List WriteEvent → Body Shared CallResult
  | _, _, [] => k .pending
  | off, bytesLeft, e :: es =>
      if off < 0 ∨ data.length < off + bytesLeft then k .fault
      else match dev.driver.write e.code with
        | .error x => .step id fun _ => k (.throw x)
        | .ok bytesWritten =>
            let report := dev.driver.padded ((data.drop off.toNat).take e.taken)
            .step (Shared.transmit report) fun _ =>
              let bytesLeft := bytesLeft - toInt bytesWritten
              if bytesLeft ≤ 0 then k (.ret ())
              else if dev.getTimeLeft started e.now = 0 then
                k (.throw (Device.timeoutError "data writing" started e.late))
              else writeBody dev started data k (off + toOffset bytesWritten) bytesLeft es

/-- What follows the sending in `Client::execute`: nothing in it is shared. -/
def receive (dev : Device) (env : Device.Script) (buf : ResponseBuffer) (c : CommandType) :
    Outcome Exn Response :=
  if dev.getTimeLeft env.started env.sent = 0 then
    .throw (Device.timeoutError "sending" env.started env.sentLate)
  else
    let r := dev.recv env.started buf.1 env.reads
    r.outcome >>= decodeResponse c r.mem

/-- `Client::execute`, up to its end and whether the request went out. -/
def executeBody (m : Machine) (dev : Device) (env : Device.Script) (buf : ResponseBuffer)
    (c : CommandType) (args : List Bytes)
    (k : Outcome Exn Response → Bool → Body Shared CallResult) : Body Shared CallResult :=
  match packRequest m c args with
  | .error e => k (.throw e) false
  | .ok packed =>
      let data := Device.frame dev.flags packed
      writeBody dev env.started data (fun
        | .ret () => .step id fun _ => k (receive dev env buf c) true
        | .throw x => k (.throw x) false
        | .fault => k .fault false
        | .pending => k .pending false) 0 data.length env.writes

/-- The `try` block behind `client_.execute`, and its handlers. -/
def settle (call : Call) (slept : UInt32) (o : Outcome Exn Response) (sent : Bool) :
    Body Shared CallResult :=
  match o with
  | .ret response =>
      .step (Shared.onServer fun s => { s with endExecutionTime := call.env.done }) fun _ =>
      .step (Shared.onServer fun s =>
        s.setCache call.command (some ⟨call.env.done, call.arguments, response⟩)) fun _ =>
      .step (Shared.onServer fun s => { s with deviceErrorCounter := 0 }) fun _ =>
      .done ⟨.ok response, sent, slept⟩
  | .throw e =>
      if e.cls = .deviceError then
        .step (Shared.onServer fun s =>
          { s with deviceErrorCounter := s.deviceErrorCounter + 1 }) fun _ =>
        .step (Shared.onServer fun s => { s with
          shutdownCaught := s.shutdownCaught ||
            decide (s.deviceErrorLimit ≤ s.deviceErrorCounter) }) fun _ =>
        .done ⟨.error (translate e), sent, slept⟩
      else .done ⟨.error (translate e), sent, slept⟩
  | .fault => .stuck
  | .pending => .stuck

/-- `executeCommand`, under the lock. -/
def body (m : Machine) (call : Call) : Body Shared CallResult :=
  .step id fun s =>
    match s.server.cached call.command call.arguments call.env.cacheNow with
    | some response => .done ⟨.ok response, false, 0⟩
    | none =>
        .step (Shared.onServer fun s => s.setCache call.command none) fun _ =>
        .step id fun s =>
          executeBody m s.server.device call.env.device call.env.buffer call.command
            call.arguments (settle call (s.server.delayFor call.env.delayNow))

/-! ### In one piece -/

/-- What a call hands back once it is over. -/
def CallEnd.result (x : CallEnd) : Option CallResult :=
  match x.outcome with
  | .ret response => some ⟨.ok response, x.sent, x.slept⟩
  | .throw e => some ⟨.error e, x.sent, x.slept⟩
  | .fault => none
  | .pending => none

/-- The bytes of a call that go out. -/
def transmitted (m : Machine) (st : Server × Call) : Bytes :=
  if Live st then []
  else (P18.execute m st.1.device st.2.env.device st.2.env.buffer st.2.command st.2.arguments).wire

section

variable {m : Machine} {dev : Device} {started : UInt64} {data : Bytes}
  {k : Outcome Exn Unit → Body Shared CallResult}

theorem run_writeBody (server : Server) : ∀ (es : List WriteEvent) (off left : ℤ) (wire : Bytes),
    (writeBody dev started data k off left es).run ⟨server, wire⟩ =
      (k (dev.writeLoop started data off left wire es).outcome).run
        ⟨server, (dev.writeLoop started data off left wire es).wire⟩
  | [], off, left, wire => rfl
  | e :: es, off, left, wire => by
      unfold writeBody Device.writeLoop
      by_cases hrange : off < 0 ∨ data.length < off + left
      · rw [if_pos hrange, if_pos hrange]
      · rw [if_neg hrange, if_neg hrange]
        cases dev.driver.write e.code with
        | error x => rfl
        | ok n =>
            dsimp only
            rw [Body.run_step]
            by_cases hdone : left - toInt n ≤ 0
            · rw [if_pos hdone, if_pos hdone]
              rfl
            · rw [if_neg hdone, if_neg hdone]
              by_cases htime : dev.getTimeLeft started e.now = 0
              · rw [if_pos htime, if_pos htime]
                rfl
              · rw [if_neg htime, if_neg htime]
                exact run_writeBody server es _ _ _

/-- What was on the wire before stays in front. -/
theorem writeLoop_append (w : Bytes) : ∀ (es : List WriteEvent) (off left : ℤ) (wire : Bytes),
    dev.writeLoop started data off left (w ++ wire) es =
      ⟨(dev.writeLoop started data off left wire es).outcome,
        w ++ (dev.writeLoop started data off left wire es).wire⟩
  | [], off, left, wire => rfl
  | e :: es, off, left, wire => by
      unfold Device.writeLoop
      by_cases hrange : off < 0 ∨ data.length < off + left
      · rw [if_pos hrange, if_pos hrange]
      · rw [if_neg hrange, if_neg hrange]
        cases dev.driver.write e.code with
        | error x => rfl
        | ok n =>
            dsimp only
            rw [List.append_assoc]
            split_ifs
            · rfl
            · rfl
            · exact writeLoop_append w es _ _ _

theorem run_executeBody (env : Device.Script) (buf : ResponseBuffer) (c : CommandType)
    (args : List Bytes) (k : Outcome Exn Response → Bool → Body Shared CallResult)
    (s : Shared) :
    let x := P18.execute m dev env buf c args
    (executeBody m dev env buf c args k).run s =
      (k x.outcome x.sent).run ⟨s.server, s.wire ++ x.wire⟩ := by
  unfold executeBody P18.execute
  cases packRequest m c args with
  | error e => simp
  | ok packed =>
      have hloop := @writeLoop_append dev env.started (Device.frame dev.flags packed) s.wire
        env.writes 0 (Device.frame dev.flags packed).length []
      rw [List.append_nil] at hloop
      dsimp only
      rw [show s = ⟨s.server, s.wire⟩ from rfl, run_writeBody, hloop]
      unfold Device.run Device.send
      obtain ⟨o, wire⟩ := dev.writeLoop env.started (Device.frame dev.flags packed) 0
        (Device.frame dev.flags packed).length [] env.writes
      cases o with
      | ret u =>
          simp only [Body.run_step, receive]
          by_cases htime : dev.getTimeLeft env.started env.sent = 0
          · simp only [if_pos htime]
            rfl
          · simp only [if_neg htime]
            rfl
      | throw x => rfl
      | fault => rfl
      | pending => rfl

/-- The steps of a call in one piece are `executeCommand`. -/
theorem run_body (m : Machine) (call : Call) (s : Shared) :
    (body m call).run s = ((call.run m s.server).result,
      ⟨(call.run m s.server).server, s.wire ++ transmitted m (s.server, call)⟩) := by
  cases hcached : s.server.cached call.command call.arguments call.env.cacheNow with
  | some response =>
      have hrun : call.run m s.server = ⟨.ret response, s.server, false, 0⟩ :=
        @finish_of_cached m (s.server, call) response hcached
      have hlive : Live (s.server, call) := by
        rw [Live, hcached]
        rfl
      rw [hrun, transmitted, if_pos hlive, List.append_nil, body, Body.run_step]
      simp only [id, hcached]
      rfl
  | none =>
      have hlive : ¬ Live (s.server, call) := by simp [Live, hcached]
      rw [transmitted, if_neg hlive, body, Body.run_step]
      simp only [id, hcached, Body.run_step, Call.run, executeCommand]
      rw [run_executeBody]
      show (settle call _ (P18.execute m s.server.device call.env.device call.env.buffer
        call.command call.arguments).outcome _).run _ = _
      have hdevice : (s.server.setCache call.command none).device = s.server.device := rfl
      rw [hdevice]
      cases (P18.execute m s.server.device call.env.device call.env.buffer call.command
          call.arguments).outcome with
      | ret response => rfl
      | throw e =>
          unfold settle
          by_cases hcls : e.cls = .deviceError
          · simp only [if_pos hcls]
            rfl
          · simp only [if_neg hcls]
            rfl
      | fault => rfl
      | pending => rfl

/-! ### Signals, and what stays on the wire -/

/-- More bytes have gone out, and none has been taken back. -/
def Sends (s t : Shared) : Prop := s.wire <+: t.wire

theorem sends_refl (s : Shared) : Sends s s := List.prefix_rfl

theorem sends_trans (s t u : Shared) (h : Sends s t) (h' : Sends t u) : Sends s u := h.trans h'

/-- The steps do not look at what a signal has set, and take no byte back. -/
def Orderly (b : Body Shared CallResult) : Prop :=
  (∀ signal, b.Tolerates (sighandler signal)) ∧ b.Keeps Sends

theorem orderly_done (r : CallResult) : Orderly (.done r) := ⟨fun _ => trivial, trivial⟩

theorem orderly_stuck : Orderly .stuck := ⟨fun _ => trivial, trivial⟩

theorem orderly_id {rest : Shared → Body Shared CallResult}
    (hrest : ∀ signal s, rest (sighandler signal s) = rest s) (h : ∀ s, Orderly (rest s)) :
    Orderly (.step id rest) :=
  ⟨fun signal s => ⟨rfl, hrest signal s, (h s).1 signal⟩, fun s => ⟨sends_refl s, (h s).2⟩⟩

theorem orderly_onServer {f : Server → Server} {b : Body Shared CallResult}
    (hf : ∀ s : Server,
      f { s with shutdownCaught := true } = { f s with shutdownCaught := true })
    (h : Orderly b) : Orderly (.step (Shared.onServer f) fun _ => b) := by
  have hcommutes (signal : Signal) (s : Shared) :
      (sighandler signal s).onServer f = sighandler signal (s.onServer f) := by
    simp only [sighandler, Shared.onServer, hf]
  exact ⟨fun signal s => ⟨hcommutes signal s, rfl, h.1 signal⟩, fun s => ⟨sends_refl s, h.2⟩⟩

theorem orderly_transmit {data : Bytes} {b : Body Shared CallResult} (h : Orderly b) :
    Orderly (.step (Shared.transmit data) fun _ => b) :=
  ⟨fun signal _ => ⟨rfl, rfl, h.1 signal⟩, fun _ => ⟨List.prefix_append _ _, h.2⟩⟩

theorem orderly_writeBody (hk : ∀ o, Orderly (k o)) : ∀ (es : List WriteEvent) (off left : ℤ),
    Orderly (writeBody dev started data k off left es)
  | [], _, _ => hk .pending
  | e :: es, off, left => by
      unfold writeBody
      by_cases hrange : off < 0 ∨ data.length < off + left
      · rw [if_pos hrange]
        exact hk .fault
      · rw [if_neg hrange]
        cases dev.driver.write e.code with
        | error x => exact orderly_id (fun _ _ => rfl) fun _ => hk (.throw x)
        | ok n =>
            apply orderly_transmit
            dsimp only
            split_ifs
            · exact hk _
            · exact hk _
            · exact orderly_writeBody hk es _ _

theorem orderly_settle (call : Call) (slept : UInt32) (o : Outcome Exn Response) (sent : Bool) :
    Orderly (settle call slept o sent) := by
  cases o with
  | ret response =>
      apply orderly_onServer (fun _ => rfl)
      apply orderly_onServer (fun _ => rfl)
      apply orderly_onServer (fun _ => rfl)
      exact orderly_done _
  | throw e =>
      simp only [settle]
      split_ifs
      · apply orderly_onServer (fun _ => rfl)
        apply orderly_onServer (fun _ => rfl)
        exact orderly_done _
      · exact orderly_done _
  | fault => exact orderly_stuck
  | pending => exact orderly_stuck

theorem orderly_body (m : Machine) (call : Call) : Orderly (body m call) := by
  refine orderly_id (fun _ _ => rfl) fun s => ?_
  cases s.server.cached call.command call.arguments call.env.cacheNow with
  | some response => exact orderly_done _
  | none =>
      apply orderly_onServer (fun _ => rfl)
      refine orderly_id (fun _ _ => rfl) fun s => ?_
      unfold executeBody
      cases packRequest m call.command call.arguments with
      | error e => exact orderly_settle _ _ _ _
      | ok packed =>
          refine orderly_writeBody (fun o => ?_) _ _ _
          cases o with
          | ret u => exact orderly_id (fun _ _ => rfl) fun _ => orderly_settle _ _ _ _
          | throw e => exact orderly_settle _ _ _ _
          | fault => exact orderly_stuck
          | pending => exact orderly_stuck

end

/-! ### Threads -/

section

variable {ι : Type}

/-- The daemon while its threads call `executeCommand`, from a server nobody has called. -/
abbrev Threads (ι : Type) := Critical.State ι Call Signal Shared CallResult

/-- The threads after some atomic steps. -/
def interleave [DecidableEq ι] (m : Machine) (s : Server)
    (steps : List (Critical.Step ι Call Signal)) : Threads ι :=
  steps.foldl (Critical.step (body m) sighandler) (Critical.start ⟨s, []⟩)

/-- An entry of the log, as an event of the server. -/
def eventOf : Critical.Event ι Call Signal CallResult → Event
  | .called _ call _ => .call call
  | .disturbed _ => .signal

/-- The calls of a log with their results. -/
def answers (log : List (Critical.Event ι Call Signal CallResult)) :
    List (Call × Option CallResult) :=
  log.filterMap fun
    | .called _ call r => some (call, some r)
    | .disturbed _ => none

/-- The calls of a run of the server with their results. -/
def endings (m : Machine) (run : List (Server × Event)) : List (Call × Option CallResult) :=
  run.filterMap fun
    | (s, .call call) => some (call, (call.run m s).result)
    | (_, .signal) => none

/-- The bytes that a run of the server sends to the device. -/
def bytesSent (m : Machine) (run : List (Server × Event)) : Bytes :=
  run.flatMap fun
    | (s, .call call) => transmitted m (s, call)
    | (_, .signal) => []

theorem after_called (m : Machine) (s : Shared) (i : ι) (call : Call) (r : CallResult) :
    Critical.after (body m) sighandler s (.called i call r) =
      ⟨next m s.server call, s.wire ++ transmitted m (s.server, call)⟩ := by
  rw [Critical.after, run_body]
  rfl

theorem replay_eq (m : Machine) (log : List (Critical.Event ι Call Signal CallResult))
    (s : Shared) :
    Critical.replay (body m) sighandler s log =
      ⟨(log.map eventOf).foldl (react m) s.server,
        s.wire ++ bytesSent m (trace (react m) s.server (log.map eventOf))⟩ := by
  induction log generalizing s with
  | nil => simp [Critical.replay, bytesSent]
  | cons e log ih =>
      have hcons : Critical.replay (body m) sighandler s (e :: log) =
          Critical.replay (body m) sighandler
            (Critical.after (body m) sighandler s e) log := rfl
      rw [hcons, ih]
      cases e with
      | called i call r =>
          rw [after_called, List.map_cons, trace_cons, bytesSent, bytesSent, List.flatMap_cons,
            ← List.append_assoc]
          rfl
      | disturbed e => rfl

theorem answers_eq (m : Machine) (log : List (Critical.Event ι Call Signal CallResult)) (s : Shared)
    (h : Critical.Answered (body m) sighandler s log) :
    answers log = endings m (trace (react m) s.server (log.map eventOf)) := by
  induction log generalizing s with
  | nil => rfl
  | cons e log ih =>
      have hrest := ih (Critical.after (body m) sighandler s e)
        fun p hp => h p (List.mem_cons_of_mem _ hp)
      cases e with
      | called i call r =>
          have hr := h _ List.mem_cons_self i call r rfl
          rw [run_body] at hr
          rw [after_called] at hrest
          rw [List.map_cons, trace_cons]
          show (call, some r) :: answers log =
            (call, (call.run m s.server).result) :: endings m (trace (react m) _ _)
          rw [hrest, ← hr]
          rfl
      | disturbed e => exact hrest

theorem interleave_serial [DecidableEq ι] (m : Machine) (server : Server)
    (steps : List (Critical.Step ι Call Signal)) :
    Critical.Held (body m) sighandler ⟨server, []⟩ (interleave m server steps) ∧
      Critical.Answered (body m) sighandler ⟨server, []⟩ (interleave m server steps).log :=
  Critical.serial (fun call => (orderly_body m call).1) ⟨server, []⟩ steps

theorem replay_log [DecidableEq ι] (m : Machine) (server : Server)
    (steps : List (Critical.Step ι Call Signal)) :
    let events := (interleave m server steps).log.map eventOf
    Critical.replay (body m) sighandler ⟨server, []⟩ (interleave m server steps).log =
      ⟨events.foldl (react m) server, bytesSent m (trace (react m) server events)⟩ := by
  rw [replay_eq, List.nil_append]

/-- With nobody inside, what is shared is what the calls of the log have left. -/
theorem shared_of_free [DecidableEq ι] {m : Machine} {server : Server}
    {steps : List (Critical.Step ι Call Signal)}
    (hfree : (interleave m server steps).locked = false) :
    let events := (interleave m server steps).log.map eventOf
    (interleave m server steps).shared =
      ⟨events.foldl (react m) server, bytesSent m (trace (react m) server events)⟩ := by
  have hheld := (interleave_serial m server steps).1
  generalize hs : interleave m server steps = s at hheld hfree
  cases hheld with
  | free hlocked hphase hshared =>
      rw [← hs] at hshared ⊢
      exact hshared.trans (replay_log m server steps)
  | inside i c rest n hlocked =>
      rw [show s.locked = true from hlocked] at hfree
      cases hfree

/-- Behind the bytes of the calls of the log, the thread inside has sent the head of its own. -/
theorem wire_of_inside [DecidableEq ι] {m : Machine} {server : Server}
    {steps : List (Critical.Step ι Call Signal)} {i : ι} {call : Call}
    {rest : Body Shared CallResult} (hi : (interleave m server steps).phase i = .inside call rest) :
    let events := (interleave m server steps).log.map eventOf
    (interleave m server steps).locked = true ∧
      ∃ part, part <+: transmitted m (events.foldl (react m) server, call) ∧
        (interleave m server steps).shared.wire =
          bytesSent m (trace (react m) server events) ++ part := by
  intro events
  obtain ⟨hlocked, -, n, hfirst⟩ := (interleave_serial m server steps).1.of_inside hi
  rw [replay_log] at hfirst
  -- what is on the wire lies between the calls before and the end of this one
  obtain ⟨⟨part, hpart⟩, hbefore⟩ :=
    (orderly_body m call).2.between sends_refl sends_trans hfirst
  rw [run_body, Sends, ← hpart] at hbefore
  exact ⟨hlocked, part, (List.prefix_append_right_inj _).mp hbefore, hpart.symm⟩

/-- **Threads are served one after the other.**  Whatever the order of the atomic steps of any
number of threads and of signals: there is never more than one thread inside `executeCommand`; every
call that is over has the result, and the server the state, that the calls of the log have when
`executeCommand` runs as a whole for one after the other; and what has gone out to the device is
what these calls send, one behind the other (frames, and the zeros that fill last reports), and the
beginning of what the thread inside sends. -/
theorem calls_serialised [DecidableEq ι] (m : Machine) (server : Server)
    (steps : List (Critical.Step ι Call Signal)) :
    let s := interleave m server steps
    let events := s.log.map eventOf
    let run := trace (react m) server events
    let server' := events.foldl (react m) server
    (∀ i j, (s.phase i).Inside → (s.phase j).Inside → i = j) ∧
      answers s.log = endings m run ∧
      (s.locked = false → s.shared = ⟨server', bytesSent m run⟩) ∧
      ∀ i call rest, s.phase i = .inside call rest → s.locked = true ∧
        ∃ part, part <+: transmitted m (server', call) ∧
          s.shared.wire = bytesSent m run ++ part := by
  intro s events run server'
  obtain ⟨hheld, hanswered⟩ := interleave_serial m server steps
  refine ⟨fun i j hi hj => hheld.unique hi hj, answers_eq m s.log _ hanswered, ?_, ?_⟩
  · exact shared_of_free
  · exact fun i call rest hi => wire_of_inside hi

theorem interleave_append [DecidableEq ι] (m : Machine) (server : Server)
    (steps steps' : List (Critical.Step ι Call Signal)) :
    interleave m server (steps ++ steps') =
      steps'.foldl (Critical.step (body m) sighandler) (interleave m server steps) :=
  List.foldl_append

/-- **`client_mutex_` comes free**, also after an exception.  Wherever a thread has got to inside
`executeCommand`, if the device and the clock bring its call to an end at all, then its own steps do
and unlock the mutex, with the result that the call has as a whole; and then any of the threads that
have been waiting can go in. -/
theorem mutex_comes_free [DecidableEq ι] (m : Machine) (server : Server)
    (steps : List (Critical.Step ι Call Signal)) {i : ι} {call : Call}
    {rest : Body Shared CallResult} (hi : (interleave m server steps).phase i = .inside call rest)
    (hend : (call.run m (((interleave m server steps).log.map eventOf).foldl (react m)
      server)).outcome.Ended) :
    ∃ n r, let s := interleave m server steps
      let t := interleave m server (steps ++ Critical.goOn i n)
      (call.run m ((s.log.map eventOf).foldl (react m) server)).result = some r ∧
        t.locked = false ∧ t.log = s.log ++ [.called i call r] ∧
        ∀ j next, s.phase j = .waiting next →
          (interleave m server (steps ++ Critical.goOn i n ++ [.acquire j])).phase j =
            .inside next (body m next) := by
  have hresult : ∃ r, (call.run m (((interleave m server steps).log.map eventOf).foldl (react m)
      server)).result = some r := by
    unfold CallEnd.result
    rcases Outcome.ended_iff.mp hend with ⟨response, ho⟩ | ⟨e, ho⟩
    · rw [ho]
      exact ⟨_, rfl⟩
    · rw [ho]
      exact ⟨_, rfl⟩
  obtain ⟨r, hr⟩ := hresult
  have hrun : ((body m call).run (Critical.replay (body m) sighandler ⟨server, []⟩
      (interleave m server steps).log)).1 = some r := by
    rw [replay_eq, run_body]
    exact hr
  obtain ⟨n, hlocked, hlog, hphase⟩ :=
    Critical.comes_free (interleave_serial m server steps).1 hi hrun
  rw [← interleave_append] at hlocked hlog hphase
  refine ⟨n, r, hr, hlocked, hlog, fun j next hj => ?_⟩
  have hne : j ≠ i := by
    rintro rfl
    rw [hi] at hj
    cases hj
  rw [interleave_append, List.foldl_cons, List.foldl_nil]
  apply Critical.acquire_free hlocked
  rw [hphase, Function.update_of_ne hne, hj]

/-- One thread whose report cannot be written: it leaves `executeCommand` with an exception, and
another one goes in. -/
theorem mutex_comes_free_unwritten :
    let steps : List (Critical.Step ℕ Call Signal) :=
      [.call 0 (unwritten 100), .call 1 (unwritten 200), .acquire 0]
    ∃ n, let t := interleave P18.x86 started (steps ++ Critical.goOn 0 n)
      t.locked = false ∧
        (interleave P18.x86 started (steps ++ Critical.goOn 0 n ++ [.acquire 1])).phase 1 =
          .inside (unwritten 200) (body P18.x86 (unwritten 200)) := by
  intro steps
  have hi : (interleave P18.x86 started steps).phase 0 =
      .inside (unwritten 100) (body P18.x86 (unwritten 100)) := rfl
  have hlog : (interleave P18.x86 started steps).log = [] := rfl
  have hthrows : ((unwritten 100).run P18.x86 started).outcome.Ended := by
    unfold Outcome.Ended
    decide
  obtain ⟨n, r, -, hlocked, -, hnext⟩ :=
    mutex_comes_free P18.x86 started steps hi (by rwa [hlog])
  exact ⟨n, hlocked, hnext 1 _ rfl⟩

end

end InverterTools.Server
