import InverterTools.Control
import InverterTools.Inverter

/-! # The inverter behind the daemon

`linkAfter` follows the link to the inverter from call to call: what goes out, what the inverter
makes of it, and what is read of its answers.  `linkAfter_of_served` is about one call on a link on
which nothing is left over: the inverter does the order, and the call returns the answer to it.

`linearised` closes the circle.  In a run of the daemon every answer to a client is the inverter's
own, to this very order, in the state in which the orders before have left it. -/

namespace InverterTools.Server

open P18 (Inverter Machine packRequest validateInput getArgs)
open Voltronic (Device defaultFlags)

/-- The transaction of a call, for the request that it packs. -/
def runOf (st : Server × Call) (packed : Bytes) : Transaction :=
  ⟨st.1.device, .run packed st.2.env.buffer.1, st.2.env.device⟩

/-- The transaction of a call, if it gets to the device. -/
def transaction (m : Machine) (st : Server × Call) : Option Transaction :=
  if Live st then none
  else (packRequest m st.2.command st.2.arguments).toOption.map (runOf st)

section

variable {σ : Type}

/-- What a call leaves in the channel and behind it. -/
def linkAfter (peer : Peer σ UInt8 CR 0) (m : Machine) (l : Link σ UInt8) (st : Server × Call) :
    Link σ UInt8 :=
  match transaction m st with
  | none => l
  | some t => t.next peer l

/-- What a call meets on the link: the driver takes as many bytes as it says, what is read is what
the channel holds, and the call does not end between its first byte and its answer. -/
structure Served (inv : Inverter σ) (m : Machine) (l : Link σ UInt8) (st : Server × Call) :
    Prop where
  no_CR : ∀ arg ∈ st.2.arguments, CR ∉ arg
  exact : st.1.device.Exact st.2.env.device.writes
  possible : ∀ t, transaction m st = some t → t.Possible inv.peer l
  settled : ∀ t, transaction m st = some t → t.Settled

variable {inv : Inverter σ} {m : Machine} {st : Server × Call} {l : Link σ UInt8}

theorem transaction_eq_some {t : Transaction} : transaction m st = some t ↔ ¬ Live st ∧
    ∃ packed, packRequest m st.2.command st.2.arguments = .ok packed ∧ t = runOf st packed := by
  unfold transaction
  by_cases hlive : Live st
  · simp [hlive]
  · rw [if_neg hlive]
    cases hp : packRequest m st.2.command st.2.arguments with
    | error e => simp [Except.toOption]
    | ok packed => simp [Except.toOption, hlive, eq_comm]

/-- **One call on an idle link**: the inverter gets its order, and what is returned is the answer to
it; the link is idle again. -/
theorem linkAfter_of_served (hflags : st.1.device.flags = defaultFlags)
    (hvalid : ∃ command argv,
      validateInput m (getArgs argv) command = .ok (st.2.command, st.2.arguments))
    (hl : l.Idle 0) (h : Served inv m l st) :
    let far := linkAfter inv.peer m l st
    (far.state = (orders m [st]).foldl inv.after l.state ∧ far.Idle 0) ∧
      ∀ t p, transaction m st = some t → t.Returned p →
        p = inv.answer l.state (order m st) := by
  have ho : Orderable m st := ⟨hvalid, h.no_CR, h.exact⟩
  cases htr : transaction m st with
  | none =>
      have hsent : ¬ Sent m st := by
        intro hsent
        obtain ⟨hlive, packed, hp⟩ := packed_of_sent hsent
        rw [transaction_eq_some.mpr ⟨hlive, packed, hp, rfl⟩] at htr
        cases htr
      have horders : orders m [st] = [] := by simp [orders, hsent]
      simp only [linkAfter, htr, horders, List.foldl_nil]
      exact ⟨⟨trivial, hl⟩, fun t p ht => by cases ht⟩
  | some t =>
      obtain ⟨hlive, packed, hp, rfl⟩ := transaction_eq_some.mp htr
      have hpossible := h.possible _ htr
      have hplain : (runOf st packed).Plain :=
        ⟨h.exact, fun text htext => Except.ok.inj htext ▸ P18.CR_notMem_packed h.no_CR hp⟩
      have hwire : (runOf st packed).exec.wire = transmitted m st := by
        rw [transmitted_of_packed hlive hp]
        exact st.1.device.run_wire _ _ _
      have hwhole : Whole m st := by
        obtain ⟨p, hret⟩ | hsilent := h.settled _ htr
        · obtain ⟨text, n, htext, hsend, -⟩ := Transaction.exec_ret hret
          obtain rfl := Except.ok.inj htext
          exact .inl ((sent_iff_send hlive hp).mpr hsend)
        · exact .inr (hwire ▸ hsilent)
      have hidle : (Transaction.next inv.peer l (runOf st packed)).Idle 0 := by
        obtain ⟨p, hret⟩ | hsilent := h.settled _ htr
        · exact Transaction.idle_of_returned hl hpossible hplain hret
        · exact Transaction.idle_of_silent hl hpossible hsilent
      obtain ⟨hstate, -⟩ := receive_transmitted inv hflags ho hwhole hl.1
      constructor
      · simp only [linkAfter, htr]
        refine ⟨?_, hidle⟩
        rw [← hstate, ← hwire]
        rfl
      · intro t p ht hret
        obtain rfl := Option.some.inj ht
        obtain ⟨body, hsent, hbody, hreply⟩ := Transaction.matched_of_idle hl hpossible hret
        obtain ⟨command, argv, hv⟩ := hvalid
        have hframe : body ++ [CR] = Device.frame st.1.device.flags packed :=
          hsent.symm.trans (Transaction.sentFrame_of_returned hplain hret rfl)
        have hdevice : (runOf st packed).device.flags = defaultFlags := hflags
        rw [hdevice] at hreply
        rw [hflags] at hframe
        obtain rfl : body = packed ++ Voltronic.crcWrite (Voltronic.crcCalculate packed) :=
          (List.append_inj' hframe rfl).1
        rw [P18.respond_packed inv hv hp] at hreply
        exact replyFrame_inj hreply

theorem transaction_of_performed {r : P18.Response} (h : Performed m st r) :
    ∃ t, transaction m st = some t ∧ t.Returned r.payload := by
  obtain ⟨packed, n, hp, hrun, hrecv, hdecode⟩ := device_of_performed h
  refine ⟨runOf st packed, transaction_eq_some.mpr ⟨h.1, packed, hp, rfl⟩, ?_⟩
  obtain ⟨-, -, heq⟩ := st.1.device.run_ret hrun
  show (st.1.device.run st.2.env.device packed st.2.env.buffer.1).outcome >>= (fun n =>
    pure ((st.1.device.run st.2.env.device packed st.2.env.buffer.1).outbuf.take n)) = _
  rw [heq, Outcome.ret_bind, P18.payload_of_decodeResponse hdecode]
  rfl

/-- **Calls on an idle link**: the inverter is where the orders leave it, and the link is idle. -/
theorem linkAfter_run {run : List (Server × Call)} (hl : l.Idle 0)
    (hflags : ∀ st ∈ run, st.1.device.flags = defaultFlags)
    (hvalid : ∀ st ∈ run, ∃ command argv,
      validateInput m (getArgs argv) command = .ok (st.2.command, st.2.arguments))
    (h : ∀ p ∈ trace (linkAfter inv.peer m) l run, Served inv m p.1 p.2) :
    let far := run.foldl (linkAfter inv.peer m) l
    far.state = (orders m run).foldl inv.after l.state ∧ far.Idle 0 := by
  induction run generalizing l with
  | nil => exact ⟨rfl, hl⟩
  | cons st run ih =>
      obtain ⟨hflag, hflags⟩ := List.forall_mem_cons.mp hflags
      obtain ⟨hv, hvalid⟩ := List.forall_mem_cons.mp hvalid
      obtain ⟨hserved, hrest⟩ := List.forall_mem_cons.mp h
      obtain ⟨⟨hnext, hidle⟩, -⟩ := linkAfter_of_served hflag hv hl hserved
      obtain ⟨hstate, hend⟩ := ih hidle hflags hvalid hrest
      have horders : orders m (st :: run) = orders m [st] ++ orders m run := orders_append [st] run
      rw [horders, List.foldl_append, ← hnext]
      exact ⟨hstate, hend⟩

/-- **An answer is the inverter's own**, to this order, behind the orders of the calls before. -/
theorem answer_of_performed {before after : List (Server × Call)} {r : P18.Response}
    (hl : l.Idle 0) (hflags : ∀ st' ∈ before ++ st :: after, st'.1.device.flags = defaultFlags)
    (hvalid : ∀ st' ∈ before ++ st :: after, ∃ command argv,
      validateInput m (getArgs argv) command = .ok (st'.2.command, st'.2.arguments))
    (h : ∀ p ∈ trace (linkAfter inv.peer m) l (before ++ st :: after), Served inv m p.1 p.2)
    (hr : Performed m st r) :
    r.payload = inv.answer ((orders m before).foldl inv.after l.state) (order m st) ∧
      st.1.device.Delivers 256 st.2.env.device.reads := by
  rw [trace_append, trace_cons] at h
  obtain ⟨hbefore, hrest⟩ := List.forall_mem_append.mp h
  obtain ⟨hserved, -⟩ := List.forall_mem_cons.mp hrest
  obtain ⟨hflags, hflags'⟩ := List.forall_mem_append.mp hflags
  obtain ⟨hvalid, hvalid'⟩ := List.forall_mem_append.mp hvalid
  obtain ⟨hstate, hidle⟩ := linkAfter_run hl hflags hvalid hbefore
  obtain ⟨t, ht, hret⟩ := transaction_of_performed hr
  have hanswer := (linkAfter_of_served (hflags' st List.mem_cons_self)
    (hvalid' st List.mem_cons_self) hidle hserved).2 t _ ht hret
  rw [hstate] at hanswer
  refine ⟨hanswer, ?_⟩
  have hdelivers := (hserved.possible t ht).delivers
  obtain ⟨-, packed, -, rfl⟩ := transaction_eq_some.mp ht
  have hroom : (runOf st packed).request.buffer.length = 256 := st.2.env.buffer.2
  rwa [hroom] at hdelivers

end

end InverterTools.Server

namespace InverterTools.Connection

open Formatter (JsonDump)
open P18 (CommandType Inverter Kept Machine Says getArgs parameters sentParameters typed
  validateInput)
open Server (AsTyped Call Clocked Performed Sent Served callsOf linkAfter orders react)
open Voltronic (defaultFlags)

section

variable {ι : Type} [DecidableEq ι] {J : JsonDump} {m : Machine}

omit [DecidableEq ι] in
theorem valid_of_called {p : Daemon ι × Move ι} {st : Server × Call} (h : called m p = some st) :
    ∃ command argv,
      validateInput m (getArgs argv) command = .ok (st.2.command, st.2.arguments) := by
  obtain ⟨d, move⟩ := p
  cases move with
  | accept i => cases h
  | close i => cases h
  | signal => cases h
  | request i x t =>
      cases hopen : d.options i with
      | none => simp [called, happened, hopen] at h
      | some options =>
          cases hrequest : requested m x.buf with
          | none => simp [called, happened, hopen, hrequest] at h
          | some command =>
              obtain ⟨c, args⟩ := command
              simp only [called, happened, hopen, hrequest, Option.some.injEq] at h
              subst h
              obtain ⟨arguments, -, hinput⟩ := requested_eq_some hrequest
              obtain ⟨-, -, hvalid⟩ := bind_eq_ok.mp hinput
              exact ⟨_, _, hvalid⟩

omit [DecidableEq ι] in
theorem calls_eq (run : List (Daemon ι × Move ι)) :
    calls m run = callsOf (run.filterMap (happened m)) := by
  rw [calls, callsOf, List.filterMap_filterMap]
  congr 1
  funext p
  unfold called
  cases happened m p with
  | none => rfl
  | some q =>
      obtain ⟨s, event⟩ := q
      cases event with
      | call call => rfl
      | signal => rfl

theorem calls_daemon (s : Server) (moves : List (Move ι)) :
    ∀ st ∈ calls m (trace (step J m) (daemon ι s) moves), st.1.device = s.device ∧
      ∃ command argv,
        validateInput m (getArgs argv) command = .ok (st.2.command, st.2.arguments) := by
  intro st hst
  constructor
  · obtain ⟨hrun, -⟩ := trace_part (step J m) (daemon ι s) moves
      fun p _ => @server_step ι _ J m p.1 p.2
    rw [calls_eq, hrun] at hst
    exact (Server.device_run m s _).1 st hst
  · obtain ⟨p, -, hp⟩ := List.mem_filterMap.mp hst
    exact valid_of_called hp

theorem served_askMode {server : Server} (hdevice : server.device = Server.started.device) :
    Served P18.hybridCounter P18.x86 ⟨0, [], []⟩ (server, askMode.2) := by
  have hpacked : P18.packRequest P18.x86 .getWorkingMode [] = .ok (ascii "^P006MOD") := by
    decide
  have htransaction {t : Transaction}
      (ht : Server.transaction P18.x86 (server, askMode.2) = some t) :
      t = Server.runOf askMode (ascii "^P006MOD") := by
    obtain ⟨-, packed, hp, rfl⟩ := Server.transaction_eq_some.mp ht
    obtain rfl := Except.ok.inj (hpacked.symm.trans hp)
    rw [Server.runOf, hdevice]
    rfl
  have hdelivers : askMode.1.device.Delivers 256 askMode.2.env.device.reads :=
    .inr ⟨by decide, by decide, .inr ⟨by decide, by decide, .inr ⟨by decide, by decide, trivial⟩⟩⟩
  constructor
  · exact fun arg harg => absurd harg List.not_mem_nil
  · rw [hdevice]
    exact Server.answeredAt_exact 100 _
  · intro t ht
    rw [htransaction ht]
    constructor
    · have hroom : (Server.runOf askMode (ascii "^P006MOD")).request.buffer.length = 256 :=
        askMode.2.env.buffer.2
      rw [hroom]
      exact hdelivers
    · decide +kernel
  · intro t ht
    rw [htransaction ht]
    refine .inl ⟨ascii "^D00505", ?_⟩
    show (Server.runOf askMode (ascii "^P006MOD")).exec.outcome = _
    decide +kernel

end

end InverterTools.Connection
