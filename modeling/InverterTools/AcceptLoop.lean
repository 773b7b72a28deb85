import Mathlib.Data.Finset.Basic
import InverterTools.Lib.Trace

/-! # Connections and the accept loop (`Server::start`, `server/server.cc`)

The accept loop constructs a `Connection`, whose constructor starts its thread, and then registers
it with `addConnection`; the thread ends with `delete this`, and the destructor calls
`removeConnection`.  These are the atomic steps, in any order that the two sides allow: a step that
is not possible in a state changes nothing there.  Connections are addresses, which can be used
again after the object is gone. -/

namespace InverterTools.AcceptLoop

variable {α : Type} [DecidableEq α]

/-- The objects that exist, `connections_`, and the one that is constructed but not registered yet;
without one the loop waits in `accept`. -/
structure State (α : Type) where
  live : Finset α
  connections : List α
  pending : Option α
deriving DecidableEq

/-- The steps. -/
inductive Step (α : Type) where
  | construct (conn : α)
  | register
  | finish (conn : α)
deriving DecidableEq, Repr

/-- `Server::addConnection`. -/
def addConnection (connections : List α) (conn : α) : List α := connections ++ [conn]

/-- `Server::removeConnection`. -/
def removeConnection (connections : List α) (conn : α) : List α :=
  connections.filter (fun c => c ≠ conn)

/-- What a step does. -/
def step (s : State α) : Step α → State α
  | .construct conn =>
      if s.pending = none ∧ conn ∉ s.live then
        { s with live := insert conn s.live, pending := some conn }
      else s
  | .register => match s.pending with
      | none => s
      | some conn => { s with connections := addConnection s.connections conn, pending := none }
  | .finish conn =>
      if conn ∈ s.live then
        { s with live := s.live.erase conn, connections := removeConnection s.connections conn }
      else s

/-- No connections, and the loop waits. -/
def start : State α := ⟨∅, [], none⟩

/-- While the loop waits, the list has every object once and nothing else. -/
def Listed (s : State α) : Prop :=
  s.pending = none → ∀ conn, s.connections.count conn = if conn ∈ s.live then 1 else 0

/-- `addConnection` is called on an object that exists. -/
def RegistersLive (p : State α × Step α) : Prop :=
  p.2 = .register → ∀ conn, p.1.pending = some conn → conn ∈ p.1.live

/-- No thread ends before its connection is registered. -/
def AwaitsRegister (p : State α × Step α) : Prop :=
  ∀ conn ∈ p.1.live, p.2 = .finish conn → p.1.pending ≠ some conn

instance (p : State α × Step α) : Decidable (AwaitsRegister p) :=
  inferInstanceAs (Decidable (∀ conn ∈ p.1.live, _ → _))

/-- The invariant: the unregistered object exists, and the list has all the others. -/
structure Inv (s : State α) : Prop where
  pending_live : ∀ conn, s.pending = some conn → conn ∈ s.live
  count_eq : ∀ conn, s.connections.count conn =
    if conn ∈ s.live ∧ s.pending ≠ some conn then 1 else 0

theorem count_addConnection (connections : List α) (conn c : α) :
    (addConnection connections conn).count c = connections.count c + if c = conn then 1 else 0 := by
  rw [addConnection, List.count_append, List.count_singleton]
  by_cases hc : c = conn
  · simp [hc]
  · simp [hc, Ne.symm hc]

theorem count_removeConnection (connections : List α) (conn c : α) :
    (removeConnection connections conn).count c = if c = conn then 0 else connections.count c := by
  unfold removeConnection
  by_cases hc : c = conn
  · rw [if_pos hc, List.count_eq_zero]
    simp [hc]
  · rw [if_neg hc, List.count_filter (by simpa using hc)]

theorem Inv.listed {s : State α} (h : Inv s) : Listed s := by
  intro hwaiting conn
  rw [h.count_eq conn, hwaiting]
  simp

theorem inv_construct {s : State α} (h : Inv s) (conn : α) : Inv (step s (.construct conn)) := by
  simp only [step]
  split_ifs with hnew
  · constructor
    · intro c hc
      obtain rfl := Option.some.inj hc
      exact Finset.mem_insert_self conn s.live
    · intro c
      rw [h.count_eq c, hnew.1]
      by_cases hc : c = conn
      · simp [hc, hnew.2]
      · simp [hc, Ne.symm hc]
  · exact h

theorem inv_register {s : State α} (h : Inv s) : Inv (step s .register) := by
  simp only [step]
  cases hp : s.pending with
  | none => exact h
  | some conn =>
      constructor
      · intro c hc
        cases hc
      · intro c
        simp only
        rw [count_addConnection, h.count_eq c, hp]
        by_cases hc : c = conn
        · simp [hc, h.pending_live conn hp]
        · simp [hc, Ne.symm hc]

theorem inv_finish {s : State α} (h : Inv s) {conn : α}
    (hawaits : AwaitsRegister (s, .finish conn)) : Inv (step s (.finish conn)) := by
  simp only [step]
  split_ifs with hlive
  · have hother := hawaits conn hlive rfl
    constructor
    · intro c hc
      refine Finset.mem_erase.mpr ⟨?_, h.pending_live c hc⟩
      rintro rfl
      exact hother hc
    · intro c
      simp only
      rw [count_removeConnection, h.count_eq c]
      by_cases hc : c = conn
      · simp [hc]
      · simp [hc]
  · exact h

theorem inv_step {s : State α} (h : Inv s) (e : Step α) (hawaits : AwaitsRegister (s, e)) :
    Inv (step s e) := by
  cases e with
  | construct conn => exact inv_construct h conn
  | register => exact inv_register h
  | finish conn => exact inv_finish h hawaits

/-- Once the unregistered object is gone, it is registered all the same. -/
theorem registers_dead {steps : List (Step α)} {s : State α} {conn : α}
    (hpending : s.pending = some conn) (hdead : conn ∉ s.live)
    (hend : (steps.foldl step s).pending = none) :
    ∃ p ∈ trace step s steps, ¬ RegistersLive p := by
  induction steps generalizing s with
  | nil =>
      rw [List.foldl_nil, hpending] at hend
      cases hend
  | cons e steps ih =>
      rw [List.foldl_cons] at hend
      have hnext (h1 : (step s e).pending = some conn) (h2 : conn ∉ (step s e).live) :
          ∃ p ∈ trace step s (e :: steps), ¬ RegistersLive p := by
        obtain ⟨p, hp, hbad⟩ := ih h1 h2 hend
        exact ⟨p, List.mem_cons_of_mem _ hp, hbad⟩
      cases e with
      | construct c =>
          apply hnext
          · simp [step, hpending]
          · simpa [step, hpending] using hdead
      | register =>
          refine ⟨(s, .register), List.mem_cons_self, ?_⟩
          intro h
          exact hdead (h rfl conn hpending)
      | finish c =>
          apply hnext
          · simp only [step]
            split_ifs <;> exact hpending
          · simp only [step]
            split_ifs
            · exact fun h => hdead (Finset.mem_of_mem_erase h)
            · exact hdead

/-- **The list of connections.**  In every run in which no thread ends before its connection is
registered, `addConnection` is only called on objects that exist, and whenever the loop waits in
`accept`, `connections_` has every existing object once and nothing else.  Conversely, if
`addConnection` is only called on objects that exist in a run that ends in `accept`, then no thread
of it has ended before its connection was registered. -/
theorem connections_listed (steps : List (Step α)) :
    let run := trace step start steps
    ((∀ p ∈ run, AwaitsRegister p) →
        (∀ p ∈ run, Listed p.1 ∧ RegistersLive p) ∧ Listed (steps.foldl step start)) ∧
      ((steps.foldl step start).pending = none → (∀ p ∈ run, RegistersLive p) →
        ∀ p ∈ run, AwaitsRegister p) := by
  have hstart : Inv (start : State α) := ⟨by simp [start], by simp [start]⟩
  refine ⟨fun hawaits => ?_, fun hend hlive p hp conn hconn hfinish hpending => ?_⟩
  · obtain ⟨hall, hlast⟩ := trace_invariant_of step (fun s e hs he => inv_step hs e he) steps
      hstart hawaits
    refine ⟨fun p hp => ⟨(hall p hp).listed, ?_⟩, hlast.listed⟩
    intro _ conn hpending
    exact (hall p hp).pending_live conn hpending
  · obtain ⟨before, after, hsteps, hstate⟩ := exists_of_mem_trace step hp
    rw [hsteps, List.foldl_append, List.foldl_cons, ← hstate] at hend
    have hgone : (step p.1 p.2).pending = some conn ∧ conn ∉ (step p.1 p.2).live := by
      rw [hfinish]
      simp [step, hconn, hpending]
    obtain ⟨q, hq, hdead⟩ := registers_dead hgone.1 hgone.2 hend
    refine hdead (hlive q ?_)
    rw [hsteps, trace_append, trace_cons, ← hstate]
    exact List.mem_append_right _ (List.mem_cons_of_mem _ hq)

/-- Three connections, one of which ends while another one is not registered yet; its address is
used again. -/
theorem connections_listed_address_reused :
    let steps : List (Step ℕ) := [.construct 0, .register, .construct 1, .register, .construct 2,
      .finish 0, .register, .construct 0, .register]
    ((∀ p ∈ trace step start steps, Listed p.1 ∧ RegistersLive p) ∧
      Listed (steps.foldl step start)) ∧ (steps.foldl step start).connections = [1, 2, 0] :=
  ⟨(connections_listed _).1 (by decide), rfl⟩

/-- A thread that ends at once: its connection is registered after it has been destroyed, and stays
in the list. -/
theorem connections_stale : ¬ ∀ (α : Type) [DecidableEq α] (steps : List (Step α)),
    (∀ p ∈ trace step start steps, Listed p.1 ∧ RegistersLive p) ∧
      Listed (steps.foldl step start) := by
  intro h
  have hlisted := (h ℕ [.construct 0, .finish 0, .register]).2 rfl 0
  exact absurd hlisted (by decide)

end InverterTools.AcceptLoop
