import InverterTools.Lib.Trace

/-! # Sections of code under one lock

Threads call operations.  The body of an operation runs under a lock, in atomic steps on a shared
state; the steps of different threads come in any order, and between them the state can be disturbed
from outside, by something that no body looks at (`Body.Tolerates`).  A thread inside does not look
at the lock again: that there is never more than one is a result (`serial`), not part of the steps.

The log lists the calls that are over and the disturbances, in the order in which they came.
`serial` says that the calls have ended as they do one after the other in that order, each in one
piece, and that the state is the one they leave, with a part of the next call in it when a thread
is inside.  `comes_free` says that a thread whose body has an end can always reach it. -/

namespace InverterTools.Critical

/-- What a thread has still to do under the lock: nothing, with this result; a step; or to wait for
something that does not come. -/
inductive Body (σ ρ : Type) where
  | done (r : ρ)
  | stuck
  | step (act : σ → σ) (rest : σ → Body σ ρ)

namespace Body

variable {σ ρ : Type}

/-- The body in one piece: the result, if there is one, and the state. -/
def run : Body σ ρ → σ → Option ρ × σ
  | done r, s => (some r, s)
  | stuck, s => (none, s)
  | step act rest, s => (rest s).run (act s)

/-- The first steps of the body: what is left of it, and the state. -/
def first : ℕ → Body σ ρ → σ → Body σ ρ × σ
  | n + 1, step act rest, s => first n (rest s) (act s)
  | _, b, s => (b, s)

/-- The body does not see whether `f` has happened. -/
def Tolerates (f : σ → σ) : Body σ ρ → Prop
  | done _ => True
  | stuck => True
  | step act rest => ∀ s, act (f s) = f (act s) ∧ rest (f s) = rest s ∧ (rest s).Tolerates f

/-- Every step keeps to a relation. -/
def Keeps (R : σ → σ → Prop) : Body σ ρ → Prop
  | done _ => True
  | stuck => True
  | step act rest => ∀ s, R s (act s) ∧ (rest s).Keeps R

@[simp] theorem run_done (r : ρ) (s : σ) : (done r).run s = (some r, s) := rfl

@[simp] theorem run_step (act : σ → σ) (rest : σ → Body σ ρ) (s : σ) :
    (step act rest).run s = (rest s).run (act s) := rfl

@[simp] theorem first_zero (b : Body σ ρ) (s : σ) : b.first 0 s = (b, s) := by cases b <;> rfl

theorem first_succ {act : σ → σ} {rest : σ → Body σ ρ} {s' : σ} : ∀ {n : ℕ} {b : Body σ ρ} {s : σ},
    b.first n s = (step act rest, s') → b.first (n + 1) s = (rest s', act s')
  | 0, b, s, h => by
      rw [first_zero] at h
      obtain ⟨rfl, rfl⟩ := Prod.mk.inj h
      exact first_zero _ _
  | n + 1, step act' rest', s, h => first_succ (b := rest' s) h
  | n + 1, done r, s, h => by cases h
  | n + 1, stuck, s, h => by cases h

/-- The first steps and what is left make up the whole. -/
theorem run_first : ∀ (n : ℕ) (b : Body σ ρ) (s : σ),
    (b.first n s).1.run (b.first n s).2 = b.run s
  | 0, b, s => by rw [first_zero]
  | n + 1, done r, s => rfl
  | n + 1, stuck, s => rfl
  | n + 1, step act rest, s => run_first n (rest s) (act s)

theorem exists_first_of_run {r : ρ} {s' : σ} : ∀ {b : Body σ ρ} {s : σ},
    b.run s = (some r, s') → ∃ n, b.first n s = (done r, s')
  | done r', s, h => by
      obtain ⟨hr, rfl⟩ := Prod.mk.inj h
      obtain rfl := Option.some.inj hr
      exact ⟨0, rfl⟩
  | stuck, s, h => by cases h
  | step act rest, s, h => by
      obtain ⟨n, hn⟩ := exists_first_of_run (b := rest s) h
      exact ⟨n + 1, hn⟩

theorem Tolerates.first_eq {f : σ → σ} : ∀ (n : ℕ) {b : Body σ ρ}, b.Tolerates f → ∀ s : σ,
    b.first n (f s) = ((b.first n s).1, f (b.first n s).2)
  | 0, b, _, s => by rw [first_zero, first_zero]
  | n + 1, done r, _, s => rfl
  | n + 1, stuck, _, s => rfl
  | n + 1, step act rest, h, s => by
      obtain ⟨hact, hrest, htail⟩ := h s
      show (rest (f s)).first n (act (f s)) = _
      rw [hact, hrest]
      exact htail.first_eq n (act s)

theorem Keeps.first_rel {R : σ → σ → Prop} (hrefl : ∀ s, R s s)
    (htrans : ∀ s t u, R s t → R t u → R s u) : ∀ (n : ℕ) {b : Body σ ρ}, b.Keeps R → ∀ s : σ,
      R s (b.first n s).2 ∧ (b.first n s).1.Keeps R
  | 0, b, h, s => by
      rw [first_zero]
      exact ⟨hrefl s, h⟩
  | n + 1, done r, h, s => ⟨hrefl s, h⟩
  | n + 1, stuck, h, s => ⟨hrefl s, h⟩
  | n + 1, step act rest, h, s => by
      obtain ⟨hact, htail⟩ := h s
      obtain ⟨hrel, hkeeps⟩ := htail.first_rel hrefl htrans n (act s)
      exact ⟨htrans _ _ _ hact hrel, hkeeps⟩

theorem Keeps.run_rel {R : σ → σ → Prop} (hrefl : ∀ s, R s s)
    (htrans : ∀ s t u, R s t → R t u → R s u) : ∀ {b : Body σ ρ}, b.Keeps R → ∀ s : σ,
      R s (b.run s).2
  | done r, _, s => hrefl s
  | stuck, _, s => hrefl s
  | step act rest, h, s => by
      obtain ⟨hact, htail⟩ := h s
      exact htrans _ _ _ hact (htail.run_rel hrefl htrans (act s))

/-- The state on the way lies between the first and the last. -/
theorem Keeps.between {R : σ → σ → Prop} (hrefl : ∀ s, R s s)
    (htrans : ∀ s t u, R s t → R t u → R s u) {b rest : Body σ ρ} (h : b.Keeps R) {n : ℕ} {s t : σ}
    (hfirst : b.first n s = (rest, t)) : R s t ∧ R t (b.run s).2 := by
  have hrel := h.first_rel hrefl htrans n s
  rw [hfirst] at hrel
  have hrun := run_first n b s
  rw [hfirst] at hrun
  rw [← hrun]
  exact ⟨hrel.1, hrel.2.run_rel hrefl htrans t⟩

end Body

/-- Where a thread is. -/
inductive Phase (κ σ ρ : Type) where
  | outside
  | waiting (c : κ)
  | inside (c : κ) (rest : Body σ ρ)

/-- The thread is inside. -/
def Phase.Inside {κ σ ρ : Type} (p : Phase κ σ ρ) : Prop := ∃ c rest, p = .inside c rest

/-- A call that is over, with its result, or a disturbance. -/
inductive Event (ι κ ε ρ : Type) where
  | called (i : ι) (c : κ) (r : ρ)
  | disturbed (e : ε)

/-- The shared state, the lock, the threads, and what has happened. -/
structure State (ι κ ε σ ρ : Type) where
  shared : σ
  locked : Bool
  phase : ι → Phase κ σ ρ
  log : List (Event ι κ ε ρ)

/-- An atomic step. -/
inductive Step (ι κ ε : Type) where
  | call (i : ι) (c : κ)
  | acquire (i : ι)
  | advance (i : ι)
  | release (i : ι)
  | disturb (e : ε)

section

variable {ι κ ε σ ρ : Type} (body : κ → Body σ ρ) (disturb : ε → σ → σ)

/-- What an event does to the state when calls are run in one piece. -/
def after (s : σ) : Event ι κ ε ρ → σ
  | .called _ c _ => ((body c).run s).2
  | .disturbed e => disturb e s

/-- The state after the events of a log. -/
def replay (s : σ) (log : List (Event ι κ ε ρ)) : σ := log.foldl (after body disturb) s

/-- Every call of the log has ended as it does in one piece, behind the events before it. -/
def Answered (s : σ) (log : List (Event ι κ ε ρ)) : Prop :=
  ∀ p ∈ trace (after body disturb) s log, ∀ i c r, p.2 = .called i c r →
    ((body c).run p.1).1 = some r

/-- Who is inside: nobody, and the state is that of the log; or one thread, which has made its first
steps from there. -/
inductive Held (s₀ : σ) (s : State ι κ ε σ ρ) : Prop where
  | free (hlocked : s.locked = false) (hphase : ∀ i, ¬ (s.phase i).Inside)
      (hshared : s.shared = replay body disturb s₀ s.log)
  | inside (i : ι) (c : κ) (rest : Body σ ρ) (n : ℕ) (hlocked : s.locked = true)
      (hphase : s.phase i = .inside c rest) (hothers : ∀ j, j ≠ i → ¬ (s.phase j).Inside)
      (hfirst : (body c).first n (replay body disturb s₀ s.log) = (rest, s.shared))

variable {body disturb} {s₀ : σ} {s : State ι κ ε σ ρ} {log : List (Event ι κ ε ρ)}

theorem not_inside_outside : ¬ (Phase.outside : Phase κ σ ρ).Inside := by
  rintro ⟨c, rest, h⟩
  cases h

theorem not_inside_waiting (c : κ) : ¬ (Phase.waiting c : Phase κ σ ρ).Inside := by
  rintro ⟨c', rest, h⟩
  cases h

theorem Held.unique (h : Held body disturb s₀ s) {i j : ι} (hi : (s.phase i).Inside)
    (hj : (s.phase j).Inside) : i = j := by
  cases h with
  | free hlocked hphase => exact absurd hi (hphase i)
  | inside k c rest n hlocked hphase hothers hfirst =>
      have hik : i = k := by
        by_contra hne
        exact hothers i hne hi
      have hjk : j = k := by
        by_contra hne
        exact hothers j hne hj
      rw [hik, hjk]

theorem Held.of_inside (h : Held body disturb s₀ s) {i : ι} {c : κ} {rest : Body σ ρ}
    (hi : s.phase i = .inside c rest) : s.locked = true ∧ (∀ j, j ≠ i → ¬ (s.phase j).Inside) ∧
      ∃ n, (body c).first n (replay body disturb s₀ s.log) = (rest, s.shared) := by
  cases h with
  | free hlocked hphase => exact absurd ⟨c, rest, hi⟩ (hphase i)
  | inside k c' rest' n hlocked hphase hothers hfirst =>
      have hik : i = k := by
        by_contra hne
        exact hothers i hne ⟨c, rest, hi⟩
      subst hik
      obtain ⟨rfl, rfl⟩ := Phase.inside.inj (hi.symm.trans hphase)
      exact ⟨hlocked, hothers, n, hfirst⟩

theorem replay_append (s : σ) (log : List (Event ι κ ε ρ)) (e : Event ι κ ε ρ) :
    replay body disturb s (log ++ [e]) = after body disturb (replay body disturb s log) e := by
  rw [replay, List.foldl_append]
  rfl

theorem answered_append (h : Answered body disturb s₀ log) {e : Event ι κ ε ρ}
    (he : ∀ i c r, e = .called i c r → ((body c).run (replay body disturb s₀ log)).1 = some r) :
    Answered body disturb s₀ (log ++ [e]) := by
  intro p hp
  rw [trace_append, List.mem_append] at hp
  rcases hp with hp | hp
  · exact h p hp
  · obtain rfl := List.mem_singleton.mp hp
    exact he

end

variable {ι κ ε σ ρ : Type} [DecidableEq ι] (body : κ → Body σ ρ) (disturb : ε → σ → σ)

/-- What a step does; one that is not possible changes nothing. -/
def step (s : State ι κ ε σ ρ) : Step ι κ ε → State ι κ ε σ ρ
  | .call i c => match s.phase i with
      | .outside => { s with phase := Function.update s.phase i (.waiting c) }
      | _ => s
  | .acquire i => match s.phase i, s.locked with
      | .waiting c, false =>
          { s with locked := true, phase := Function.update s.phase i (.inside c (body c)) }
      | _, _ => s
  | .advance i => match s.phase i with
      | .inside c (.step act rest) =>
          { s with shared := act s.shared,
                   phase := Function.update s.phase i (.inside c (rest s.shared)) }
      | _ => s
  | .release i => match s.phase i with
      | .inside c (.done r) =>
          { s with locked := false, phase := Function.update s.phase i .outside,
                   log := s.log ++ [.called i c r] }
      | _ => s
  | .disturb e => { s with shared := disturb e s.shared, log := s.log ++ [.disturbed e] }

/-- What a step can do. -/
inductive Moves (s : State ι κ ε σ ρ) : Step ι κ ε → State ι κ ε σ ρ → Prop where
  | still (a : Step ι κ ε) : Moves s a s
  | called (i : ι) (c : κ) (hi : s.phase i = .outside) :
      Moves s (.call i c) { s with phase := Function.update s.phase i (.waiting c) }
  | acquired (i : ι) (c : κ) (hi : s.phase i = .waiting c) (hlocked : s.locked = false) :
      Moves s (.acquire i)
        { s with locked := true, phase := Function.update s.phase i (.inside c (body c)) }
  | advanced (i : ι) (c : κ) (act : σ → σ) (rest : σ → Body σ ρ)
      (hi : s.phase i = .inside c (.step act rest)) :
      Moves s (.advance i) { s with
        shared := act s.shared, phase := Function.update s.phase i (.inside c (rest s.shared)) }
  | released (i : ι) (c : κ) (r : ρ) (hi : s.phase i = .inside c (.done r)) :
      Moves s (.release i) { s with
        locked := false, phase := Function.update s.phase i .outside,
        log := s.log ++ [.called i c r] }
  | disturbed (e : ε) : Moves s (.disturb e)
      { s with shared := disturb e s.shared, log := s.log ++ [.disturbed e] }

theorem step_moves (s : State ι κ ε σ ρ) (a : Step ι κ ε) :
    Moves body disturb s a (step body disturb s a) := by
  cases a with
  | call i c =>
      cases hi : s.phase i with
      | outside => simpa only [step, hi] using .called i c hi
      | waiting c' => simpa only [step, hi] using .still _
      | inside c' rest => simpa only [step, hi] using .still _
  | acquire i =>
      cases hi : s.phase i with
      | outside => simpa only [step, hi] using .still _
      | inside c rest => simpa only [step, hi] using .still _
      | waiting c =>
          cases hlocked : s.locked with
          | true => simpa only [step, hi, hlocked] using .still _
          | false => simpa only [step, hi, hlocked] using .acquired i c hi hlocked
  | advance i =>
      cases hi : s.phase i with
      | outside => simpa only [step, hi] using .still _
      | waiting c => simpa only [step, hi] using .still _
      | inside c rest =>
          cases rest with
          | done r => simpa only [step, hi] using .still _
          | stuck => simpa only [step, hi] using .still _
          | step act rest => simpa only [step, hi] using .advanced i c act rest hi
  | release i =>
      cases hi : s.phase i with
      | outside => simpa only [step, hi] using .still _
      | waiting c => simpa only [step, hi] using .still _
      | inside c rest =>
          cases rest with
          | done r => simpa only [step, hi] using .released i c r hi
          | stuck => simpa only [step, hi] using .still _
          | step act rest => simpa only [step, hi] using .still _
  | disturb e => exact .disturbed e

/-- Nobody has called yet. -/
def start (s : σ) : State ι κ ε σ ρ := ⟨s, false, fun _ => .outside, []⟩

section

variable {body disturb} {s₀ : σ} {s : State ι κ ε σ ρ} {log : List (Event ι κ ε ρ)}

theorem not_inside_update {phase : ι → Phase κ σ ρ} {i j : ι} {p : Phase κ σ ρ}
    (hp : ¬ p.Inside) (h : j ≠ i → ¬ (phase j).Inside) :
    ¬ (Function.update phase i p j).Inside := by
  by_cases hj : j = i
  · rwa [hj, Function.update_self]
  · rw [Function.update_of_ne hj]
    exact h hj

theorem not_inside_update_of_ne {phase : ι → Phase κ σ ρ} {i j : ι} {p : Phase κ σ ρ} (hj : j ≠ i)
    (h : ¬ (phase j).Inside) : ¬ (Function.update phase i p j).Inside := by
  rwa [Function.update_of_ne hj]

theorem held_update (h : Held body disturb s₀ s) {i : ι} {p : Phase κ σ ρ}
    (hi : ¬ (s.phase i).Inside) (hp : ¬ p.Inside) :
    Held body disturb s₀ { s with phase := Function.update s.phase i p } := by
  cases h with
  | free hlocked hphase hshared =>
      exact .free hlocked (fun j => not_inside_update hp fun _ => hphase j) hshared
  | inside k c rest n hlocked hphase hothers hfirst =>
      have hne : k ≠ i := by
        rintro rfl
        exact hi ⟨c, rest, hphase⟩
      refine .inside k c rest n hlocked ?_ (fun j hj => ?_) hfirst
      · exact (Function.update_of_ne hne _ _).trans hphase
      · exact not_inside_update hp fun _ => hothers j hj

/-- Every step keeps `Held`. -/
theorem held_moves (htolerant : ∀ c e, (body c).Tolerates (disturb e))
    (h : Held body disturb s₀ s) {a : Step ι κ ε} {t : State ι κ ε σ ρ}
    (hmoves : Moves body disturb s a t) : Held body disturb s₀ t := by
  cases hmoves with
  | still => exact h
  | called i c hi =>
      apply held_update h _ (not_inside_waiting c)
      rw [hi]
      exact not_inside_outside
  | acquired i c hi hlocked =>
      cases h with
      | inside k c' rest n hlocked' =>
          rw [hlocked] at hlocked'
          cases hlocked'
      | free _ hphase hshared =>
          refine .inside i c (body c) 0 rfl (Function.update_self i _ _) 
            (fun j hj => not_inside_update_of_ne hj (hphase j)) ?_
          rw [Body.first_zero, hshared]
  | advanced i c act rest hi =>
      obtain ⟨hlocked, hothers, n, hfirst⟩ := h.of_inside hi
      exact .inside i c (rest s.shared) (n + 1) hlocked (Function.update_self i _ _)
        (fun j hj => not_inside_update_of_ne hj (hothers j hj)) (Body.first_succ hfirst)
  | released i c r hi =>
      obtain ⟨hlocked, hothers, n, hfirst⟩ := h.of_inside hi
      refine .free rfl (fun j => not_inside_update not_inside_outside (hothers j)) ?_
      have hrun := Body.run_first n (body c) (replay body disturb s₀ s.log)
      rw [hfirst] at hrun
      rw [replay_append]
      exact congrArg Prod.snd hrun
  | disturbed e =>
      cases h with
      | free hlocked hphase hshared =>
          refine .free hlocked hphase ?_
          rw [replay_append, ← hshared]
          rfl
      | inside i c rest n hlocked hphase hothers hfirst =>
          refine .inside i c rest n hlocked hphase hothers ?_
          rw [replay_append]
          show (body c).first n (disturb e (replay body disturb s₀ s.log)) = _
          rw [(htolerant c e).first_eq, hfirst]

/-- A call that is over has ended as it does in one piece. -/
theorem answered_moves (h : Held body disturb s₀ s) (hlog : Answered body disturb s₀ s.log)
    {a : Step ι κ ε} {t : State ι κ ε σ ρ} (hmoves : Moves body disturb s a t) :
    Answered body disturb s₀ t.log := by
  cases hmoves with
  | still => exact hlog
  | called i c hi => exact hlog
  | acquired i c hi hlocked => exact hlog
  | advanced i c act rest hi => exact hlog
  | released i c r hi =>
      apply answered_append hlog
      intro i' c' r' he
      obtain ⟨-, rfl, rfl⟩ := Event.called.inj he
      obtain ⟨-, -, n, hfirst⟩ := h.of_inside hi
      have hrun := Body.run_first n (body c) (replay body disturb s₀ s.log)
      rw [hfirst] at hrun
      exact (congrArg Prod.fst hrun).symm
  | disturbed e =>
      apply answered_append hlog
      intro i c r he
      cases he

/-- **Calls under a lock come one after the other.**  After any steps of any threads, there is one
thread inside at most; every call that is over has ended as it does in one piece, in the order of
the log; and the shared state is that of the log, or the thread inside has made its first steps
from there. -/
theorem serial (htolerant : ∀ c e, (body c).Tolerates (disturb e)) (s₀ : σ)
    (steps : List (Step ι κ ε)) :
    let s := steps.foldl (step body disturb) (start s₀ : State ι κ ε σ ρ)
    Held body disturb s₀ s ∧ Answered body disturb s₀ s.log := by
  have hstart : Held body disturb s₀ (start s₀ : State ι κ ε σ ρ) ∧
      Answered body disturb s₀ (start s₀ : State ι κ ε σ ρ).log := by
    refine ⟨.free rfl (fun _ => not_inside_outside) rfl, ?_⟩
    intro p hp
    cases hp
  refine List.foldlRecOn
    (motive := fun s => Held body disturb s₀ s ∧ Answered body disturb s₀ s.log)
    steps _ hstart fun s h a _ => ?_
  have hmoves := step_moves body disturb s a
  exact ⟨held_moves htolerant h.1 hmoves, answered_moves h.1 h.2 hmoves⟩

theorem acquire_free {i : ι} {c : κ} (hlocked : s.locked = false) (hi : s.phase i = .waiting c) :
    (step body disturb s (.acquire i)).phase i = .inside c (body c) := by
  simp only [step, hi, hlocked]
  exact Function.update_self i _ _

theorem foldl_advance {i : ι} {c : κ} {rest b : Body σ ρ} {t : σ} : ∀ {n : ℕ}
    {s : State ι κ ε σ ρ}, s.phase i = .inside c rest → rest.first n s.shared = (b, t) →
      (List.replicate n (.advance i)).foldl (step body disturb) s =
        { s with shared := t, phase := Function.update s.phase i (.inside c b) }
  | 0, s, hi, hfirst => by
      rw [Body.first_zero] at hfirst
      obtain ⟨rfl, rfl⟩ := Prod.mk.inj hfirst
      rw [← hi, Function.update_eq_self]
      rfl
  | n + 1, s, hi, hfirst => by
      rw [List.replicate_succ, List.foldl_cons]
      cases rest with
      | step act rest =>
          have hstep : step body disturb s (.advance i) = { s with
              shared := act s.shared,
              phase := Function.update s.phase i (.inside c (rest s.shared)) } := by
            simp only [step, hi]
          have hrest : (rest s.shared).first n (act s.shared) = (b, t) := hfirst
          rw [hstep, foldl_advance (s := { s with
            shared := act s.shared,
            phase := Function.update s.phase i (.inside c (rest s.shared)) })
            (Function.update_self i _ _) hrest]
          simp only [Function.update_idem]
      | done r =>
          have hstep : step body disturb s (.advance i) = s := by simp only [step, hi]
          rw [hstep]
          apply foldl_advance hi
          cases n <;> exact hfirst
      | stuck =>
          have hstep : step body disturb s (.advance i) = s := by simp only [step, hi]
          rw [hstep]
          apply foldl_advance hi
          cases n <;> exact hfirst

/-- The thread goes on for `n` steps, and then leaves. -/
def goOn (i : ι) (n : ℕ) : List (Step ι κ ε) := List.replicate n (.advance i) ++ [.release i]

/-- **The lock comes free.**  From wherever the thread inside has got to, if its call has a result
in one piece, its own steps lead to the end of the call, with that result in the log, and the other
threads are where they were. -/
theorem comes_free (h : Held body disturb s₀ s) {i : ι} {c : κ} {rest : Body σ ρ}
    (hi : s.phase i = .inside c rest) {r : ρ}
    (hend : ((body c).run (replay body disturb s₀ s.log)).1 = some r) :
    ∃ n, let t := (goOn i n).foldl (step body disturb) s
      t.locked = false ∧ t.log = s.log ++ [.called i c r] ∧
        t.phase = Function.update s.phase i .outside := by
  obtain ⟨hlocked, hothers, k, hfirst⟩ := h.of_inside hi
  have hrun := Body.run_first k (body c) (replay body disturb s₀ s.log)
  rw [hfirst] at hrun
  have hrest : rest.run s.shared = (some r, (rest.run s.shared).2) := by
    rw [← hend, ← hrun]
  obtain ⟨n, hn⟩ := Body.exists_first_of_run hrest
  refine ⟨n, ?_⟩
  rw [goOn, List.foldl_append, List.foldl_cons, List.foldl_nil, foldl_advance hi hn]
  simp only [step, Function.update_self, Function.update_idem]
  exact ⟨trivial, trivial, trivial⟩

end

end InverterTools.Critical
