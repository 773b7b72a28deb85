import Mathlib.Tactic

/-! # Runs of a deterministic system

A system steps from state to state under inputs.  `trace` lists the inputs of a run, each with the
state it meets.  The rules prove what holds all along a run from what a single step does: of every
state (`trace_invariant`), of every state as long as the steps are of some kind
(`trace_invariant_of`), and of every state together with what came before it (`trace_history`,
`trace_run`).  `trace_part` is about a part of the system that runs as a system of its own. -/

namespace InverterTools

variable {σ α : Type} (step : σ → α → σ)

/-- The inputs of a run, with the states they meet. -/
def trace : σ → List α → List (σ × α)
  | _, [] => []
  | s, a :: as => (s, a) :: trace (step s a) as

@[simp] theorem trace_nil (s : σ) : trace step s [] = [] := rfl

@[simp] theorem trace_cons (s : σ) (a : α) (as : List α) :
    trace step s (a :: as) = (s, a) :: trace step (step s a) as := rfl

theorem trace_append (s : σ) (as bs : List α) :
    trace step s (as ++ bs) = trace step s as ++ trace step (as.foldl step s) bs := by
  induction as generalizing s with
  | nil => rfl
  | cons a as ih => rw [List.cons_append, trace_cons, trace_cons, ih, List.cons_append,
      List.foldl_cons]

theorem map_snd_trace (s : σ) (as : List α) : (trace step s as).map Prod.snd = as := by
  induction as generalizing s with
  | nil => rfl
  | cons a as ih => rw [trace_cons, List.map_cons, ih]

theorem mem_of_mem_trace {p : σ × α} : ∀ {s : σ} {as : List α}, p ∈ trace step s as → p.2 ∈ as
  | s, [], hp => absurd hp List.not_mem_nil
  | s, a :: as, hp => by
      rcases List.mem_cons.mp hp with rfl | hp
      · exact List.mem_cons_self
      · exact List.mem_cons_of_mem a (mem_of_mem_trace hp)

/-- What every step preserves holds of every state of a run. -/
theorem trace_invariant {Inv : σ → Prop} (hstep : ∀ s a, Inv s → Inv (step s a)) :
    ∀ {s : σ} {as : List α}, Inv s → ∀ p ∈ trace step s as, Inv p.1
  | s, [], _, p, hp => absurd hp List.not_mem_nil
  | s, a :: as, hs, p, hp => by
      rcases List.mem_cons.mp hp with rfl | hp
      · exact hs
      · exact trace_invariant hstep (hstep s a hs) p hp

theorem trace_history_aux {Hist : List (σ × α) → σ → Prop}
    (hstep : ∀ pre s a, Hist pre s → Hist (pre ++ [(s, a)]) (step s a)) :
    ∀ (as : List α) {pre : List (σ × α)} {s : σ}, Hist pre s → ∀ {i : ℕ} {p : σ × α},
      (trace step s as)[i]? = some p → Hist (pre ++ (trace step s as).take i) p.1
  | [], _, _, _, _, _, hp => by simp at hp
  | a :: as, pre, s, hs, 0, p, hp => by
      obtain rfl := Option.some.inj hp
      simpa using hs
  | a :: as, pre, s, hs, i + 1, p, hp => by
      have := trace_history_aux hstep as (hstep pre s a hs) (by simpa using hp)
      simpa using this

/-- What is preserved by every step of a kind holds all along a run of such steps. -/
theorem trace_invariant_of {Inv : σ → Prop} {Kind : σ × α → Prop}
    (hstep : ∀ s a, Inv s → Kind (s, a) → Inv (step s a)) : ∀ (as : List α) {s : σ}, Inv s →
      (∀ p ∈ trace step s as, Kind p) →
      (∀ p ∈ trace step s as, Inv p.1) ∧ Inv (as.foldl step s)
  | [], s, hs, _ => ⟨fun p hp => absurd hp List.not_mem_nil, hs⟩
  | a :: as, s, hs, hkind => by
      obtain ⟨ha, has⟩ := List.forall_mem_cons.mp hkind
      obtain ⟨hall, hend⟩ := trace_invariant_of hstep as (hstep s a hs ha) has
      exact ⟨List.forall_mem_cons.mpr ⟨hs, hall⟩, hend⟩

theorem exists_of_mem_trace {p : σ × α} : ∀ {s : σ} {as : List α}, p ∈ trace step s as →
    ∃ before after, as = before ++ p.2 :: after ∧ p.1 = before.foldl step s
  | s, [], hp => absurd hp List.not_mem_nil
  | s, a :: as, hp => by
      rcases List.mem_cons.mp hp with rfl | hp
      · exact ⟨[], as, rfl, rfl⟩
      · obtain ⟨before, after, rfl, hstate⟩ := exists_of_mem_trace hp
        exact ⟨a :: before, after, rfl, hstate⟩

/-- What every step preserves of the steps so far and the state they lead to holds at the end of
every run. -/
theorem trace_run {Hist : List (σ × α) → σ → Prop} {s : σ} (h0 : Hist [] s)
    (hstep : ∀ pre s a, Hist pre s → Hist (pre ++ [(s, a)]) (step s a)) (as : List α) :
    Hist (trace step s as) (as.foldl step s) := by
  have hrun : ∀ (as : List α) (pre : List (σ × α)) (s : σ), Hist pre s →
      Hist (pre ++ trace step s as) (as.foldl step s) := by
    intro as
    induction as with
    | nil =>
        intro pre s hs
        rwa [trace_nil, List.append_nil]
    | cons a as ih =>
        intro pre s hs
        have := ih (pre ++ [(s, a)]) (step s a) (hstep pre s a hs)
        rwa [List.append_assoc] at this
  exact hrun as [] s h0

/-- What every step preserves of the steps so far and the state they lead to holds at every point
of a run. -/
theorem trace_history {Hist : List (σ × α) → σ → Prop} {s : σ} {as : List α} (h0 : Hist [] s)
    (hstep : ∀ pre s a, Hist pre s → Hist (pre ++ [(s, a)]) (step s a)) {i : ℕ} {p : σ × α}
    (hp : (trace step s as)[i]? = some p) : Hist ((trace step s as).take i) p.1 := by
  simpa using trace_history_aux step hstep as h0 hp

theorem trace_take : ∀ (k : ℕ) (s : σ) (as : List α),
    trace step s (as.take k) = (trace step s as).take k
  | 0, s, as => by rw [List.take_zero, List.take_zero, trace_nil]
  | k + 1, s, [] => rfl
  | k + 1, s, a :: as => by
      rw [List.take_succ_cons, trace_cons, trace_cons, List.take_succ_cons, trace_take k]

/-- A part of a system that each step of a run leaves alone or moves as another system does goes
through a run of that system. -/
theorem trace_part {τ β : Type} {part : τ → β → τ} {view : σ → τ}
    {f : σ × α → Option (τ × β)} : ∀ (s : σ) (as : List α),
    (∀ p ∈ trace step s as, f p = none ∧ view (step p.1 p.2) = view p.1 ∨
      ∃ b, f p = some (view p.1, b) ∧ view (step p.1 p.2) = part (view p.1) b) →
    (trace step s as).filterMap f =
        trace part (view s) (((trace step s as).filterMap f).map Prod.snd) ∧
      view (as.foldl step s) =
        (((trace step s as).filterMap f).map Prod.snd).foldl part (view s)
  | s, [], _ => ⟨rfl, rfl⟩
  | s, a :: as, h => by
      obtain ⟨ha, has⟩ := List.forall_mem_cons.mp h
      obtain ⟨hrun, hend⟩ := trace_part (step s a) as has
      rw [trace_cons, List.foldl_cons]
      obtain ⟨hf, hview⟩ | ⟨b, hf, hview⟩ := ha
      · rw [List.filterMap_cons_none hf, ← hview]
        exact ⟨hrun, hend⟩
      · rw [List.filterMap_cons_some hf, List.map_cons, trace_cons, List.foldl_cons, ← hview]
        exact ⟨congrArg _ hrun, hend⟩

end InverterTools
