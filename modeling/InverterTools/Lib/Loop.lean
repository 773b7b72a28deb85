import Mathlib.Tactic

/-! # Loops whose body may throw

`loop step s as` runs `step` over a list until it throws.  The variables survive the exception, as
they do when they are declared outside the `try`.  An invariant of `step` is one of the loop
(`loop_invariant`), a property that one element establishes and no other destroys holds at the end
(`loop_establishes`), and a loop that ends normally has run its body on every element
(`step_of_loop`).  A variable that only elements of one kind set holds what the last of them says
(`loop_last`). -/

namespace Loop

variable {σ α ε : Type} {step : σ → α → Except ε σ} {as : List α} {s : σ}

/-- The variables after the loop, and what was thrown. -/
def loop (step : σ → α → Except ε σ) : σ → List α → σ × Option ε
  | s, [] => (s, none)
  | s, a :: as =>
      match step s a with
      | .error e => (s, some e)
      | .ok s' => loop step s' as

theorem loop_cons_ok {a : α} {s' : σ} (h : step s a = .ok s') :
    loop step s (a :: as) = loop step s' as := by
  rw [loop, h]

theorem loop_cons_error {a : α} {e : ε} (h : step s a = .error e) :
    loop step s (a :: as) = (s, some e) := by
  rw [loop, h]

theorem loop_invariant {I : σ → Prop} (hs : I s)
    (hstep : ∀ s s', ∀ a ∈ as, I s → step s a = .ok s' → I s') : I (loop step s as).1 := by
  -- by induction on the elements
  induction as generalizing s with
  | nil => exact hs
  | cons a as ih =>
      cases ha : step s a with
      | error e => rwa [loop_cons_error ha]
      | ok s' =>
          rw [loop_cons_ok ha]
          exact ih (hstep s s' a List.mem_cons_self hs ha)
            fun s s' b hb => hstep s s' b (List.mem_cons_of_mem a hb)

/-- A loop that ends normally has a property that one element establishes and all keep. -/
theorem loop_establishes {I : σ → Prop} {a : α} (ha : a ∈ as)
    (hnone : (loop step s as).2 = none) (hset : ∀ s s', step s a = .ok s' → I s')
    (hkeep : ∀ s s', ∀ b ∈ as, I s → step s b = .ok s' → I s') : I (loop step s as).1 := by
  induction as generalizing s with
  | nil => cases ha
  | cons b as ih =>
      have hrest : ∀ s s', ∀ c ∈ as, I s → step s c = .ok s' → I s' := fun s s' c hc =>
        hkeep s s' c (List.mem_cons_of_mem b hc)
      cases hb : step s b with
      | error e =>
          rw [loop_cons_error hb] at hnone
          cases hnone
      | ok s' =>
          rw [loop_cons_ok hb] at hnone ⊢
          rcases List.mem_cons.mp ha with rfl | ha
          · exact loop_invariant (hset s s' hb) hrest
          · exact ih ha hnone hrest

theorem step_of_loop {a : α} (ha : a ∈ as) (hnone : (loop step s as).2 = none) :
    ∃ t t', step t a = .ok t' := by
  induction as generalizing s with
  | nil => cases ha
  | cons b as ih =>
      cases hb : step s b with
      | error e =>
          rw [loop_cons_error hb] at hnone
          cases hnone
      | ok s' =>
          rw [loop_cons_ok hb] at hnone
          rcases List.mem_cons.mp ha with rfl | ha
          · exact ⟨s, s', hb⟩
          · exact ih ha hnone

theorem loop_eq_none (h : ∀ s, ∀ a ∈ as, ∃ s', step s a = .ok s') : (loop step s as).2 = none := by
  induction as generalizing s with
  | nil => rfl
  | cons a as ih =>
      obtain ⟨s', ha⟩ := h s a List.mem_cons_self
      rw [loop_cons_ok ha]
      exact ih fun s b hb => h s b (List.mem_cons_of_mem a hb)

theorem step_error_of_loop {e : ε} (h : (loop step s as).2 = some e) :
    ∃ t, ∃ a ∈ as, step t a = .error e := by
  induction as generalizing s with
  | nil => cases h
  | cons a as ih =>
      cases ha : step s a with
      | error e' =>
          rw [loop_cons_error ha] at h
          obtain rfl := Option.some.inj h
          exact ⟨s, a, List.mem_cons_self, ha⟩
      | ok s' =>
          rw [loop_cons_ok ha] at h
          obtain ⟨t, b, hb, hthrow⟩ := ih h
          exact ⟨t, b, List.mem_cons_of_mem a hb, hthrow⟩

section

variable {taken fits : α → Prop} {P : ε → Prop}

/-- A body that takes some elements, whatever the variables are. -/
theorem loop_eq_none_iff (htaken : ∀ s a, (∃ s', step s a = .ok s') ↔ taken a) :
    (loop step s as).2 = none ↔ ∀ a ∈ as, taken a := by
  constructor
  · intro hnone a ha
    obtain ⟨t, t', hstep⟩ := step_of_loop ha hnone
    exact (htaken t a).mp ⟨t', hstep⟩
  · intro hall
    exact loop_eq_none fun s a ha => (htaken s a).mpr (hall a ha)

/-- The first element that is not taken stands at the head or behind it. -/
theorem exists_first_cons {a : α} : (∃ before b after, a :: as = before ++ b :: after ∧
      (∀ c ∈ before, taken c) ∧ ¬ taken b ∧ fits b) ↔
    (¬ taken a ∧ fits a) ∨ (taken a ∧ ∃ before b after, as = before ++ b :: after ∧
      (∀ c ∈ before, taken c) ∧ ¬ taken b ∧ fits b) := by
  constructor
  · rintro ⟨before, b, after, heq, hbefore, hb⟩
    cases before with
    | nil =>
        obtain ⟨rfl, -⟩ := List.cons.inj heq
        exact .inl hb
    | cons c before =>
        obtain ⟨rfl, rfl⟩ := List.cons.inj heq
        obtain ⟨htake, hbefore⟩ := List.forall_mem_cons.mp hbefore
        exact .inr ⟨htake, before, b, after, rfl, hbefore, hb⟩
  · rintro (hb | ⟨htake, before, b, after, rfl, hbefore, hb⟩)
    · exact ⟨[], a, as, rfl, fun c hc => absurd hc List.not_mem_nil, hb⟩
    · exact ⟨a :: before, b, after, rfl, List.forall_mem_cons.mpr ⟨htake, hbefore⟩, hb⟩

/-- It throws at the first element that it does not take. -/
theorem loop_throws_iff (htaken : ∀ s a, (∃ s', step s a = .ok s') ↔ taken a)
    (hfits : ∀ s a, (∀ e, step s a = .error e → P e) ↔ fits a) :
    (∃ e, (loop step s as).2 = some e ∧ P e) ↔ ∃ before a after, as = before ++ a :: after ∧
      (∀ b ∈ before, taken b) ∧ ¬ taken a ∧ fits a := by
  induction as generalizing s with
  | nil => simp [loop]
  | cons a as ih =>
      rw [exists_first_cons]
      cases ha : step s a with
      | error e =>
          have hnot : ¬ taken a := by simp [← htaken s a, ha]
          have hthrows : P e ↔ fits a := by simp [← hfits s a, ha]
          rw [loop_cons_error ha]
          simp [hnot, hthrows]
      | ok s' =>
          have htake : taken a := (htaken s a).mp ⟨s', ha⟩
          rw [loop_cons_ok ha, ih]
          simp [htake]

end

/-- The last element of a kind. -/
def IsLast (key : α → Prop) (as : List α) (a : α) : Prop :=
  ∃ before after, as = before ++ a :: after ∧ key a ∧ ∀ b ∈ after, ¬ key b

theorem isLast_cons {key : α → Prop} {a b : α} (h : IsLast key as a) : IsLast key (b :: as) a := by
  obtain ⟨before, after, rfl, ha, hafter⟩ := h
  exact ⟨b :: before, after, rfl, ha, hafter⟩

theorem loop_last {β : Type} {key : α → Prop} {field : σ → β} {value : α → β → Prop}
    (hset : ∀ s s' a, step s a = .ok s' → key a → value a (field s'))
    (hkeep : ∀ s s' a, step s a = .ok s' → ¬ key a → field s' = field s)
    (hnone : (loop step s as).2 = none) :
    (∃ a, IsLast key as a ∧ value a (field (loop step s as).1)) ∨
      ((∀ a ∈ as, ¬ key a) ∧ field (loop step s as).1 = field s) := by
  -- by induction on the elements; `value` says what an element of the kind leaves
  induction as generalizing s with
  | nil => exact .inr ⟨fun a ha => absurd ha List.not_mem_nil, rfl⟩
  | cons b as ih =>
      cases hb : step s b with
      | error e =>
          rw [loop_cons_error hb] at hnone
          cases hnone
      | ok s' =>
          rw [loop_cons_ok hb] at hnone ⊢
          obtain ⟨a, ha, hvalue⟩ | ⟨hno, hfield⟩ := ih hnone
          · exact .inl ⟨a, isLast_cons ha, hvalue⟩
          · by_cases hkey : key b
            · refine .inl ⟨b, ⟨[], as, rfl, hkey, hno⟩, ?_⟩
              rw [hfield]
              exact hset s s' b hb hkey
            · refine .inr ⟨List.forall_mem_cons.mpr ⟨hkey, hno⟩, ?_⟩
              rw [hfield]
              exact hkeep s s' b hb hkey

end Loop
