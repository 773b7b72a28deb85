import Mathlib.Tactic

/-! # Cutting a text into blocks

Blocks are written one behind the other, with a separator in between that the blocks may hold as
well.  A text can then be cut into blocks in several ways.  When what two blocks have in common,
between two separators, is a block again (`Overlapping`), any two ways of cutting have a common
refinement.  So a list of blocks is the only one with its text exactly when none of the blocks can
be cut and no run of them is one block (`cut_unique_iff`). -/

namespace Cutting

variable {α : Type} {sep : α} {P : List α → Prop}

/-- The blocks, each with a separator in front. -/
def more (sep : α) (bs : List (List α)) : List α := bs.flatMap (sep :: ·)

/-- What the end of a block and the beginning of a block have in common, is a block. -/
def Overlapping (sep : α) (P : List α → Prop) : Prop :=
  ∀ p t q, P (p ++ sep :: t) → P (t ++ sep :: q) → P t

/-- A text that is made of blocks, at least one. -/
def Made (sep : α) (P : List α → Prop) (t : List α) : Prop :=
  ∃ cs, (∀ c ∈ cs, P c) ∧ more sep cs = sep :: t

/-- A block that can be cut. -/
def Splits (sep : α) (P : List α → Prop) (b : List α) : Prop :=
  ∃ c t, P c ∧ Made sep P t ∧ b = c ++ sep :: t

@[simp] theorem more_nil : more sep [] = [] := rfl

@[simp] theorem more_cons (b : List α) (bs : List (List α)) :
    more sep (b :: bs) = sep :: (b ++ more sep bs) := rfl

@[simp] theorem more_append (bs cs : List (List α)) :
    more sep (bs ++ cs) = more sep bs ++ more sep cs := List.flatMap_append

theorem more_eq_nil {bs : List (List α)} : more sep bs = [] ↔ bs = [] := by
  cases bs <;> simp

theorem more_eq_cons {bs : List (List α)} {a : α} {s : List α} (h : more sep bs = a :: s) :
    a = sep ∧ ∃ b bs', bs = b :: bs' ∧ s = b ++ more sep bs' := by
  cases bs with
  | nil => cases h
  | cons b bs =>
      obtain ⟨rfl, rfl⟩ := List.cons.inj h
      exact ⟨rfl, b, bs, rfl, rfl⟩

theorem intercalate_cons (b : List α) (bs : List (List α)) :
    [sep].intercalate (b :: bs) = b ++ more sep bs := by
  induction bs generalizing b with
  | nil => simp
  | cons c bs ih => rw [List.intercalate_cons_cons, ih, more_cons, List.append_assoc]; rfl

theorem intercalate_eq_iff {bs cs : List (List α)} (hbs : [] ∉ bs) (hcs : [] ∉ cs) :
    [sep].intercalate bs = [sep].intercalate cs ↔ more sep bs = more sep cs := by
  cases bs with
  | nil =>
      cases cs with
      | nil => simp
      | cons c cs =>
          have hc : c ≠ [] := fun hnil => hcs (hnil ▸ List.mem_cons_self)
          rw [intercalate_cons]
          simp [hc]
  | cons b bs =>
      cases cs with
      | nil =>
          have hb : b ≠ [] := fun hnil => hbs (hnil ▸ List.mem_cons_self)
          rw [intercalate_cons]
          simp [hb]
      | cons c cs => rw [intercalate_cons, intercalate_cons, more_cons, more_cons, List.cons.injEq,
          and_iff_right rfl]

/-- Of two texts that agree, the first blocks are equal, or one of them goes on behind the end of
the other one. -/
theorem append_more_cases {b c : List α} {bs cs : List (List α)}
    (h : b ++ more sep bs = c ++ more sep cs) :
    (b = c ∧ more sep bs = more sep cs) ∨
    (∃ t, b = c ++ sep :: t ∧ more sep cs = sep :: t ++ more sep bs) ∨
    (∃ t, c = b ++ sep :: t ∧ more sep bs = sep :: t ++ more sep cs) := by
  rcases List.append_eq_append_iff.mp h with ⟨s, rfl, hs⟩ | ⟨s, rfl, hs⟩
  · cases s with
    | nil => exact .inl ⟨by simp, hs⟩
    | cons a t =>
        obtain ⟨rfl, -⟩ := more_eq_cons hs
        exact .inr (.inr ⟨t, rfl, hs⟩)
  · cases s with
    | nil => exact .inl ⟨by simp, hs.symm⟩
    | cons a t =>
        obtain ⟨rfl, -⟩ := more_eq_cons hs
        exact .inr (.inl ⟨t, rfl, hs⟩)

/-- The end of a block, from the beginning of another one on, is made of blocks. -/
theorem made_of_suffix (hP : Overlapping sep P) {p t : List α} (ht : P (p ++ sep :: t))
    {bs cs : List (List α)} (hcs : ∀ c ∈ cs, P c) (h : more sep cs = sep :: t ++ more sep bs) :
    Made sep P t := by
  induction cs generalizing p t with
  | nil => cases h
  | cons c cs ih =>
      obtain ⟨hc, hrest⟩ := List.forall_mem_cons.mp hcs
      rcases append_more_cases (List.cons.inj h).2 with ⟨rfl, -⟩ | ⟨q, rfl, -⟩ | ⟨t', rfl, hmore⟩
      · exact ⟨[c], by simpa using hc, by simp⟩
      · exact ⟨[t], by simpa using hP p t q ht hc, by simp⟩
      · obtain ⟨ds, hds, heq⟩ := ih (p := p ++ sep :: c) (by simpa using ht) hrest hmore
        exact ⟨c :: ds, List.forall_mem_cons.mpr ⟨hc, hds⟩, by simp [heq]⟩

/-- A block that begins in front of others ends with one of them, or one of them can be cut. -/
theorem ends_or_splits (hP : Overlapping sep P) {p t : List α} (ht : P (p ++ sep :: t))
    {bs cs : List (List α)} (hbs : ∀ b ∈ bs, P b) (hcs : ∀ c ∈ cs, P c)
    (h : more sep bs = sep :: t ++ more sep cs) :
    (∃ mid s rest, bs = mid ++ s :: rest ∧ sep :: t = more sep (mid ++ [s])) ∨
      ∃ b ∈ bs, Splits sep P b := by
  induction bs generalizing p t with
  | nil => cases h
  | cons b bs ih =>
      obtain ⟨hb, hrest⟩ := List.forall_mem_cons.mp hbs
      rcases append_more_cases (List.cons.inj h).2 with
        ⟨rfl, -⟩ | ⟨q, rfl, hmore⟩ | ⟨t', rfl, hmore⟩
      · exact .inl ⟨[], b, bs, rfl, by simp⟩
      · -- the block ends inside `b`: what they have in common is a block, and so is the rest
        exact .inr ⟨_, List.mem_cons_self, t, q, hP p t q ht hb, made_of_suffix hP hb hcs hmore,
          rfl⟩
      · rcases ih (p := p ++ sep :: b) (by simpa using ht) hrest hmore with
          ⟨mid, s, rest, rfl, heq⟩ | ⟨b', hb', hsplits⟩
        · exact .inl ⟨b :: mid, s, rest, rfl, by simp [heq]⟩
        · exact .inr ⟨b', List.mem_cons_of_mem b hb', hsplits⟩

/-- No block can be cut, and no run of blocks is one block. -/
structure Finest (sep : α) (P : List α → Prop) (bs : List (List α)) : Prop where
  uncut : ∀ b ∈ bs, ¬ Splits sep P b
  unjoined : ∀ b mid s, b :: (mid ++ [s]) <:+: bs → ¬ P (b ++ more sep (mid ++ [s]))

theorem Finest.eq_of_more_eq (hP : Overlapping sep P) {bs cs : List (List α)}
    (hfinest : Finest sep P bs) (hbs : ∀ b ∈ bs, P b) (hcs : ∀ c ∈ cs, P c)
    (h : more sep cs = more sep bs) : cs = bs := by
  -- by induction on the blocks: the first ones of two lists with one text are equal
  induction bs generalizing cs with
  | nil => exact more_eq_nil.mp h
  | cons b bs ih =>
      obtain ⟨hb, hbs'⟩ := List.forall_mem_cons.mp hbs
      obtain ⟨-, c, cs, rfl, htext⟩ := more_eq_cons h
      obtain ⟨hc, hcs'⟩ := List.forall_mem_cons.mp hcs
      have hrest : Finest sep P bs :=
        ⟨fun b' hb' => hfinest.uncut b' (List.mem_cons_of_mem b hb'),
          fun b' mid s hrun =>
            hfinest.unjoined b' mid s (hrun.trans (List.suffix_cons b bs).isInfix)⟩
      rcases append_more_cases htext with ⟨rfl, hmore⟩ | ⟨t, rfl, hmore⟩ | ⟨t, rfl, hmore⟩
      · rw [ih hrest hbs' hcs' hmore.symm]
      · exact absurd ⟨c, t, hc, made_of_suffix hP hb hcs' hmore, rfl⟩
          (hfinest.uncut _ List.mem_cons_self)
      · rcases ends_or_splits hP hc hbs' hcs' hmore with
          ⟨mid, s, rest, rfl, heq⟩ | ⟨b', hb', hsplits⟩
        · rw [heq] at hc
          refine absurd hc (hfinest.unjoined b mid s ?_)
          exact ⟨[], rest, by simp⟩
        · exact absurd hsplits (hrest.uncut b' hb')

/-- A list of blocks that is determined by its text cannot be refined, and refines no other. -/
theorem finest_of_unique {bs : List (List α)} (hbs : ∀ b ∈ bs, P b)
    (h : ∀ cs, (∀ c ∈ cs, P c) → more sep cs = more sep bs → cs = bs) : Finest sep P bs where
  uncut := by
    rintro b hb ⟨c, t, hc, ⟨cs, hcs, hmade⟩, rfl⟩
    obtain ⟨x, y, rfl⟩ := List.append_of_mem hb
    have hnew : x ++ c :: (cs ++ y) = x ++ (c ++ sep :: t) :: y := by
      refine h _ ?_ (by simp [hmade])
      simp only [List.forall_mem_append, List.forall_mem_cons] at hbs ⊢
      exact ⟨hbs.1, hc, hcs, hbs.2.2⟩
    obtain ⟨-, hrest⟩ := List.cons.inj (List.append_cancel_left hnew)
    rw [List.append_left_eq_self.mp hrest] at hmade
    cases hmade
  unjoined := by
    rintro b mid s ⟨x, y, rfl⟩ hjoined
    have hnew : x ++ (b ++ more sep (mid ++ [s])) :: y = x ++ b :: (mid ++ [s]) ++ y := by
      refine h _ ?_ (by simp)
      simp only [List.forall_mem_append, List.forall_mem_cons] at hbs ⊢
      exact ⟨hbs.1.1, hjoined, hbs.2⟩
    have hlength := congrArg List.length hnew
    simp only [List.length_append, List.length_cons, List.length_nil] at hlength
    omega

/-- **Unique cutting.**  A list of blocks is the only one with its text exactly when no block can be
cut and no run of blocks is one block. -/
theorem cut_unique_iff (hP : Overlapping sep P) {bs : List (List α)} (hbs : ∀ b ∈ bs, P b) :
    (∀ cs, (∀ c ∈ cs, P c) → more sep cs = more sep bs → cs = bs) ↔ Finest sep P bs :=
  ⟨finest_of_unique hbs, fun hfinest _ hcs h => hfinest.eq_of_more_eq hP hbs hcs h⟩

/-- What holds of every run of at least two elements, by its first and last one. -/
theorem forall_runs_iff {β : Type} {R S : β → β → Prop} {l : List β} :
    (∀ r mid s, r :: (mid ++ [s]) <:+: l → ¬ (R r s ∨ (mid = [] ∧ S r s))) ↔
      l.Pairwise (fun r s => ¬ R r s) ∧ l.IsChain fun r s => ¬ S r s := by
  constructor
  · intro h
    constructor
    · induction l with
      | nil => exact .nil
      | cons b l ih =>
          refine List.pairwise_cons.mpr ⟨fun c hc hR => ?_, ih fun r mid s hrun =>
            h r mid s (hrun.trans (List.suffix_cons b l).isInfix)⟩
          obtain ⟨mid, rest, rfl⟩ := List.append_of_mem hc
          exact h b mid c ⟨[], rest, by simp⟩ (.inl hR)
    · refine List.isChain_iff_forall_rel_of_append_cons_cons.mpr fun {r s before after} hl hS => ?_
      exact h r [] s ⟨before, after, by simp [hl]⟩ (.inr ⟨rfl, hS⟩)
  · rintro ⟨hpairs, hchain⟩ r mid s hrun (hR | ⟨rfl, hS⟩)
    · have hrun' := List.pairwise_cons.mp (hpairs.sublist hrun.sublist)
      exact hrun'.1 s (by simp) hR
    · have hrun' := hchain.infix hrun
      exact (List.isChain_cons_cons.mp hrun').1 hS

end Cutting
