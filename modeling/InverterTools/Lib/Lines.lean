import InverterTools.Lib.Bytes

/-! # Messages made of lines

A message of a line protocol is a head, further lines, each ended by CR LF, and an extra CR LF.
`Framed` is what a reader relies on, `framed_iff` says which bodies give it, and `stream_splits`
that a stream of such messages can be cut in one way only. -/

namespace InverterTools

/-- The lines, each with its end. -/
def unlines (lines : List Bytes) : Bytes := lines.flatMap (· ++ crlf)

/-- A message: one of the heads and further lines, each ended by CR LF and without another line
feed, and an extra CR LF; the end is the only place where CR LF stands twice. -/
structure Framed (heads : List Bytes) (w : Bytes) : Prop where
  lines : ∃ head ∈ heads, ∃ body : List Bytes, w = unlines (head :: body) ++ crlf ∧
    ∀ line ∈ body, LF ∉ line
  ends : ∀ i, crlf ++ crlf <+: w.drop i ↔ i + 4 = w.length

/-- The lines of a body, with CR LF in between; none of them is empty. -/
def Lines (b : Bytes) : Prop :=
  ∃ lines : List Bytes, (∀ line ∈ lines, line ≠ [] ∧ LF ∉ line) ∧ b = crlf.intercalate lines

/-- Every line feed has a carriage return in front, and a line behind it that is not empty. -/
def Continues (s : Bytes) : Prop :=
  ∀ u v, s = u ++ LF :: v → u.getLast? = some CR ∧ v ≠ [] ∧ ¬ crlf <+: v

theorem CR_ne_LF : CR ≠ LF := by decide

theorem head_crlf_ne (s : Bytes) : (crlf ++ s).head? ≠ some LF := by
  simp [CR_ne_LF]

@[simp] theorem unlines_nil : unlines [] = [] := rfl

@[simp] theorem unlines_cons (line : Bytes) (lines : List Bytes) :
    unlines (line :: lines) = line ++ crlf ++ unlines lines := rfl

theorem unlines_append (a b : List Bytes) : unlines (a ++ b) = unlines a ++ unlines b :=
  List.flatMap_append

theorem intercalate_append_crlf {lines : List Bytes} (h : lines ≠ []) :
    crlf.intercalate lines ++ crlf = unlines lines := by
  induction lines with
  | nil => exact absurd rfl h
  | cons line lines ih =>
      cases lines with
      | nil => simp
      | cons next lines =>
          rw [List.intercalate_cons_cons, unlines_cons, ← ih (List.cons_ne_nil _ _)]
          simp

/-! ### The end of a message -/

/-- A line that is not empty, and what follows it, do not begin with CR LF. -/
theorem not_crlf_prefix {line s : Bytes} (hne : line ≠ []) (hLF : LF ∉ line)
    (hs : s.head? ≠ some LF) : ¬ crlf <+: line ++ s := by
  rintro ⟨t, ht⟩
  match line, hne with
  | [b], _ =>
      have hs' : LF :: t = s := (List.cons.inj ht).2
      rw [← hs'] at hs
      exact hs rfl
  | b :: c :: line, _ =>
      have hc : LF = c := (List.cons.inj (List.cons.inj ht).2).1
      rw [← hc] at hLF
      exact hLF (by simp)

theorem length_unlines_cons {lines : List Bytes} (h : ∀ line ∈ lines, line ≠ [] ∧ LF ∉ line) :
    (unlines lines ++ crlf = crlf) ∨
      5 ≤ (unlines lines ++ crlf).length ∧ ¬ crlf <+: unlines lines ++ crlf := by
  cases lines with
  | nil => exact .inl rfl
  | cons line lines =>
      obtain ⟨hne, hLF⟩ := h line List.mem_cons_self
      have := List.length_pos_of_ne_nil hne
      refine .inr ⟨?_, ?_⟩
      · simp
        omega
      · rw [unlines_cons, List.append_assoc, List.append_assoc]
        exact not_crlf_prefix hne hLF (head_crlf_ne _)

/-- CR LF stands twice at the end only. -/
theorem crlf_crlf_iff {lines : List Bytes} (h : ∀ line ∈ lines, line ≠ [] ∧ LF ∉ line) (i : ℕ) :
    crlf ++ crlf <+: (unlines lines ++ crlf).drop i ↔ i + 4 = (unlines lines ++ crlf).length := by
  induction lines generalizing i with
  | nil =>
      refine iff_of_false (fun hp => ?_) (by simp)
      have := hp.length_le
      simp at this
      omega
  | cons line lines ih =>
      obtain ⟨⟨-, hLF⟩, hrest⟩ := List.forall_mem_cons.mp h
      have hw : unlines (line :: lines) ++ crlf = line ++ (crlf ++ (unlines lines ++ crlf)) := by
        simp
      rw [hw]
      generalize hrest' : unlines lines ++ crlf = rest at ih ⊢
      have hcases : rest = crlf ∨ 5 ≤ rest.length ∧ ¬ crlf <+: rest := by
        rw [← hrest']
        exact length_unlines_cons hrest
      have hlen : rest.length = 2 ∨ 5 ≤ rest.length :=
        hcases.imp (fun hr => by rw [hr]; rfl) And.left
      rw [List.length_append, List.length_append, show crlf.length = 2 from rfl]
      rcases lt_trichotomy i line.length with hi | rfl | hi
      · -- inside the line: the next byte is another one of the line, or its carriage return
        refine iff_of_false ?_ (by omega)
        rw [List.drop_append_of_le_length hi.le]
        have hne : line.drop i ≠ [] := by
          rw [ne_eq, List.drop_eq_nil_iff]
          omega
        have hnot : LF ∉ line.drop i := fun hmem => hLF (List.mem_of_mem_drop hmem)
        intro hp
        exact not_crlf_prefix hne hnot (head_crlf_ne _) ((List.prefix_append _ _).trans hp)
      · rw [List.drop_left, List.prefix_append_right_inj]
        rcases hcases with rfl | ⟨hlong, hnot⟩
        · exact iff_of_true (List.prefix_refl _) (by simp)
        · exact iff_of_false hnot (by omega)
      · obtain ⟨j, rfl⟩ := Nat.exists_eq_add_of_lt hi
        have hdrop : (line ++ (crlf ++ rest)).drop (line.length + j + 1) = (LF :: rest).drop j := by
          rw [Nat.add_assoc, List.drop_append, List.drop_of_length_le (by omega)]
          simp
        rw [hdrop]
        cases j with
        | zero =>
            refine iff_of_false (fun hp => ?_) (by omega)
            obtain ⟨t, ht⟩ := hp
            exact CR_ne_LF (List.cons.inj ht).1
        | succ j =>
            rw [List.drop_succ_cons, ih hrest j]
            omega

/-! ### Which bodies give a message -/

theorem Lines.ne_nil_iff {lines : List Bytes} (h : ∀ line ∈ lines, line ≠ [] ∧ LF ∉ line) :
    crlf.intercalate lines = [] ↔ lines = [] := by
  cases lines with
  | nil => simp
  | cons line lines =>
      have hne := (h line List.mem_cons_self).1
      cases lines with
      | nil => simpa using hne
      | cons next lines => simp [List.intercalate_cons_cons]

section

variable {heads : List Bytes} (hheads : ∀ head ∈ heads, head ≠ [] ∧ LF ∉ head)

include hheads

/-- **The framing** of a message with the given body is kept exactly when the body consists of lines
with CR LF in between, none of which is empty. -/
theorem framed_iff {head b : Bytes} (hhead : head ∈ heads) :
    Framed heads (head ++ (if b = [] then [] else crlf ++ b) ++ crlf ++ crlf) ↔ Lines b := by
  have hmessage {lines : List Bytes} (h : ∀ line ∈ lines, line ≠ [] ∧ LF ∉ line)
      (hb : b = crlf.intercalate lines) :
      head ++ (if b = [] then [] else crlf ++ b) ++ crlf ++ crlf =
        unlines (head :: lines) ++ crlf := by
    have hnil : b = [] ↔ lines = [] := by
      rw [hb]
      exact Lines.ne_nil_iff h
    by_cases hlines : lines = []
    · rw [if_pos (hnil.mpr hlines), hlines]
      simp
    · rw [if_neg (mt hnil.mp hlines), unlines_cons, ← intercalate_append_crlf hlines, ← hb]
      simp
  constructor
  · rintro ⟨⟨head', hhead', body, hw, hbody⟩, hends⟩
    have hhead_end {head : Bytes} (hhead : head ∈ heads) : LF ∉ head ++ [CR] := by
      simpa [CR_ne_LF.symm] using (hheads head hhead).2
    have hfirst : head ++ (if b = [] then [] else crlf ++ b) ++ crlf ++ crlf =
        (head ++ [CR]) ++ LF :: ((if b = [] then [] else b ++ crlf) ++ crlf) := by
      split_ifs <;> simp
    have hfirst' : unlines (head' :: body) ++ crlf =
        (head' ++ [CR]) ++ LF :: (unlines body ++ crlf) := by
      simp
    have hrest : (if b = [] then [] else b ++ crlf) = unlines body := by
      rw [hfirst, hfirst'] at hw
      rw [eq_of_append_cons_eq (hhead_end hhead) (hhead_end hhead') hw] at hw
      exact List.append_cancel_right (List.cons.inj (List.append_cancel_left hw)).2
    have hbody' : ∀ line ∈ body, line ≠ [] ∧ LF ∉ line := by
      intro line hline
      refine ⟨?_, hbody line hline⟩
      rintro rfl
      -- an empty line is a second place where the end stands
      obtain ⟨before, after, rfl⟩ := List.append_of_mem hline
      have hsplit : unlines (head' :: (before ++ [] :: after)) ++ crlf =
          crlf.intercalate (head' :: before) ++ (crlf ++ crlf) ++ (unlines after ++ crlf) := by
        rw [← List.cons_append, unlines_append, ← intercalate_append_crlf (List.cons_ne_nil _ _)]
        simp
      have hend := (hends (crlf.intercalate (head' :: before)).length).mp (by
        rw [hw, hsplit, List.append_assoc, List.drop_left]
        exact List.prefix_append _ _)
      rw [hw, hsplit] at hend
      simp at hend
    refine ⟨body, hbody', ?_⟩
    by_cases hb : b = []
    · rw [if_pos hb] at hrest
      cases body with
      | nil => rw [hb]; rfl
      | cons line body => simp at hrest
    · rw [if_neg hb] at hrest
      have hne : body ≠ [] := by
        rintro rfl
        simp at hrest
      rw [← intercalate_append_crlf hne] at hrest
      exact List.append_cancel_right hrest
  · rintro ⟨lines, hlines, hb⟩
    rw [hmessage hlines hb]
    have hall : ∀ line ∈ head :: lines, line ≠ [] ∧ LF ∉ line :=
      List.forall_mem_cons.mpr ⟨hheads head hhead, hlines⟩
    exact ⟨⟨head, hhead, lines, rfl, fun line hline => (hlines line hline).2⟩,
      crlf_crlf_iff hall⟩

end

/-! ### Streams of messages -/

/-- A message is no proper beginning of another one. -/
theorem Framed.eq_of_append_eq {heads : List Bytes} {u v s t : Bytes} (hu : Framed heads u)
    (hv : Framed heads v) (h : u ++ s = v ++ t) : u = v := by
  -- the end of the shorter one would stand inside the longer one
  have hle {u v s t : Bytes} (hu : Framed heads u) (hv : Framed heads v) (h : u ++ s = v ++ t) :
      v.length ≤ u.length := by
    by_contra hlt
    obtain ⟨w, rfl⟩ : u <+: v := List.prefix_of_prefix_length_le ⟨s, h⟩ ⟨t, rfl⟩ (by omega)
    have h4 : 4 ≤ u.length := by
      obtain ⟨head, -, body, rfl, -⟩ := hu.lines
      simp
      omega
    have hend : crlf ++ crlf <+: u.drop (u.length - 4) := (hu.ends _).mpr (by omega)
    have hinside : crlf ++ crlf <+: (u ++ w).drop (u.length - 4) := by
      rw [List.drop_append_of_le_length (by omega)]
      exact hend.trans (List.prefix_append _ _)
    have := (hv.ends _).mp hinside
    omega
  exact (List.append_inj h (le_antisymm (hle hv hu h.symm) (hle hu hv h))).1

/-- **A stream of messages** can be cut into messages in one way only. -/
theorem stream_splits {heads : List Bytes} : ∀ {us vs : List Bytes}, (∀ u ∈ us, Framed heads u) →
    (∀ v ∈ vs, Framed heads v) → us.flatten = vs.flatten → us = vs
  | [], [], _, _, _ => rfl
  | [], v :: vs, _, hv, h => by
      obtain ⟨head, -, body, rfl, -⟩ := (hv v List.mem_cons_self).lines
      simp at h
  | u :: us, [], hu, _, h => by
      obtain ⟨head, -, body, rfl, -⟩ := (hu u List.mem_cons_self).lines
      simp at h
  | u :: us, v :: vs, hu, hv, h => by
      obtain ⟨hu1, hus⟩ := List.forall_mem_cons.mp hu
      obtain ⟨hv1, hvs⟩ := List.forall_mem_cons.mp hv
      rw [List.flatten_cons, List.flatten_cons] at h
      obtain rfl := hu1.eq_of_append_eq hv1 h
      rw [stream_splits hus hvs (List.append_cancel_left h)]

/-! ### Bodies byte by byte -/

theorem Continues.of_notMem {s : Bytes} (h : LF ∉ s) : Continues s := by
  rintro u v rfl
  exact absurd (by simp) h

theorem Continues.line_append {line s : Bytes} (hLF : LF ∉ line) (h : Continues s) (hne : s ≠ [])
    (hs : ¬ crlf <+: s) : Continues (line ++ crlf ++ s) := by
  intro u v huv
  have hline : LF ∉ line ++ [CR] := by simpa [CR_ne_LF.symm] using hLF
  have hsplit : (line ++ [CR]) ++ LF :: s = u ++ LF :: v := by
    rw [← huv]
    simp
  rcases List.append_eq_append_iff.mp hsplit with ⟨t, rfl, ht⟩ | ⟨t, ht, htv⟩
  · cases t with
    | nil =>
        obtain rfl := (List.cons.inj ht).2
        exact ⟨by simp, hne, hs⟩
    | cons x t =>
        obtain ⟨rfl, rfl⟩ := List.cons.inj ht
        obtain ⟨hlast, hv⟩ := h t v rfl
        exact ⟨by simp [List.getLast?_append, List.getLast?_cons, hlast], hv⟩
  · cases t with
    | nil =>
        obtain rfl := (List.cons.inj htv).2
        rw [List.append_nil] at ht
        exact ⟨by simp [← ht], hne, hs⟩
    | cons x t =>
        obtain ⟨rfl, -⟩ := List.cons.inj htv
        exact absurd (by rw [ht]; simp) hline

theorem Continues.of_line_append {u v : Bytes} (h : Continues (u ++ LF :: v)) : Continues v := by
  rintro s t rfl
  obtain ⟨hlast, ht⟩ := h (u ++ LF :: s) t (by simp)
  refine ⟨?_, ht⟩
  cases s with
  | nil =>
      rw [List.getLast?_append] at hlast
      exact absurd (Option.some.inj hlast).symm CR_ne_LF
  | cons x s => simpa [List.getLast?_append] using hlast

theorem continues_of_lines : ∀ {lines : List Bytes}, (∀ line ∈ lines, line ≠ [] ∧ LF ∉ line) →
    Continues (crlf.intercalate lines) ∧ ¬ crlf <+: crlf.intercalate lines
  | [], _ => ⟨Continues.of_notMem (by simp), fun h => by simpa using h.length_le⟩
  | [line], h => by
      obtain ⟨hne, hLF⟩ := h line List.mem_cons_self
      rw [List.intercalate_singleton]
      refine ⟨Continues.of_notMem hLF, ?_⟩
      have := not_crlf_prefix (s := []) hne hLF (by simp)
      rwa [List.append_nil] at this
  | line :: next :: lines, h => by
      obtain ⟨⟨hne, hLF⟩, hrest⟩ := List.forall_mem_cons.mp h
      obtain ⟨hcont, hprefix⟩ := continues_of_lines hrest
      have hnil := mt (Lines.ne_nil_iff hrest).mp (List.cons_ne_nil next lines)
      rw [List.intercalate_cons_cons]
      refine ⟨hcont.line_append hLF hnil hprefix, ?_⟩
      rw [List.append_assoc]
      exact not_crlf_prefix hne hLF (head_crlf_ne _)

theorem lines_of_continues (b : Bytes) (h : Continues b) (hb : ¬ crlf <+: b) : Lines b := by
  induction hn : b.length using Nat.strong_induction_on generalizing b with
  | _ n ih =>
      by_cases hLF : LF ∈ b
      · obtain ⟨u, v, rfl, hu⟩ := List.eq_append_cons_of_mem hLF
        obtain ⟨hlast, hv, hv'⟩ := h u v rfl
        obtain ⟨line, rfl⟩ := List.getLast?_eq_some_iff.mp hlast
        have hline : line ≠ [] ∧ LF ∉ line := by
          refine ⟨?_, fun hmem => hu (List.mem_append_left _ hmem)⟩
          rintro rfl
          exact hb ⟨v, rfl⟩
        obtain ⟨lines, hlines, rfl⟩ := ih v.length (by rw [← hn]; simp; omega) v
          h.of_line_append hv' rfl
        refine ⟨line :: lines, List.forall_mem_cons.mpr ⟨hline, hlines⟩, ?_⟩
        cases lines with
        | nil => simp at hv
        | cons next lines =>
            rw [List.intercalate_cons_cons]
            simp
      · by_cases hnil : b = []
        · exact ⟨[], by simp, by rw [hnil]; rfl⟩
        · exact ⟨[b], by simpa using ⟨hnil, hLF⟩, by simp⟩

/-- A body consists of lines exactly when every line feed in it continues, and it does not begin
with an empty line. -/
theorem lines_iff {b : Bytes} : Lines b ↔ Continues b ∧ ¬ crlf <+: b := by
  constructor
  · rintro ⟨lines, hlines, rfl⟩
    exact continues_of_lines hlines
  · rintro ⟨h, hb⟩
    exact lines_of_continues b h hb

theorem lines_of_notMem {b : Bytes} (h : LF ∉ b) : Lines b := by
  refine lines_iff.mpr ⟨Continues.of_notMem h, ?_⟩
  rintro ⟨t, rfl⟩
  exact h (by simp)

theorem lines_append_iff {p s : Bytes} (hne : p ≠ []) (hLF : LF ∉ p)
    (hlast : p.getLast? ≠ some CR) : Lines (p ++ s) ↔ Continues s := by
  rw [lines_iff]
  constructor
  · rintro ⟨h, -⟩ u v rfl
    obtain ⟨hu, hv⟩ := h (p ++ u) v (by simp)
    refine ⟨?_, hv⟩
    rw [List.getLast?_append] at hu
    cases hu' : u.getLast? with
    | none => exact absurd (by simpa [hu'] using hu) hlast
    | some b => simpa [hu'] using hu
  · intro h
    have hhead : s.head? ≠ some LF := by
      intro hs
      obtain ⟨v, rfl⟩ := List.head?_eq_some_iff.mp hs
      simpa using (h [] v rfl).1
    refine ⟨fun u v huv => ?_, not_crlf_prefix hne hLF hhead⟩
    rcases List.append_eq_append_iff.mp huv with ⟨t, rfl, rfl⟩ | ⟨t, rfl, ht⟩
    · obtain ⟨ht, hv⟩ := h t v rfl
      exact ⟨by simp [List.getLast?_append, ht], hv⟩
    · cases t with
      | nil => exact absurd (by rw [← List.nil_append s, ← ht]; rfl) hhead
      | cons x t =>
          obtain ⟨rfl, -⟩ := List.cons.inj ht
          exact absurd (by simp) hLF

end InverterTools
