import InverterTools.Display
import InverterTools.Lib.Cutting

/-! # Reading a simple table (`formatter/formatter.h`)

`Table::writeSimpleTable` puts a value with a blank between quotes, but leaves the quotes and line
feeds of a value as they are.  One line is still read in one way only (`Row.text_injective`), and
what two rows have in common is a row again (`overlapping_isRow`), so the rows of a table are lost
in two ways: a row can be cut at a line feed of its value, or a run of rows reads as one row.
`simple_table_determines_iff` says for which tables neither happens. -/

namespace InverterTools.Formatter

open Cutting (more Made Splits Finest Overlapping)

/-- A row of a simple table: its key, the text of the value, and the unit. -/
structure Row where
  key : Bytes
  value : Bytes
  unit : Unit
deriving DecidableEq, Repr

/-- The line of a row. -/
def Row.text (row : Row) : Bytes :=
  let quote := if stringHas row.value 0x20 then ascii "\"" else []
  row.key ++ ascii " " ++ quote ++ row.value ++ quote ++ putUnit row.unit

/-- The key has neither a blank nor a line break. -/
def Row.Clean (row : Row) : Prop := 0x20 ∉ row.key ∧ LF ∉ row.key

instance (row : Row) : Decidable row.Clean :=
  inferInstanceAs (Decidable (0x20 ∉ row.key ∧ LF ∉ row.key))

/-- The lines, with a line feed in between. -/
def simpleTable (rows : List Row) : Bytes := [LF].intercalate (rows.map Row.text)

section

variable {α : Type} [Displayed α]

/-- The row of an item. -/
def rowOf (depth : ℕ) (item : TableItem α) : Outcome Exn Row := do
  let value ← Displayed.put depth item.value
  pure ⟨ascii item.key, value, item.unit⟩

/-- The rows of a table. -/
def rowsOf (depth : ℕ) : List (TableItem α) → Outcome Exn (List Row)
  | [] => .ret []
  | item :: items => do
      let row ← rowOf depth item
      let rows ← rowsOf depth items
      pure (row :: rows)

end

/-! ### When the rows are lost -/

/-- What stands behind the key and the blank. -/
inductive IsBody : Bytes → Prop
  | plain {value : Bytes} {unit : Unit} (h : 0x20 ∉ value) : IsBody (value ++ putUnit unit)
  | quoted (value : Bytes) (unit : Unit) : IsBody (0x22 :: (value ++ 0x22 :: putUnit unit))

/-- One row or more. -/
inductive ReadsAsRows : Bytes → Prop
  | row {key body : Bytes} (hblank : 0x20 ∉ key) (hLF : LF ∉ key) (hbody : IsBody body) :
      ReadsAsRows (key ++ 0x20 :: body)
  | rows {key body rest : Bytes} (hblank : 0x20 ∉ key) (hLF : LF ∉ key) (hbody : IsBody body)
      (hrest : ReadsAsRows rest) : ReadsAsRows (key ++ 0x20 :: (body ++ LF :: rest))

namespace Row

/-- The row can be cut at a line feed in its value: the last line of a value without blanks becomes
a key when a unit follows, and a value with blanks is cut where both parts, with the quotes around
the whole, read as rows. -/
def Cuttable (row : Row) : Prop :=
  (0x20 ∉ row.value ∧ LF ∈ row.value ∧ row.unit ≠ .none) ∨
    (0x20 ∈ row.value ∧ ∃ front back, row.value = front ++ LF :: back ∧ IsBody (0x22 :: front) ∧
      ReadsAsRows (back ++ 0x22 :: putUnit row.unit))

/-- Neither quotes nor a unit. -/
def Plain (row : Row) : Prop := 0x20 ∉ row.value ∧ row.unit = .none

/-- The value is the name of a unit, and has none itself. -/
def UnitName (row : Row) : Prop :=
  row.unit = .none ∧ ∃ unit : Unit, unit ≠ .none ∧ row.value = unit.put

/-- There is a quote in front of the value. -/
def Opens (row : Row) : Prop := 0x20 ∈ row.value ∨ row.value.head? = some 0x22

/-- The line ends with a quote, or with one and something that reads as a unit. -/
def Closes (row : Row) : Prop :=
  0x20 ∈ row.value ∨ row.value.getLast? = some 0x22 ∨ (row.key.getLast? = some 0x22 ∧ row.UnitName)

theorem not_cuttable {row : Row} (h : LF ∉ row.value) : ¬ row.Cuttable := by
  rintro (⟨-, hLF, -⟩ | ⟨-, front, back, hvalue, -⟩)
  · exact h hLF
  · exact h (hvalue ▸ by simp)

end Row

/-- No row can be cut, no row with a quote in front of its value comes before one that ends with a
quote, and the name of a unit does not follow a row that has neither quotes nor a unit. -/
structure Unambiguous (rows : List Row) : Prop where
  uncut : ∀ row ∈ rows, ¬ row.Cuttable
  unquoted : rows.Pairwise fun r s => ¬ (r.Opens ∧ s.Closes)
  unitless : rows.IsChain fun r s => ¬ (r.Plain ∧ s.UnitName)

/-! ### The texts -/

theorem quote_notMem_putUnit (unit : Unit) : 0x22 ∉ putUnit unit := by
  cases unit <;> decide

theorem LF_notMem_putUnit (unit : Unit) : LF ∉ putUnit unit := by
  cases unit <;> decide

theorem blank_notMem_put (unit : Unit) : 0x20 ∉ unit.put := by
  cases unit <;> decide

theorem putUnit_of_ne {unit : Unit} (h : unit ≠ .none) : putUnit unit = 0x20 :: unit.put :=
  if_neg h

@[simp] theorem putUnit_none : putUnit .none = [] := rfl

theorem ne_none_of_blank {value : Bytes} {unit : Unit} (h : 0x20 ∉ value)
    (hmem : 0x20 ∈ value ++ putUnit unit) : unit ≠ .none := by
  rintro rfl
  rw [putUnit_none, List.append_nil] at hmem
  exact h hmem

theorem putUnit_injective : Function.Injective putUnit := by
  intro u v h
  cases u <;> cases v <;> first | rfl | exact absurd h (by decide)

/-- A text without blanks in front of a unit reads as a unit only if it is empty. -/
theorem eq_nil_of_append_putUnit {s : Bytes} {unit unit' : Unit} (hs : 0x20 ∉ s)
    (h : s ++ putUnit unit = putUnit unit') : s = [] := by
  by_cases hunit' : unit' = .none
  · rw [hunit'] at h
    exact (List.append_eq_nil_iff.mp h).1
  · rw [putUnit_of_ne hunit'] at h
    rw [putUnit_of_ne (ne_none_of_blank hs (by simp [h]))] at h
    exact eq_of_append_cons_eq hs List.not_mem_nil h

namespace Row

/-- The line behind the key and the blank. -/
def body (row : Row) : Bytes :=
  if 0x20 ∈ row.value then 0x22 :: (row.value ++ 0x22 :: putUnit row.unit)
  else row.value ++ putUnit row.unit

theorem text_eq (row : Row) : row.text = row.key ++ 0x20 :: row.body := by
  unfold text body
  by_cases h : 0x20 ∈ row.value
  · rw [if_pos (stringHas_iff.mpr h), if_pos h]
    simp [show ascii "\"" = [0x22] from rfl, show ascii " " = [0x20] from rfl]
  · rw [if_neg (mt stringHas_iff.mp h), if_neg h]
    simp [show ascii " " = [0x20] from rfl]

theorem isBody_body (row : Row) : IsBody row.body := by
  unfold body
  split_ifs with h
  · exact .quoted _ _
  · exact .plain h

theorem blank_notMem_body {row : Row} : 0x20 ∉ row.body ↔ row.Plain := by
  unfold body Plain
  split_ifs with h
  · simp [h]
  · by_cases hunit : row.unit = .none
    · simp [hunit, h]
    · simp [hunit, h, putUnit_of_ne hunit]

theorem opens_iff {row : Row} : row.Opens ↔ row.body.head? = some 0x22 := by
  unfold body Opens
  split_ifs with h
  · simp [h]
  · rw [or_iff_right h, List.head?_append]
    cases row.value with
    | nil =>
        refine iff_of_false nofun ?_
        cases row.unit <;> decide
    | cons b value => simp

theorem unitName_iff {row : Row} :
    row.UnitName ↔ ∃ unit : Unit, unit ≠ .none ∧ row.body = unit.put := by
  constructor
  · rintro ⟨hnone, unit, hunit, hvalue⟩
    refine ⟨unit, hunit, ?_⟩
    rw [body, if_neg (hvalue ▸ blank_notMem_put unit), hnone, hvalue]
    exact List.append_nil _
  · rintro ⟨unit, hunit, hbody⟩
    obtain ⟨hblank, hnone⟩ := blank_notMem_body.mp (hbody ▸ blank_notMem_put unit)
    rw [body, if_neg hblank, hnone] at hbody
    exact ⟨hnone, unit, hunit, (List.append_nil _).symm.trans hbody⟩

/-- The body ends with a quote and perhaps a unit. -/
theorem body_quote_iff {row : Row} :
    (∃ front unit, row.body = front ++ 0x22 :: putUnit unit) ↔
      0x20 ∈ row.value ∨ row.value.getLast? = some 0x22 := by
  unfold body
  split_ifs with h
  · exact iff_of_true ⟨0x22 :: row.value, row.unit, rfl⟩ (.inl h)
  · rw [or_iff_right h]
    constructor
    · rintro ⟨front, unit, heq⟩
      have hquote : 0x22 ∈ row.value := by
        have hmem : 0x22 ∈ row.value ++ putUnit row.unit := by simp [heq]
        exact (List.mem_append.mp hmem).resolve_right (quote_notMem_putUnit row.unit)
      obtain ⟨x, s, hvalue, hs⟩ := exists_last_of_mem hquote
      have hnot : 0x22 ∉ s ++ putUnit row.unit := by
        simp [hs, quote_notMem_putUnit row.unit]
      rw [hvalue, List.append_assoc, List.cons_append] at heq
      obtain ⟨-, htail⟩ := append_cons_inj_last hnot (quote_notMem_putUnit unit) heq
      have hblank : 0x20 ∉ s := fun hmem => h (hvalue ▸ by simp [hmem])
      obtain rfl := eq_nil_of_append_putUnit hblank htail
      simp [hvalue]
    · intro hlast
      obtain ⟨front, hvalue⟩ := List.getLast?_eq_some_iff.mp hlast
      exact ⟨front, row.unit, by simp [hvalue]⟩

end Row

theorem plain_ne_quoted {value value' : Bytes} {unit unit' : Unit} (h : 0x20 ∉ value)
    (h' : 0x20 ∈ value') :
    value ++ putUnit unit ≠ 0x22 :: (value' ++ 0x22 :: putUnit unit') := by
  intro heq
  obtain ⟨x, y, rfl, hx⟩ := List.eq_append_cons_of_mem h'
  rw [putUnit_of_ne (ne_none_of_blank h (by simp [heq]))] at heq
  have hquote : (0x20 : UInt8) ∉ 0x22 :: x := by simp [hx]
  have hsplit : value ++ 0x20 :: unit.put =
      (0x22 :: x) ++ 0x20 :: (y ++ 0x22 :: putUnit unit') := by
    simpa using heq
  rw [eq_of_append_cons_eq h hquote hsplit] at hsplit
  have hput := (List.cons.inj (List.append_cancel_left hsplit)).2
  have hmem : 0x22 ∈ unit.put := by simp [hput]
  exact absurd hmem (by cases unit <;> decide)

theorem plain_injective {value value' : Bytes} {unit unit' : Unit} (h : 0x20 ∉ value)
    (h' : 0x20 ∉ value') (heq : value ++ putUnit unit = value' ++ putUnit unit') :
    value = value' ∧ unit = unit' := by
  rcases List.append_eq_append_iff.mp heq with ⟨s, rfl, hs⟩ | ⟨s, rfl, hs⟩
  · have hblank : 0x20 ∉ s := fun hmem => h' (List.mem_append_right value hmem)
    obtain rfl := eq_nil_of_append_putUnit hblank hs.symm
    exact ⟨(List.append_nil _).symm, putUnit_injective hs⟩
  · have hblank : 0x20 ∉ s := fun hmem => h (List.mem_append_right value' hmem)
    obtain rfl := eq_nil_of_append_putUnit hblank hs.symm
    exact ⟨List.append_nil _, putUnit_injective hs.symm⟩

namespace Row

/-- A line is read in one way only. -/
theorem text_injective {r s : Row} (hr : r.Clean) (hs : s.Clean) (h : r.text = s.text) : r = s := by
  obtain ⟨key, value, unit⟩ := r
  obtain ⟨key', value', unit'⟩ := s
  rw [text_eq, text_eq] at h
  obtain rfl := eq_of_append_cons_eq hr.1 hs.1 h
  have hbody := (List.cons.inj (List.append_cancel_left h)).2
  unfold body at hbody
  dsimp only at hbody
  split_ifs at hbody with hblank hblank' hblank'
  · obtain ⟨rfl, hunit⟩ := append_cons_inj_last (quote_notMem_putUnit unit)
      (quote_notMem_putUnit unit') (List.cons.inj hbody).2
    rw [putUnit_injective hunit]
  · exact absurd hbody.symm (plain_ne_quoted hblank' hblank)
  · exact absurd hbody (plain_ne_quoted hblank hblank')
  · obtain ⟨rfl, rfl⟩ := plain_injective hblank hblank' hbody
    rfl

theorem exists_of_isBody {b : Bytes} (h : IsBody b) (key : Bytes) :
    ∃ row : Row, row.key = key ∧ row.body = b := by
  cases h with
  | plain hvalue => exact ⟨⟨key, _, _⟩, rfl, if_neg hvalue⟩
  | quoted value unit =>
      by_cases hblank : 0x20 ∈ value
      · exact ⟨⟨key, value, unit⟩, rfl, if_pos hblank⟩
      · -- quotes around a value without blanks belong to the value
        refine ⟨⟨key, 0x22 :: (value ++ [0x22]), unit⟩, rfl, ?_⟩
        rw [body, if_neg (by simpa using hblank)]
        simp

end Row

/-! ### Rows as blocks -/

/-- A line of a simple table. -/
def IsRow (line : Bytes) : Prop := ∃ row : Row, row.Clean ∧ row.text = line

theorem exists_body_of_LF {key body t rest : Bytes} (hkey : LF ∉ key)
    (h : key ++ 0x20 :: body = t ++ LF :: rest) :
    ∃ b, t = key ++ 0x20 :: b ∧ body = b ++ LF :: rest := by
  rcases List.append_eq_append_iff.mp h with ⟨s, rfl, hs⟩ | ⟨s, rfl, hs⟩
  · cases s with
    | nil => exact absurd (List.cons.inj hs).1 (by decide)
    | cons a b =>
        obtain ⟨rfl, hbody⟩ := List.cons.inj hs
        exact ⟨b, rfl, hbody⟩
  · cases s with
    | nil => exact absurd (List.cons.inj hs).1 (by decide)
    | cons a s =>
        obtain ⟨rfl, -⟩ := List.cons.inj hs
        exact absurd (by simp) hkey

theorem isRow_iff {key b : Bytes} (hblank : 0x20 ∉ key) (hLF : LF ∉ key) :
    IsRow (key ++ 0x20 :: b) ↔ IsBody b := by
  constructor
  · rintro ⟨row, hrow, htext⟩
    rw [Row.text_eq] at htext
    rw [eq_of_append_cons_eq hrow.1 hblank htext] at htext
    rw [← (List.cons.inj (List.append_cancel_left htext)).2]
    exact row.isBody_body
  · intro hbody
    obtain ⟨row, rfl, rfl⟩ := Row.exists_of_isBody hbody key
    exact ⟨row, ⟨hblank, hLF⟩, row.text_eq⟩

/-- A body that goes on behind a line feed begins with a quote or has no blank in front of it. -/
theorem IsBody.front {b rest : Bytes} (h : IsBody (b ++ LF :: rest)) :
    0x20 ∉ b ∨ b.head? = some 0x22 := by
  generalize heq : b ++ LF :: rest = whole at h
  cases h with
  | @plain value unit hvalue =>
      rcases List.append_eq_append_iff.mp heq with ⟨s, rfl, -⟩ | ⟨s, -, hs⟩
      · exact .inl fun hmem => hvalue (List.mem_append_left s hmem)
      · have hmem : LF ∈ putUnit unit := by simp [hs]
        exact absurd hmem (LF_notMem_putUnit unit)
  | quoted value unit =>
      cases b with
      | nil => exact absurd (List.cons.inj heq).1 (by decide)
      | cons a b => exact .inr (congrArg some (List.cons.inj heq).1)

theorem unit_of_blank {s b : Bytes} {unit : Unit} (h : s ++ 0x20 :: b = putUnit unit) :
    s = [] ∧ unit ≠ .none ∧ b = unit.put := by
  have hunit : unit ≠ .none := by
    rintro rfl
    simp at h
  rw [putUnit_of_ne hunit] at h
  cases s with
  | nil => exact ⟨rfl, hunit, (List.cons.inj h).2⟩
  | cons a s =>
      have hmem : 0x20 ∈ unit.put := by simp [← (List.cons.inj h).2]
      exact absurd hmem (blank_notMem_put unit)

theorem plain_back {front value b : Bytes} {unit : Unit} (hvalue : 0x20 ∉ value)
    (h : front ++ 0x20 :: b = value ++ putUnit unit) :
    0x20 ∉ front ∧ unit ≠ .none ∧ b = unit.put := by
  have hunit : unit ≠ .none := ne_none_of_blank hvalue (by simp [← h])
  rw [putUnit_of_ne hunit] at h
  have hcount := congrArg (List.count 0x20) h
  simp only [List.count_append, List.count_cons_self, List.count_eq_zero.mpr hvalue,
    List.count_eq_zero.mpr (blank_notMem_put unit)] at hcount
  have hfront : 0x20 ∉ front := by
    rw [← List.count_eq_zero]
    omega
  rw [eq_of_append_cons_eq hfront hvalue h] at h
  exact ⟨hfront, hunit, (List.cons.inj (List.append_cancel_left h)).2⟩

/-- What follows a blank behind the opening quote ends with the closing one and the unit, or is the
unit alone. -/
theorem quoted_back {front value b : Bytes} {unit : Unit} (hfront : 0x22 ∈ front)
    (h : front ++ 0x20 :: b = (0x22 :: value) ++ 0x22 :: putUnit unit) :
    (∃ c, b = c ++ 0x22 :: putUnit unit) ∨
      (front.getLast? = some 0x22 ∧ unit ≠ .none ∧ b = unit.put) := by
  by_cases hquote : 0x22 ∈ b
  · obtain ⟨c, d, rfl, hd⟩ := exists_last_of_mem hquote
    have hsplit : (front ++ 0x20 :: c) ++ 0x22 :: d = (0x22 :: value) ++ 0x22 :: putUnit unit := by
      simpa using h
    obtain ⟨-, rfl⟩ := append_cons_inj_last hd (quote_notMem_putUnit unit) hsplit
    exact .inl ⟨c, rfl⟩
  · -- the last quote stands in front of the blank
    obtain ⟨c, d, rfl, hd⟩ := exists_last_of_mem hfront
    have hrest : 0x22 ∉ d ++ 0x20 :: b := by simp [hd, hquote]
    rw [List.append_assoc, List.cons_append] at h
    obtain ⟨-, hunit⟩ := append_cons_inj_last hrest (quote_notMem_putUnit unit) h
    obtain ⟨rfl, hb⟩ := unit_of_blank hunit
    exact .inr ⟨by simp, hb⟩

/-- How a body ends that has a line feed, a key and a blank in it: with a unit alone, when nothing
stands in quotes, or with a quote and perhaps a unit. -/
theorem IsBody.back {front key b : Bytes} (h : IsBody (front ++ LF :: (key ++ 0x20 :: b))) :
    (0x20 ∉ front ∧ ∃ unit : Unit, unit ≠ .none ∧ b = unit.put) ∨
      (front.head? = some 0x22 ∧ ((∃ c unit, b = c ++ 0x22 :: putUnit unit) ∨
        (key.getLast? = some 0x22 ∧ ∃ unit : Unit, unit ≠ .none ∧ b = unit.put))) := by
  rw [← List.cons_append, ← List.append_assoc] at h
  generalize heq : (front ++ LF :: key) ++ 0x20 :: b = whole at h
  cases h with
  | @plain value unit hvalue =>
      obtain ⟨hfront, hunit⟩ := plain_back hvalue heq
      exact .inl ⟨fun hmem => hfront (List.mem_append_left _ hmem), unit, hunit⟩
  | quoted value unit =>
      cases front with
      | nil => exact absurd (List.cons.inj heq).1 (by decide)
      | cons a front =>
          obtain rfl : a = 0x22 := (List.cons.inj heq).1
          refine .inr ⟨rfl, ?_⟩
          rcases quoted_back (by simp) heq with ⟨c, rfl⟩ | ⟨hlast, hunit⟩
          · exact .inl ⟨c, unit, rfl⟩
          · refine .inr ⟨?_, unit, hunit⟩
            rw [List.getLast?_append_of_ne_nil _ (List.cons_ne_nil LF key)] at hlast
            cases key with
            | nil => exact absurd (Option.some.inj hlast) (by decide)
            | cons a key => rwa [List.getLast?_cons_cons] at hlast

theorem isBody_of_notMem {b : Bytes} (h : 0x20 ∉ b) : IsBody b := by
  have hplain : IsBody (b ++ putUnit .none) := .plain h
  rwa [putUnit_none, List.append_nil] at hplain

theorem IsBody.of_append_quote {c : Bytes} {unit : Unit}
    (h : 0x20 ∉ c ++ 0x22 :: putUnit unit ∨ (c ++ 0x22 :: putUnit unit).head? = some 0x22) :
    IsBody (c ++ 0x22 :: putUnit unit) := by
  rcases h with h | h
  · exact isBody_of_notMem h
  · cases c with
    | nil =>
        have hplain : IsBody ([0x22] ++ putUnit unit) := .plain (by decide)
        exact hplain
    | cons a c =>
        obtain rfl : a = 0x22 := Option.some.inj h
        exact .quoted c unit

theorem overlapping_isRow : Overlapping LF IsRow := by
  rintro p t q ⟨r, hr, hp⟩ ⟨s, hs, hq⟩
  rw [Row.text_eq] at hp hq
  obtain ⟨b, rfl, hbody⟩ := exists_body_of_LF hs.2 hq
  obtain ⟨front, -, hback⟩ := exists_body_of_LF hr.2 hp
  refine (isRow_iff hs.1 hs.2).mpr ?_
  have hfront : 0x20 ∉ b ∨ b.head? = some 0x22 := IsBody.front (hbody ▸ s.isBody_body)
  rcases IsBody.back (hback ▸ r.isBody_body) with
    ⟨-, unit, -, rfl⟩ | ⟨-, ⟨c, unit, rfl⟩ | ⟨-, unit, -, rfl⟩⟩
  · exact isBody_of_notMem (blank_notMem_put unit)
  · exact .of_append_quote hfront
  · exact isBody_of_notMem (blank_notMem_put unit)

/-! ### Rows that read as one -/

/-- A run of rows is one row if its first one opens and its last one closes a quote, or if it is a
value without blanks and the name of a unit. -/
theorem isRow_join_iff {r s : Row} (mid : List Row) (hr : r.Clean) (hs : s.Clean) :
    IsRow (r.text ++ more LF (mid.map Row.text ++ [s.text])) ↔
      (r.Opens ∧ s.Closes) ∨ (mid = [] ∧ r.Plain ∧ s.UnitName) := by
  have htext : r.text ++ more LF (mid.map Row.text ++ [s.text]) =
      r.key ++ 0x20 :: ((r.body ++ more LF (mid.map Row.text)) ++
        LF :: (s.key ++ 0x20 :: s.body)) := by
    simp [Row.text_eq]
  rw [htext, isRow_iff hr.1 hr.2]
  constructor
  · intro hbody
    rcases IsBody.back hbody with ⟨hblank, hunit⟩ | ⟨hhead, hend⟩
    · rw [List.mem_append, not_or] at hblank
      cases mid with
      | nil => exact .inr ⟨rfl, Row.blank_notMem_body.mp hblank.1, Row.unitName_iff.mpr hunit⟩
      | cons row mid => exact absurd (by simp [Row.text_eq]) hblank.2
    · have hopens : r.body.head? = some 0x22 := by
        cases hr' : r.body with
        | cons a b => rwa [hr'] at hhead
        | nil =>
            rw [hr'] at hhead
            cases mid with
            | nil => cases hhead
            | cons row mid => exact absurd (Option.some.inj hhead) (by decide)
      refine .inl ⟨Row.opens_iff.mpr hopens, ?_⟩
      rcases hend with hquote | ⟨hkey, hunit⟩
      · exact (Row.body_quote_iff.mp hquote).imp_right .inl
      · exact .inr (.inr ⟨hkey, Row.unitName_iff.mpr hunit⟩)
  · rintro (⟨hopens, hcloses⟩ | ⟨rfl, hplain, hunit⟩)
    · obtain ⟨front, hfront⟩ := List.head?_eq_some_iff.mp (Row.opens_iff.mp hopens)
      have hend : ∃ c unit, s.key ++ 0x20 :: s.body = c ++ 0x22 :: putUnit unit := by
        rcases or_assoc.mpr hcloses with hquote | ⟨hkey, hunit⟩
        · obtain ⟨c, unit, hc⟩ := Row.body_quote_iff.mpr hquote
          exact ⟨s.key ++ 0x20 :: c, unit, by simp [hc]⟩
        · obtain ⟨unit, hunit, hbody⟩ := Row.unitName_iff.mp hunit
          obtain ⟨c, hc⟩ := List.getLast?_eq_some_iff.mp hkey
          exact ⟨c, unit, by simp [hc, hbody, putUnit_of_ne hunit]⟩
      obtain ⟨c, unit, hc⟩ := hend
      have hquoted := IsBody.quoted (front ++ more LF (mid.map Row.text) ++ LF :: c) unit
      rw [hc, hfront]
      simpa using hquoted
    · obtain ⟨unit, hne, hbody⟩ := Row.unitName_iff.mp hunit
      have hvalue : 0x20 ∉ r.body ++ LF :: s.key := by
        simp [Row.blank_notMem_body.mpr hplain, hs.1, show (0x20 : UInt8) ≠ LF by decide]
      have hplain' : IsBody (r.body ++ LF :: s.key ++ putUnit unit) := .plain hvalue
      rw [putUnit_of_ne hne] at hplain'
      simpa [hbody] using hplain'

/-! ### Rows that can be cut -/

theorem made_iff {t : Bytes} : Made LF IsRow t ↔ ReadsAsRows t := by
  -- by induction on the rows
  constructor
  · rintro ⟨cs, hcs, hmore⟩
    induction cs generalizing t with
    | nil => cases hmore
    | cons c cs ih =>
        obtain ⟨⟨row, hrow, rfl⟩, hrest⟩ := List.forall_mem_cons.mp hcs
        rw [Cutting.more_cons, List.cons.injEq, and_iff_right rfl] at hmore
        rw [← hmore, Row.text_eq]
        cases cs with
        | nil =>
            rw [Cutting.more_nil, List.append_nil]
            exact .row hrow.1 hrow.2 row.isBody_body
        | cons d cs =>
            rw [Cutting.more_cons, List.append_assoc, List.cons_append]
            exact .rows hrow.1 hrow.2 row.isBody_body (ih hrest rfl)
  · intro h
    induction h with
    | @row key body hblank hLF hbody =>
        exact ⟨[key ++ 0x20 :: body], by simpa using (isRow_iff hblank hLF).mpr hbody, by simp⟩
    | @rows key body rest hblank hLF hbody hrest ih =>
        obtain ⟨cs, hcs, hmore⟩ := ih
        exact ⟨(key ++ 0x20 :: body) :: cs,
          List.forall_mem_cons.mpr ⟨(isRow_iff hblank hLF).mpr hbody, hcs⟩, by simp [hmore]⟩

theorem ReadsAsRows.blank_mem {t : Bytes} (h : ReadsAsRows t) : 0x20 ∈ t := by
  cases h <;> simp

theorem splits_iff_body {row : Row} (hrow : row.Clean) : Splits LF IsRow row.text ↔
    ∃ front rest, row.body = front ++ LF :: rest ∧ IsBody front ∧ ReadsAsRows rest := by
  constructor
  · rintro ⟨c, rest, hc, hrest, htext⟩
    rw [Row.text_eq] at htext
    obtain ⟨front, rfl, hbody⟩ := exists_body_of_LF hrow.2 htext
    exact ⟨front, rest, hbody, (isRow_iff hrow.1 hrow.2).mp hc, made_iff.mp hrest⟩
  · rintro ⟨front, rest, hbody, hfront, hrest⟩
    exact ⟨row.key ++ 0x20 :: front, rest, (isRow_iff hrow.1 hrow.2).mpr hfront, made_iff.mpr hrest,
      by simp [Row.text_eq, hbody]⟩

theorem splits_iff {row : Row} (hrow : row.Clean) : Splits LF IsRow row.text ↔ row.Cuttable := by
  rw [splits_iff_body hrow]
  unfold Row.body Row.Cuttable
  split_ifs with hblank
  · rw [or_iff_right (fun h => h.1 hblank), and_iff_right hblank]
    constructor
    · rintro ⟨front, rest, heq, hfront, hrest⟩
      cases front with
      | nil => exact absurd (List.cons.inj heq).1 (by decide)
      | cons a front =>
          obtain ⟨rfl, htail⟩ := List.cons.inj heq
          rcases List.append_eq_append_iff.mp htail with ⟨s, rfl, hs⟩ | ⟨s, hvalue, hs⟩
          · have hmem : LF ∈ 0x22 :: putUnit row.unit := by simp [hs]
            simp [LF_notMem_putUnit, show LF ≠ 0x22 by decide] at hmem
          · cases s with
            | nil => exact absurd (List.cons.inj hs).1 (by decide)
            | cons b back =>
                obtain ⟨rfl, rfl⟩ := List.cons.inj hs
                exact ⟨front, back, hvalue, hfront, hrest⟩
    · rintro ⟨front, back, hvalue, hfront, hback⟩
      exact ⟨0x22 :: front, _, by simp [hvalue], hfront, hback⟩
  · rw [or_iff_left (fun h => hblank h.1), and_iff_right hblank]
    constructor
    · rintro ⟨front, rest, heq, -, hrest⟩
      have hLF : LF ∈ row.value ++ putUnit row.unit := by simp [heq]
      exact ⟨(List.mem_append.mp hLF).resolve_right (LF_notMem_putUnit row.unit),
        ne_none_of_blank hblank (by simp [heq, hrest.blank_mem])⟩
    · rintro ⟨hLF, hunit⟩
      obtain ⟨front, key, hvalue, hkey⟩ := exists_last_of_mem hLF
      rw [hvalue, List.mem_append, List.mem_cons, not_or, not_or] at hblank
      refine ⟨front, key ++ 0x20 :: row.unit.put, ?_, isBody_of_notMem hblank.1, ?_⟩
      · simp [hvalue, putUnit_of_ne hunit]
      · exact .row hblank.2.2 hkey (isBody_of_notMem (blank_notMem_put row.unit))

/-! ### Tables -/

section

variable {α : Type} [Displayed α]

theorem simpleTableLine_eq (depth : ℕ) (item : TableItem α) :
    simpleTableLine depth item = rowOf depth item >>= fun row => .ret row.text := by
  unfold simpleTableLine rowOf
  cases Displayed.put depth item.value <;> rfl

theorem tableWriteSimpleTable_eq (depth : ℕ) (v : List (TableItem α)) :
    tableWriteSimpleTable depth v = rowsOf depth v >>= fun rows => .ret (simpleTable rows) := by
  unfold tableWriteSimpleTable
  induction v with
  | nil => rfl
  | cons item items ih =>
      cases items with
      | nil =>
          rw [putLines, simpleTableLine_eq, rowsOf, rowsOf]
          cases rowOf depth item <;> simp [simpleTable]
      | cons next items =>
          rw [putLines, simpleTableLine_eq, rowsOf, ih]
          · cases rowOf depth item with
            | ret row =>
                cases hrows : rowsOf depth (next :: items) with
                | ret rows =>
                    obtain ⟨row', -, h⟩ := Outcome.bind_eq_ret.mp hrows
                    obtain ⟨rows', -, h⟩ := Outcome.bind_eq_ret.mp h
                    obtain rfl := Outcome.ret.inj h
                    simp [simpleTable, List.intercalate_cons_cons]
                | throw e => rfl
                | fault => rfl
                | pending => rfl
            | throw e => rfl
            | fault => rfl
            | pending => rfl
          · simp

end

/-- No row can be cut and no run is one row. -/
theorem finest_iff {rows : List Row} (hrows : ∀ row ∈ rows, row.Clean) :
    Finest LF IsRow (rows.map Row.text) ↔ Unambiguous rows := by
  have huncut : (∀ b ∈ rows.map Row.text, ¬ Splits LF IsRow b) ↔
      ∀ row ∈ rows, ¬ row.Cuttable := by
    rw [List.forall_mem_map]
    exact forall₂_congr fun row hrow => not_congr (splits_iff (hrows row hrow))
  have hruns : (∀ b mid s, b :: (mid ++ [s]) <:+: rows.map Row.text →
        ¬ IsRow (b ++ more LF (mid ++ [s]))) ↔
      ∀ r mid s, r :: (mid ++ [s]) <:+: rows →
        ¬ ((r.Opens ∧ s.Closes) ∨ (mid = [] ∧ r.Plain ∧ s.UnitName)) := by
    have hjoin {r s : Row} {mid : List Row} (hrun : r :: (mid ++ [s]) <:+: rows) :=
      isRow_join_iff mid (hrows r (hrun.subset (by simp))) (hrows s (hrun.subset (by simp)))
    constructor
    · intro h r mid s hrun hR
      exact h _ _ _ (by simpa using hrun.map Row.text) ((hjoin hrun).mpr hR)
    · intro h b mid s hlines hrow
      obtain ⟨run, hrun, heq⟩ := List.infix_map_iff.mp hlines
      obtain ⟨r, run, rfl, rfl, hmap⟩ := List.map_eq_cons_iff.mp heq.symm
      obtain ⟨mid, last, rfl, rfl, hlast⟩ := List.map_eq_append_iff.mp hmap
      obtain ⟨s, rfl, rfl⟩ := List.map_eq_singleton_iff.mp hlast
      exact h r mid s hrun ((hjoin hrun).mp hrow)
  constructor
  · rintro ⟨huncut', hunjoined⟩
    obtain ⟨hpairs, hchain⟩ := Cutting.forall_runs_iff.mp (hruns.mp hunjoined)
    exact ⟨huncut.mp huncut', hpairs, hchain⟩
  · rintro ⟨huncut', hpairs, hchain⟩
    exact ⟨huncut.mpr huncut', hruns.mpr (Cutting.forall_runs_iff.mpr ⟨hpairs, hchain⟩)⟩

theorem exists_rows {lines : List Bytes} (h : ∀ line ∈ lines, IsRow line) :
    ∃ rows : List Row, (∀ row ∈ rows, row.Clean) ∧ rows.map Row.text = lines := by
  induction lines with
  | nil => exact ⟨[], by simp, rfl⟩
  | cons line lines ih =>
      obtain ⟨⟨row, hrow, rfl⟩, hrest⟩ := List.forall_mem_cons.mp h
      obtain ⟨rows, hrows, rfl⟩ := ih hrest
      exact ⟨row :: rows, List.forall_mem_cons.mpr ⟨hrow, hrows⟩, rfl⟩

theorem map_text_injective {rows others : List Row} (hrows : ∀ row ∈ rows, row.Clean)
    (hothers : ∀ row ∈ others, row.Clean) (h : others.map Row.text = rows.map Row.text) :
    others = rows := by
  induction rows generalizing others with
  | nil => exact List.map_eq_nil_iff.mp h
  | cons row rows ih =>
      obtain ⟨other, others, rfl, htext, hrest⟩ := List.map_eq_cons_iff.mp h
      rw [List.forall_mem_cons] at hrows hothers
      rw [Row.text_injective hothers.1 hrows.1 htext, ih hrows.2 hothers.2 hrest]

theorem text_ne_nil (rows : List Row) : [] ∉ rows.map Row.text := by
  simp [Row.text_eq]

theorem simpleTable_unique_iff {rows : List Row} (hrows : ∀ row ∈ rows, row.Clean) :
    (∀ others : List Row, (∀ row ∈ others, row.Clean) →
      simpleTable others = simpleTable rows → others = rows) ↔ Unambiguous rows := by
  have hblocks : ∀ b ∈ rows.map Row.text, IsRow b := by
    rw [List.forall_mem_map]
    exact fun row hrow => ⟨row, hrows row hrow, rfl⟩
  rw [← finest_iff hrows, ← Cutting.cut_unique_iff overlapping_isRow hblocks]
  have htext (others : List Row) : simpleTable others = simpleTable rows ↔
      more LF (others.map Row.text) = more LF (rows.map Row.text) :=
    Cutting.intercalate_eq_iff (text_ne_nil others) (text_ne_nil rows)
  constructor
  · intro h lines hlines hmore
    obtain ⟨others, hothers, rfl⟩ := exists_rows hlines
    rw [h others hothers ((htext others).mpr hmore)]
  · intro h others hothers heq
    have hlines : ∀ line ∈ others.map Row.text, IsRow line := by
      rw [List.forall_mem_map]
      exact fun row hrow => ⟨row, hothers row hrow, rfl⟩
    exact map_text_injective hrows hothers (h _ hlines ((htext others).mp heq))

/-- **A simple table** determines its rows, whatever table it is compared with, if and only if none
of its rows can be cut at a line feed and no two rows make the rows between them one value. -/
theorem simple_table_determines_iff {α : Type} [Displayed α] (depth : ℕ) (v : List (TableItem α))
    {rows : List Row} (hv : rowsOf depth v = .ret rows) (hrows : ∀ row ∈ rows, row.Clean) :
    (∀ others : List Row, (∀ row ∈ others, row.Clean) →
      tableWriteSimpleTable depth v = .ret (simpleTable others) → others = rows) ↔
      Unambiguous rows := by
  rw [← simpleTable_unique_iff hrows, tableWriteSimpleTable_eq, hv]
  refine forall₂_congr fun others _ => imp_congr_left ?_
  rw [Outcome.ret_bind, Outcome.ret.injEq, eq_comm]

/-- A serial number with a blank, among rows with and without a unit, one of which has the name of a
unit for its value. -/
theorem simple_table_determines_serial_number :
    let v : List (TableItem P18.Variant) :=
      [⟨"voltage", "Voltage", .string (ascii "230"), .V⟩,
        ⟨"type", "Type", .string (ascii "V"), .none⟩,
        ⟨"sn", "Serial number", .string (ascii "92 931"), .none⟩,
        ⟨"mode", "Working mode", .string (ascii "Fault"), .none⟩]
    ∀ others : List Row, (∀ row ∈ others, row.Clean) →
      tableWriteSimpleTable 0 v = .ret (simpleTable others) →
      others = [⟨ascii "voltage", ascii "230", .V⟩, ⟨ascii "type", ascii "V", .none⟩,
        ⟨ascii "sn", ascii "92 931", .none⟩, ⟨ascii "mode", ascii "Fault", .none⟩] := by
  refine (simple_table_determines_iff 0 _ rfl (by decide)).mpr ⟨fun row hrow => ?_, ?_, ?_⟩
  · have hLF : ∀ row ∈ [(⟨ascii "voltage", ascii "230", .V⟩ : Row),
        ⟨ascii "type", ascii "V", .none⟩, ⟨ascii "sn", ascii "92 931", .none⟩,
        ⟨ascii "mode", ascii "Fault", .none⟩], LF ∉ row.value := by
      decide
    exact Row.not_cuttable (hLF row hrow)
  · -- only the serial number has quotes
    apply List.Pairwise.imp (R := fun r s : Row =>
      ¬ ((0x20 ∈ r.value ∨ r.value.head? = some 0x22) ∧
        (0x20 ∈ s.value ∨ s.value.getLast? = some 0x22 ∨ s.key.getLast? = some 0x22)))
    · exact fun h ⟨hopens, hcloses⟩ => h ⟨hopens, hcloses.imp_right (Or.imp_right And.left)⟩
    · decide
  · refine .cons_cons (fun h => absurd h.1.2 (by decide)) (.cons_cons (fun h => ?_)
      (.cons_cons (fun h => absurd h.1.1 (by decide)) (.singleton _)))
    obtain ⟨-, -, unit, -, hvalue⟩ := h
    have hblank : (0x20 : UInt8) ∈ unit.put := hvalue ▸ by decide
    exact absurd hblank (blank_notMem_put unit)

/-- The serial number `1⏎x 2` reads as two rows. -/
theorem simple_table_line_feed : ¬ ∀ (depth : ℕ) (v w : List (TableItem P18.Variant))
    (rows others : List Row), rowsOf depth v = .ret rows → rowsOf depth w = .ret others →
      (∀ row ∈ rows, row.Clean) → (∀ row ∈ others, row.Clean) → rows ≠ others →
      tableWriteSimpleTable depth v ≠ tableWriteSimpleTable depth w := fun h =>
  h 0 [⟨"sn", "Serial number", .string (ascii "1\nx 2"), .none⟩]
    [⟨"sn", "Serial number", .string (ascii "\"1"), .none⟩,
      ⟨"x", "x", .string (ascii "2\""), .none⟩]
    [⟨ascii "sn", ascii "1\nx 2", .none⟩] [⟨ascii "sn", ascii "\"1", .none⟩,
      ⟨ascii "x", ascii "2\"", .none⟩]
    rfl rfl (by decide) (by decide) (by decide) (by decide)

end InverterTools.Formatter
