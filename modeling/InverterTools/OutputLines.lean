import InverterTools.Lib.Lines
import InverterTools.Payload

/-! # Which outputs keep to the lines of the protocol (`formatter/formatter.h`)

The formatter puts `std::endl` between lines, and writes texts as they are.  So in the table formats
an output consists of lines ended by CR LF only when there is one of them (`not_lines_table`,
`lines_table_iff`), while JSON is always one line (`lines_of_json`).  `lines_response_iff` says
which responses of the device are shown so. -/

namespace InverterTools

open P18 (CommandType Machine)

namespace P18

/-! ### Values -/

namespace Variant

theorem isPrintable_putTenths (n : ℕ) : isPrintable (putTenths n) = true := by
  have hpart {s : Bytes} (k : ℕ) (hs : s ⊆ decimal k) : isPrintable s = true :=
    isPrintable_of_subset hs (isPrintable_decimal k)
  have hfixed (k : ℕ) : isPrintable (fixed 2 k) = true :=
    isPrintable_of_allDigits (allDigits_zeroPad (allDigits_decimal k))
  have htrim (s : Bytes) : trimZeros s ⊆ s := fun b hb =>
    List.mem_reverse.mp (List.dropWhile_subset _ (List.mem_reverse.mp hb))
  have hpoint : isPrintable (ascii ".") = true := by decide
  have hexp : isPrintable (ascii "e+") = true := by decide
  have hfrac (k : ℕ) : isPrintable (trimZeros ((decimal k).drop 1)) = true :=
    hpart k fun b hb => List.drop_subset 1 _ (htrim _ hb)
  have hlead (k : ℕ) : isPrintable ((decimal k).take 1) = true := hpart k (List.take_subset 1 _)
  have hnil : isPrintable [] = true := rfl
  unfold putTenths
  dsimp only
  split_ifs <;> simp only [isPrintable_append, isPrintable_decimal, hpoint, hexp, hfixed, hfrac,
    hlead, hnil, and_self]

theorem isPrintable_listed {v : EnumVal} {s : Bytes} (h : v.listed = some s) :
    isPrintable s = true := by
  have hnames : ∀ e ∈ v.type.strings, isPrintable (ascii e.2) = true := by
    cases v.type <;> decide
  obtain ⟨e, he, rfl⟩ := Option.map_eq_some_iff.mp h
  exact hnames e (List.mem_of_find?_eq_some he)

theorem isPrintable_put {v : Variant} {depth : ℕ} {text : Bytes} (hv : ∀ s, v ≠ .string s)
    (h : v.put depth = .ret text) : isPrintable text = true := by
  cases v with
  | string s => exact absurd rfl (hv s)
  | bool b =>
      obtain rfl := Outcome.ret.inj h
      cases b <;> decide
  | double n =>
      obtain rfl := Outcome.ret.inj h
      exact isPrintable_putTenths n
  | enum v =>
      have h : v.put depth = .ret text := h
      cases hlisted : v.listed with
      | none =>
          rw [EnumVal.put_of_not_listed hlisted] at h
          cases h
      | some s =>
          rw [EnumVal.put_of_listed hlisted] at h
          obtain rfl := Outcome.ret.inj h
          exact isPrintable_listed hlisted
  | _ =>
      obtain rfl := Outcome.ret.inj h
      exact isPrintable_decimal _

theorem put_no_CR {v : Variant} {depth : ℕ} {text : Bytes} (hv : ∀ s, v = .string s → CR ∉ s)
    (h : v.put depth = .ret text) : CR ∉ text := by
  by_cases hs : ∃ s, v = .string s
  · obtain ⟨s, rfl⟩ := hs
    obtain rfl := Outcome.ret.inj h
    exact hv s rfl
  · exact notMem_of_isPrintable (isPrintable_put (fun s heq => hs ⟨s, heq⟩) h) (by decide)

end Variant

theorem Val.variant_eq_string {v : Val} {s : Bytes} : v.variant = .string s ↔ v = .text s := by
  cases v <;> simp [Val.variant]

theorem Shown.value_no_CR {ms : List (Member × Val)} (hms : TextsClean ms) (shown : Shown) :
    ∀ s, shown.value ms = .string s → CR ∉ s := by
  intro s hs
  cases shown with
  | member m =>
      have hval : memberVal ms m = .text s := Val.variant_eq_string.mp hs
      unfold memberVal at hval
      cases hlookup : ms.lookup m with
      | none =>
          rw [hlookup] at hval
          cases hval
      | some v =>
          rw [hlookup] at hval
          obtain ⟨before, after, rfl, -⟩ := List.lookup_eq_some_iff.mp hlookup
          exact hms (m, v) (by simp) s hval
  | tenths m => cases hs
  | time h m =>
      obtain rfl := Variant.string.inj hs
      exact notMem_of_isPrintable (isPrintable_getTime _ _) (by decide)

end P18

/-! ### What the formatter writes -/

namespace Formatter

theorem CR_notMem_putUnit (unit : Unit) : CR ∉ putUnit unit := by
  cases unit <;> decide

/-- `std::endl` behind a line without a carriage return is a bare line feed. -/
theorem not_lines_of_putLines {β : Type} {put : β → Outcome Exn Bytes} {item next : β}
    {items : List β} {text : Bytes} (hCR : ∀ line, put item = .ret line → CR ∉ line)
    (h : putLines put (item :: next :: items) = .ret text) : ¬ Lines text := by
  rw [putLines] at h
  · obtain ⟨line, hline, h⟩ := Outcome.bind_eq_ret.mp h
    obtain ⟨rest, -, h⟩ := Outcome.bind_eq_ret.mp h
    obtain rfl := Outcome.ret.inj h
    intro hlines
    obtain ⟨hlast, -⟩ := (lines_iff.mp hlines).1 line rest (by simp)
    exact hCR line hline (List.mem_of_getLast? hlast)
  · simp

/-- What stands behind the value in a line, when it has no unit. -/
def lineEnd (format : Format) (value : Bytes) : Bytes :=
  if format = .simpleTable ∧ stringHas value 0x20 = true then ascii "\"" else []

section

variable {α : Type} [Displayed α] {depth : ℕ} {item : TableItem α}

theorem tableLine_no_CR {width : ℕ} {line : Bytes} (htitle : CR ∉ ascii item.title)
    (hvalue : ∀ value, Displayed.put depth item.value = .ret value → CR ∉ value)
    (h : tableLine depth width item = .ret line) : CR ∉ line := by
  obtain ⟨value, hput, h⟩ := Outcome.bind_eq_ret.mp h
  obtain rfl := Outcome.ret.inj h
  have hcolon : CR ∉ ascii ":" := by decide
  have hspace : CR ∉ ascii " " := by decide
  have hpad (n : ℕ) : CR ∉ List.replicate n (0x20 : UInt8) := fun hmem =>
    absurd (List.eq_of_mem_replicate hmem) (by decide)
  simp only [List.mem_append, not_or]
  exact ⟨⟨⟨⟨⟨htitle, hcolon⟩, hpad _⟩, hspace⟩, hvalue value hput⟩, CR_notMem_putUnit item.unit⟩

theorem simpleTableLine_no_CR {line : Bytes} (hkey : CR ∉ ascii item.key)
    (hvalue : ∀ value, Displayed.put depth item.value = .ret value → CR ∉ value)
    (h : simpleTableLine depth item = .ret line) : CR ∉ line := by
  obtain ⟨value, hput, h⟩ := Outcome.bind_eq_ret.mp h
  obtain rfl := Outcome.ret.inj h
  have hspace : CR ∉ ascii " " := by decide
  have hquote : CR ∉ if stringHas value 0x20 then ascii "\"" else [] := by
    split_ifs <;> decide
  simp only [List.mem_append, not_or]
  exact ⟨⟨⟨⟨⟨hkey, hspace⟩, hquote⟩, hvalue value hput⟩, hquote⟩, CR_notMem_putUnit item.unit⟩

theorem lines_tableLine_iff {width : ℕ} {line : Bytes} (htitle : LF ∉ ascii item.title)
    (hunit : item.unit = .none) (h : tableLine depth width item = .ret line) :
    ∃ value, Displayed.put depth item.value = .ret value ∧
      (Lines line ↔ Continues (value ++ lineEnd .table value)) := by
  obtain ⟨value, hput, h⟩ := Outcome.bind_eq_ret.mp h
  obtain rfl := Outcome.ret.inj h
  refine ⟨value, hput, ?_⟩
  have hcolon : LF ∉ ascii ":" := by decide
  have hspace : LF ∉ ascii " " := by decide
  have hpad (n : ℕ) : LF ∉ List.replicate n (0x20 : UInt8) := fun hmem =>
    absurd (List.eq_of_mem_replicate hmem) (by decide)
  have hlast : (ascii " ").getLast? ≠ some CR := by decide
  have hend : putUnit item.unit = lineEnd .table value := by
    rw [hunit, lineEnd, if_neg (by simp)]
    rfl
  rw [List.append_assoc, hend]
  refine lines_append_iff (by simp [show ascii " " ≠ [] by decide]) ?_ ?_
  · simp only [List.mem_append, not_or]
    exact ⟨⟨⟨htitle, hcolon⟩, hpad _⟩, hspace⟩
  · rw [List.getLast?_append_of_ne_nil _ (by decide)]
    exact hlast

theorem lines_simpleTableLine_iff {line : Bytes} (hkey : LF ∉ ascii item.key)
    (hunit : item.unit = .none) (h : simpleTableLine depth item = .ret line) :
    ∃ value, Displayed.put depth item.value = .ret value ∧
      (Lines line ↔ Continues (value ++ lineEnd .simpleTable value)) := by
  obtain ⟨value, hput, h⟩ := Outcome.bind_eq_ret.mp h
  obtain rfl := Outcome.ret.inj h
  refine ⟨value, hput, ?_⟩
  have hspace : LF ∉ ascii " " := by decide
  have hquote : LF ∉ lineEnd .simpleTable value ∧
      (ascii " " ++ lineEnd .simpleTable value).getLast? ≠ some CR := by
    unfold lineEnd
    split_ifs <;> decide
  have heq : (if stringHas value 0x20 then ascii "\"" else []) = lineEnd .simpleTable value := by
    simp [lineEnd]
  have hend : putUnit item.unit = [] := by
    rw [hunit]
    rfl
  rw [heq, hend, List.append_nil, List.append_assoc]
  refine lines_append_iff (by simp [show ascii " " ≠ [] by decide]) ?_ ?_
  · simp only [List.mem_append, not_or]
    exact ⟨⟨hkey, hspace⟩, hquote.1⟩
  · have hne : ascii " " ≠ [] := by decide
    rw [List.append_assoc, List.getLast?_append_of_ne_nil _ (by simp [hne])]
    exact hquote.2

end

theorem lines_statusWriteTable_iff (value : Bool) (message : Bytes) :
    Lines (statusWriteTable value message) ↔ Continues message := by
  have hstatus : LF ∉ if value then ascii "ok" else ascii "error" := by
    cases value <;> decide
  unfold statusWriteTable
  by_cases hm : message = []
  · rw [if_pos hm, List.append_nil, hm]
    exact iff_of_true (lines_of_notMem hstatus) (Continues.of_notMem (by simp))
  · have hcolon : LF ∉ ascii ": " := by decide
    rw [if_neg hm, ← List.append_assoc]
    refine lines_append_iff (by simp [show ascii ": " ≠ [] by decide]) ?_ ?_
    · rw [List.mem_append, not_or]
      exact ⟨hstatus, hcolon⟩
    · rw [List.getLast?_append_of_ne_nil _ (by decide)]
      decide

section

variable {α : Type} [Displayed α] {J : JsonDump} {depth : ℕ} {format : Format} {text : Bytes}

theorem dump_of_write {f : Formattable α} (hformat : format = .json ∨ format = .simpleJSON)
    (h : f.write J depth format = .ret text) : ∃ j, J.dump j = .ok text := by
  rcases hformat with rfl | rfl
  · cases f with
    | table v =>
        obtain ⟨data, -, h⟩ := Outcome.bind_eq_ret.mp h
        exact ⟨_, Outcome.lift_eq_ret.mp h⟩
    | list v =>
        obtain ⟨data, -, h⟩ := Outcome.bind_eq_ret.mp h
        exact ⟨_, Outcome.lift_eq_ret.mp h⟩
    | status value message => exact ⟨_, Outcome.lift_eq_ret.mp h⟩
  · cases f with
    | table v => exact ⟨_, Outcome.lift_eq_ret.mp h⟩
    | list v => exact ⟨_, Outcome.lift_eq_ret.mp h⟩
    | status value message => exact ⟨_, Outcome.lift_eq_ret.mp h⟩

theorem lines_of_json (hJ : J.EscapesControls) {f : Formattable α}
    (hformat : format = .json ∨ format = .simpleJSON) (h : f.write J depth format = .ret text) :
    Lines text := by
  obtain ⟨j, hj⟩ := dump_of_write hformat h
  exact lines_of_notMem ((hJ j text hj).notMem (by decide))

variable (hformat : format = .table ∨ format = .simpleTable)

include hformat

theorem not_lines_table {item next : TableItem α} {items : List (TableItem α)}
    (hkey : isPrintable (ascii item.key) = true) (htitle : isPrintable (ascii item.title) = true)
    (hvalue : ∀ value, Displayed.put depth item.value = .ret value → CR ∉ value)
    (h : (Formattable.table (item :: next :: items)).write J depth format = .ret text) :
    ¬ Lines text := by
  rcases hformat with rfl | rfl
  · refine not_lines_of_putLines (fun line hline => ?_) h
    exact tableLine_no_CR (notMem_of_isPrintable htitle (by decide)) hvalue hline
  · refine not_lines_of_putLines (fun line hline => ?_) h
    exact simpleTableLine_no_CR (notMem_of_isPrintable hkey (by decide)) hvalue hline

/-- A table with one line breaks where its value does. -/
theorem lines_table_iff {item : TableItem α} (hkey : isPrintable (ascii item.key) = true)
    (htitle : isPrintable (ascii item.title) = true) (hunit : item.unit = .none)
    (h : (Formattable.table [item]).write J depth format = .ret text) :
    ∃ value, Displayed.put depth item.value = .ret value ∧
      (Lines text ↔ Continues (value ++ lineEnd format value)) := by
  rcases hformat with rfl | rfl
  · exact lines_tableLine_iff (notMem_of_isPrintable htitle (by decide)) hunit h
  · exact lines_simpleTableLine_iff (notMem_of_isPrintable hkey (by decide)) hunit h

theorem lines_list_iff {v : List α}
    (hv : ∀ a ∈ v, ∀ value, Displayed.put depth a = .ret value → isPrintable value = true)
    (h : (Formattable.list v).write J depth format = .ret text) : Lines text ↔ v.length ≤ 1 := by
  have h : listWriteTable depth v = .ret text := by rcases hformat with rfl | rfl <;> exact h
  match v, hv with
  | [], _ =>
      obtain rfl := Outcome.ret.inj h
      exact iff_of_true (lines_of_notMem (by simp)) (by simp)
  | [a], hv =>
      have hLF := notMem_of_isPrintable (hv a (by simp) text h) (show LF < 0x20 by decide)
      exact iff_of_true (lines_of_notMem hLF) (by simp)
  | a :: b :: v, hv =>
      refine iff_of_false (not_lines_of_putLines (fun line hline => ?_) h) (by simp)
      exact notMem_of_isPrintable (hv a (by simp) line hline) (by decide)

theorem lines_status_iff {value : Bool} {message : Bytes}
    (h : (Formattable.status value message : Formattable α).write J depth format = .ret text) :
    Lines text ↔ Continues message := by
  have h : Outcome.ret (statusWriteTable value message) = (.ret text : Outcome Exn Bytes) := by
    rcases hformat with rfl | rfl <;> exact h
  obtain rfl := Outcome.ret.inj h
  exact lines_statusWriteTable_iff value message

end

end Formatter

namespace P18

open Formatter (Format Formattable JsonDump lineEnd)

/-! ### The output of a command -/

/-- The response is shown in one line, which no text in it breaks or ends. -/
def OneLine (format : Format) (response : Response) : Prop :=
  match response.command with
  | .getProtocolID | .getTotalGenerated | .getYearGenerated | .getMonthGenerated
  | .getDayGenerated | .getWorkingMode => True
  | .getSerialNumber => ∀ id, memberVal response.fields.fields .id = .text id →
      Continues (id ++ lineEnd format id)
  | .getAllowedChargeCurrents | .getAllowedACChargeCurrents =>
      response.fields.vector.length ≤ 1
  | command => command.isSet = true

section

variable {J : JsonDump} {depth : ℕ} {fmt : Format} {text : Bytes} {ms : List (Member × Val)}
  (hformat : fmt = .table ∨ fmt = .simpleTable)

include hformat

theorem not_lines_tableOf {l next : Line} {lines : List Line}
    (hkey : isPrintable (ascii l.key) = true) (htitle : isPrintable (ascii l.title) = true)
    (hms : TextsClean ms) (h : (tableOf (l :: next :: lines) ms).write J depth fmt = .ret text) :
    ¬ Lines text := by
  refine Formatter.not_lines_table hformat hkey htitle ?_ h
  intro value hput
  exact Variant.put_no_CR (Shown.value_no_CR hms l.shown) hput

/-- A single line breaks where the text in it does. -/
theorem lines_tableOf_iff {l : Line} (hkey : isPrintable (ascii l.key) = true)
    (htitle : isPrintable (ascii l.title) = true) (hunit : l.unit = .none)
    (h : (tableOf [l] ms).write J depth fmt = .ret text) :
    Lines text ↔ ∀ s, l.shown.value ms = .string s → Continues (s ++ lineEnd fmt s) := by
  obtain ⟨value, hput, hlines⟩ := Formatter.lines_table_iff hformat hkey htitle hunit h
  have hput : (l.shown.value ms).put depth = .ret value := hput
  rw [hlines]
  by_cases hs : ∃ s, l.shown.value ms = .string s
  · obtain ⟨s, hs⟩ := hs
    rw [hs] at hput ⊢
    obtain rfl := Outcome.ret.inj hput
    simp
  · have hnot (s : Bytes) : l.shown.value ms ≠ .string s := fun heq => hs ⟨s, heq⟩
    have hvalue : isPrintable value = true := Variant.isPrintable_put hnot hput
    have hend : LF ∉ lineEnd fmt value := by
      unfold lineEnd
      split_ifs <;> decide
    refine iff_of_true (Continues.of_notMem ?_) fun s heq => absurd heq (hnot s)
    rw [List.mem_append, not_or]
    exact ⟨notMem_of_isPrintable hvalue (by decide), hend⟩

/-- **The output of a command** in one of the table formats. -/
theorem lines_response_iff {r : Response} (hr : r.Received)
    (h : (format r.command r.raw r.fields).write J depth fmt = .ret text) :
    Lines text ↔ OneLine fmt r := by
  obtain ⟨c, raw, rawSize, d⟩ := r
  obtain ⟨hvalid, hdecoded, hle, hno⟩ := hr
  have h5 (hc : c.isSet = false) : 5 ≤ rawSize := five_le_of_validate hc hvalid
  have hms (hc : c ≠ .getSerialNumber) : TextsClean d.fields :=
    textsClean_of_unpack h5 hle hno hc hdecoded
  have hmany {l next : Line} {lines : List Line} (hc : c ≠ .getSerialNumber)
      (hkey : isPrintable (ascii l.key) = true) (htitle : isPrintable (ascii l.title) = true)
      (hwrite : (tableOf (l :: next :: lines) d.fields).write J depth fmt = .ret text) :
      ¬ Lines text := not_lines_tableOf hformat hkey htitle (hms hc) hwrite
  have hlist (hwrite : (Formattable.list (d.vector.map Variant.unsigned)).write J depth fmt =
      .ret text) :
      Lines text ↔ d.vector.length ≤ 1 := by
    have hv : ∀ a ∈ d.vector.map Variant.unsigned, ∀ value,
        Formatter.Displayed.put depth a = .ret value → isPrintable value = true := by
      intro a ha value hput
      obtain ⟨n, -, rfl⟩ := List.mem_map.mp ha
      exact Variant.isPrintable_put (by simp) hput
    rw [Formatter.lines_list_iff hformat hv hwrite, List.length_map]
  cases c
  case getSerialNumber =>
    refine (lines_tableOf_iff hformat (by decide) (by decide) rfl h).trans ?_
    exact forall_congr' fun s => imp_congr_left Val.variant_eq_string
  case getProtocolID =>
    obtain ⟨id, rfl⟩ := exists_protocolID hdecoded
    refine iff_of_true ((lines_tableOf_iff hformat (by decide) (by decide) rfl h).mpr ?_) trivial
    exact fun s hs => Variant.noConfusion hs
  case getTotalGenerated | getYearGenerated | getMonthGenerated | getDayGenerated =>
    obtain ⟨wh, rfl⟩ := exists_totalGenerated hdecoded
    refine iff_of_true ((lines_tableOf_iff hformat (by decide) (by decide) rfl h).mpr ?_) trivial
    exact fun s hs => Variant.noConfusion hs
  case getWorkingMode =>
    obtain ⟨mode, rfl⟩ := exists_workingMode hdecoded
    refine iff_of_true ((lines_tableOf_iff hformat (by decide) (by decide) rfl h).mpr ?_) trivial
    exact fun s hs => Variant.noConfusion hs
  case getAllowedChargeCurrents | getAllowedACChargeCurrents => exact hlist h
  case getCurrentTime | getCPUVersion | getRatedInformation | getGeneralStatus
      | getFaultsAndWarnings | getFlagsAndStatuses | getRatedDefaults | getParallelRatedInformation
      | getACChargeTimeBucket | getACSupplyTimeBucket =>
    exact iff_of_false (hmany (by decide) (by decide) (by decide) h) Bool.false_ne_true
  case getParallelGeneralStatus =>
    refine iff_of_false ?_ Bool.false_ne_true
    unfold format at h
    dsimp only at h
    split_ifs at h
    · exact hmany (by decide) (by decide) (by decide) h
    · exact hmany (by decide) (by decide) (by decide) h
  -- set commands are answered with a status
  all_goals
    refine ((Formatter.lines_status_iff hformat h).trans ?_)
    exact iff_of_true (Continues.of_notMem (by simp)) rfl

end

end P18

end InverterTools
