import InverterTools.Util
import InverterTools.Lib.Json

/-! # Output (`formatter/formatter.h`)

A `Formattable` is a table, a list or a status, written in one of four formats.  Tables and lists
are generic in what they hold; `Displayed` is the interface the source asks of it.  Writing ends
with a text, with the exception of the JSON serialiser, or not at all. -/

namespace InverterTools.Formatter

/-- `Unit`. -/
inductive Unit where
  | none
  | V
  | A
  | Wh
  | VA
  | Hz
  | percentage
  | celsius
deriving DecidableEq, Repr

/-- `operator<<`. -/
def Unit.put : Unit → Bytes
  | none => []
  | V => ascii "V"
  | A => ascii "A"
  | Wh => ascii "Wh"
  | VA => ascii "VA"
  | Hz => ascii "Hz"
  | percentage => ascii "%"
  | celsius => ascii "°C"

/-- `Format`. -/
inductive Format where
  | table
  | simpleTable
  | json
  | simpleJSON
deriving DecidableEq, Repr

/-- What a value has to offer: `operator<<`, `toJSON()` and `toSimpleJSON()`.  Printing takes a
bound on the calls that print a value through itself. -/
class Displayed (α : Type) where
  put : ℕ → α → Outcome Exn Bytes
  toJSON : ℕ → α → Outcome Exn Json
  toSimpleJSON : α → Json

/-- `TableItem`. -/
structure TableItem (α : Type) where
  key : String
  title : String
  value : α
  unit : Unit
deriving DecidableEq, Repr

/-- The failures of `json::dump`: a `type_error` with a plain text. -/
def DumpError (e : Exn) : Prop := e.cls = .typeError ∧ isAscii e.what = true

/-- `nlohmann::json`'s `dump` with default arguments. -/
abbrev JsonDump := Dumper Exn DumpError

/-- A serialiser with the error of a text that starts with the byte `FF`. -/
def textDump : JsonDump :=
  Dumper.compact (e := ⟨.typeError,
    ascii "[json.exception.type_error.316] invalid UTF-8 byte at index 0: 0xFF"⟩)
    ⟨rfl, by decide⟩

variable {α : Type} [Displayed α]

/-- One line for every item, with `std::endl` between them. -/
def putLines {β : Type} (put : β → Outcome Exn Bytes) : List β → Outcome Exn Bytes
  | [] => .ret []
  | [item] => put item
  | item :: items => do
      let line ← put item
      let rest ← putLines put items
      pure (line ++ [LF] ++ rest)

/-- `" " << item.unit`, unless there is none. -/
def putUnit (unit : Unit) : Bytes := if unit = .none then [] else ascii " " ++ unit.put

/-- A line of `Table::writeSimpleTable`. -/
def simpleTableLine (depth : ℕ) (item : TableItem α) : Outcome Exn Bytes := do
  let value ← Displayed.put depth item.value
  let quote := if stringHas value 0x20 then ascii "\"" else []
  pure (ascii item.key ++ ascii " " ++ quote ++ value ++ quote ++ putUnit item.unit)

/-- `Table::writeSimpleTable`. -/
def tableWriteSimpleTable (depth : ℕ) (v : List (TableItem α)) : Outcome Exn Bytes :=
  putLines (simpleTableLine depth) v

/-- The width of the first column, with the colon. -/
def maxWidth (v : List (TableItem α)) : ℕ :=
  v.foldl (fun width item => max width ((ascii item.title).length + 1)) 0

/-- A line of `Table::writeTable`. -/
def tableLine (depth width : ℕ) (item : TableItem α) : Outcome Exn Bytes := do
  let title := ascii item.title ++ ascii ":"
  let value ← Displayed.put depth item.value
  pure (title ++ List.replicate (width - title.length) 0x20 ++ ascii " " ++ value ++
    putUnit item.unit)

/-- `Table::writeTable`. -/
def tableWriteTable (depth : ℕ) (v : List (TableItem α)) : Outcome Exn Bytes :=
  putLines (tableLine depth (maxWidth v)) v

/-- The members of `data` in `Table::writeJSON`.  `jval` is a sorted `json`. -/
def tableData (depth : ℕ) : List (TableItem α) → Outcome Exn (List (Bytes × Json))
  | [] => .ret []
  | item :: items => do
      let value ← Displayed.toJSON depth item.value
      let rest ← tableData depth items
      if item.unit = .none then pure ((ascii item.key, value) :: rest)
      else
        let jval := Json.object [(ascii "unit", .string item.unit.put), (ascii "value", value)]
        pure ((ascii item.key, jval) :: rest)

/-- `{"result": "ok", "data": ...}`. -/
def okJSON (data : Json) : Json :=
  .object [(ascii "result", .string (ascii "ok")), (ascii "data", data)]

/-- An object that stays `null` while it is empty. -/
def objectOrNull (ms : List (Bytes × Json)) : Json := if ms = [] then .null else .object ms

/-- `Table::writeJSON`. -/
def tableWriteJSON (J : JsonDump) (depth : ℕ) (v : List (TableItem α)) : Outcome Exn Bytes := do
  let data ← tableData depth v
  Outcome.lift (J.dump (okJSON (objectOrNull data)))

/-- `Table::writeSimpleJSON`. -/
def tableWriteSimpleJSON (J : JsonDump) (v : List (TableItem α)) : Outcome Exn Bytes :=
  Outcome.lift (J.dump (okJSON (objectOrNull
    (v.map (fun item => (ascii item.key, Displayed.toSimpleJSON item.value))))))

/-- `List::writeTable`. -/
def listWriteTable (depth : ℕ) (v : List α) : Outcome Exn Bytes :=
  putLines (Displayed.put depth) v

/-- The elements of `data` in `List::writeJSON`. -/
def listData (depth : ℕ) : List α → Outcome Exn (List Json)
  | [] => .ret []
  | item :: items => do
      let value ← Displayed.toJSON depth item
      let rest ← listData depth items
      pure (value :: rest)

/-- An array that stays `null` while it is empty. -/
def arrayOrNull (js : List Json) : Json := if js = [] then .null else .array js

/-- `List::writeJSON`. -/
def listWriteJSON (J : JsonDump) (depth : ℕ) (v : List α) : Outcome Exn Bytes := do
  let data ← listData depth v
  Outcome.lift (J.dump (okJSON (arrayOrNull data)))

/-- `List::writeSimpleJSON`. -/
def listWriteSimpleJSON (J : JsonDump) (v : List α) : Outcome Exn Bytes :=
  Outcome.lift (J.dump (okJSON (arrayOrNull (v.map Displayed.toSimpleJSON))))

/-- `Status::writeTable`. -/
def statusWriteTable (value : Bool) (message : Bytes) : Bytes :=
  (if value then ascii "ok" else ascii "error") ++
    if message = [] then [] else ascii ": " ++ message

/-- `Status::writeJSON`. -/
def statusWriteJSON (J : JsonDump) (value : Bool) (message : Bytes) : Outcome Exn Bytes :=
  let result := (ascii "result", Json.string (if value then ascii "ok" else ascii "error"))
  Outcome.lift (J.dump (.object
    (if message = [] then [result] else [result, (ascii "message", .string message)])))

/-- `Formattable`, less its format. -/
inductive Formattable (α : Type) where
  | table (v : List (TableItem α))
  | list (v : List α)
  | status (value : Bool) (message : Bytes)

/-- `operator<<` for `Formattable`. -/
def Formattable.write (J : JsonDump) (depth : ℕ) (format : Format) :
    Formattable α → Outcome Exn Bytes
  | table v => match format with
      | .table => tableWriteTable depth v
      | .simpleTable => tableWriteSimpleTable depth v
      | .json => tableWriteJSON J depth v
      | .simpleJSON => tableWriteSimpleJSON J v
  | list v => match format with
      | .table => listWriteTable depth v
      | .simpleTable => listWriteTable depth v
      | .json => listWriteJSON J depth v
      | .simpleJSON => listWriteSimpleJSON J v
  | status value message => match format with
      | .table => .ret (statusWriteTable value message)
      | .simpleTable => .ret (statusWriteTable value message)
      | .json => statusWriteJSON J value message
      | .simpleJSON => statusWriteJSON J value message

/-! ### What writing comes to -/

/-- The values whose printing ends, and those whose texts are UTF-8. -/
class LawfulDisplayed (α : Type) extends Displayed α where
  Printable : α → Prop
  Plain : α → Prop
  put_spec : ∀ depth a, (put depth a).ReturnsWhen (Printable a) (fun _ => True)
  toJSON_spec : ∀ depth a, (toJSON depth a).ReturnsWhen (Printable a) (fun j => j.Utf8 ↔ Plain a)
  toSimpleJSON_utf8 : ∀ a, (toSimpleJSON a).Utf8 ↔ Plain a

theorem putLines_spec {β : Type} {put : β → Outcome Exn Bytes} {P : β → Prop}
    (h : ∀ b, (put b).ReturnsWhen (P b) (fun _ => True)) :
    ∀ v : List β, (putLines put v).ReturnsWhen (∀ b ∈ v, P b) (fun _ => True)
  | [] => (Outcome.returnsWhen_ret trivial).congr (by simp)
  | [b] => (h b).congr (by simp)
  | b :: c :: v => by
      rw [putLines]
      · refine ((h b).bind fun line _ => (putLines_spec h (c :: v)).bind fun rest _ =>
          Outcome.returnsWhen_ret trivial).congr ?_
        rw [and_true, ← List.forall_mem_cons]
      · simp

section

variable {α : Type} [LawfulDisplayed α]

open LawfulDisplayed (Printable Plain put_spec toJSON_spec toSimpleJSON_utf8)

theorem tableWriteSimpleTable_spec (depth : ℕ) (v : List (TableItem α)) :
    (tableWriteSimpleTable depth v).ReturnsWhen (∀ item ∈ v, Printable item.value)
      (fun _ => True) := by
  refine putLines_spec (fun item => ?_) v
  exact ((put_spec depth item.value).bind fun value _ =>
    Outcome.returnsWhen_ret trivial).congr (and_true _).to_iff

theorem tableWriteTable_spec (depth : ℕ) (v : List (TableItem α)) :
    (tableWriteTable depth v).ReturnsWhen (∀ item ∈ v, Printable item.value)
      (fun _ => True) := by
  refine putLines_spec (fun item => ?_) v
  exact ((put_spec depth item.value).bind fun value _ =>
    Outcome.returnsWhen_ret trivial).congr (and_true _).to_iff

theorem listWriteTable_spec (depth : ℕ) (v : List α) :
    (listWriteTable depth v).ReturnsWhen (∀ a ∈ v, Printable a) (fun _ => True) :=
  putLines_spec (put_spec depth) v

theorem utf8_unitValue {u : Bytes} (hu : validUtf8 u = true) (value : Json) :
    (Json.object [(ascii "unit", .string u), (ascii "value", value)]).Utf8 ↔ value.Utf8 := by
  have h1 : validUtf8 (ascii "unit") = true := by decide
  have h2 : validUtf8 (ascii "value") = true := by decide
  simp [h1, h2, hu]

theorem utf8_okJSON (data : Json) : (okJSON data).Utf8 ↔ data.Utf8 := by
  have h1 : validUtf8 (ascii "result") = true := by decide
  have h2 : validUtf8 (ascii "ok") = true := by decide
  have h3 : validUtf8 (ascii "data") = true := by decide
  simp [okJSON, h1, h2, h3]

theorem utf8_objectOrNull (ms : List (Bytes × Json)) :
    (objectOrNull ms).Utf8 ↔ ∀ m ∈ ms, validUtf8 m.1 = true ∧ m.2.Utf8 := by
  unfold objectOrNull
  split_ifs with h
  · simp [h, Json.Utf8, Json.strings]
  · exact Json.utf8_object ms

theorem utf8_arrayOrNull (js : List Json) : (arrayOrNull js).Utf8 ↔ ∀ j ∈ js, j.Utf8 := by
  unfold arrayOrNull
  split_ifs with h
  · simp [h, Json.Utf8, Json.strings]
  · exact Json.utf8_array js

theorem tableData_spec (depth : ℕ) : ∀ v : List (TableItem α),
    (∀ item ∈ v, isAscii (ascii item.key) = true) →
      (tableData depth v).ReturnsWhen (∀ item ∈ v, Printable item.value)
        (fun ms => (∀ m ∈ ms, validUtf8 m.1 = true ∧ m.2.Utf8) ↔ ∀ item ∈ v, Plain item.value)
  | [], _ => (Outcome.returnsWhen_ret (by simp)).congr (by simp)
  | item :: v, hk => by
      obtain ⟨hkey, hkeys⟩ := List.forall_mem_cons.mp hk
      refine ((toJSON_spec depth item.value).bind (Q := ∀ item ∈ v, Printable item.value)
        fun value hvalue => ?_).congr (by rw [List.forall_mem_cons])
      refine ((tableData_spec depth v hkeys).bind (Q := True) fun rest hrest => ?_).congr
        (and_true _).to_iff
      have hunit : validUtf8 item.unit.put = true := by cases item.unit <;> decide
      split_ifs
      · refine Outcome.returnsWhen_ret ?_
        simp only [List.forall_mem_cons, hrest, hvalue, validUtf8_of_isAscii hkey, true_and]
      · refine Outcome.returnsWhen_ret ?_
        simp only [List.forall_mem_cons, hrest, hvalue, validUtf8_of_isAscii hkey, true_and,
          utf8_unitValue hunit]

theorem listData_spec (depth : ℕ) : ∀ v : List α,
    (listData depth v).ReturnsWhen (∀ a ∈ v, Printable a)
      (fun js => (∀ j ∈ js, j.Utf8) ↔ ∀ a ∈ v, Plain a)
  | [] => (Outcome.returnsWhen_ret (by simp)).congr (by simp)
  | a :: v => by
      refine ((toJSON_spec depth a).bind (Q := ∀ a ∈ v, Printable a)
        fun value hvalue => ?_).congr (by rw [List.forall_mem_cons])
      refine ((listData_spec depth v).bind (Q := True) fun rest hrest => ?_).congr
        (and_true _).to_iff
      exact Outcome.returnsWhen_ret (by simp only [List.forall_mem_cons, hrest, hvalue])

end

/-- Printing the values comes to an end. -/
def Formattable.Ends {α : Type} [LawfulDisplayed α] (format : Format) : Formattable α → Prop
  | table v => format = .simpleJSON ∨ ∀ item ∈ v, LawfulDisplayed.Printable item.value
  | list v => format = .simpleJSON ∨ ∀ a ∈ v, LawfulDisplayed.Printable a
  | status _ _ => True

/-- The texts can be written in the format: JSON asks for UTF-8. -/
def Formattable.Plain {α : Type} [LawfulDisplayed α] (format : Format) : Formattable α → Prop
  | table v => format = .table ∨ format = .simpleTable ∨
      ∀ item ∈ v, LawfulDisplayed.Plain item.value
  | list v => format = .table ∨ format = .simpleTable ∨ ∀ a ∈ v, LawfulDisplayed.Plain a
  | status _ message => format = .table ∨ format = .simpleTable ∨ validUtf8 message = true

/-- The keys of a table are plain. -/
def Formattable.AsciiKeys {α : Type} : Formattable α → Prop
  | table v => ∀ item ∈ v, isAscii (ascii item.key) = true
  | _ => True

/-- Writing ends in one of three ways: with a text, with the exception of the serialiser, or not
at all. -/
inductive Written (o : Outcome Exn Bytes) (ends plain : Prop) : Prop where
  | text (s : Bytes) (ho : o = .ret s) (he : ends) (hp : plain)
  | thrown (e : Exn) (ho : o = .throw e) (hd : DumpError e) (he : ends) (hp : ¬ plain)
  | stuck (ho : o = .pending) (he : ¬ ends)

theorem written_of_returnsWhen {o : Outcome Exn Bytes} {P Q : Prop}
    (h : o.ReturnsWhen P (fun _ => True)) (hQ : Q) : Written o P Q := by
  rcases h with ⟨hP, s, ho, -⟩ | ⟨hP, ho⟩
  · exact .text s ho hP hQ
  · exact .stuck ho hP

theorem written_dump (J : JsonDump) {j : Json} {P Q : Prop} (hP : P) (hj : j.Utf8 ↔ Q) :
    Written (Outcome.lift (J.dump j)) P Q := by
  by_cases h : j.Utf8
  · obtain ⟨s, hs⟩ := J.dump_of_utf8 j h
    exact .text s (by rw [hs, Outcome.lift_ok]) hP (hj.mp h)
  · obtain ⟨e, he, hd⟩ := J.dump_of_not_utf8 j h
    exact .thrown e (by rw [he, Outcome.lift_error]) hd hP (fun hQ => h (hj.mpr hQ))

theorem written_bind_dump (J : JsonDump) {β : Type} {o : Outcome Exn β} {f : β → Json}
    {P Q : Prop} (h : o.ReturnsWhen P (fun b => (f b).Utf8 ↔ Q)) :
    Written (o >>= fun b => Outcome.lift (J.dump (f b))) P Q := by
  rcases h with ⟨hP, b, rfl, hb⟩ | ⟨hP, rfl⟩
  · exact written_dump J hP hb
  · exact .stuck rfl hP

section

variable {α : Type} [LawfulDisplayed α] (J : JsonDump) (depth : ℕ)

theorem tableWriteJSON_written {v : List (TableItem α)}
    (hk : ∀ item ∈ v, isAscii (ascii item.key) = true) :
    Written (tableWriteJSON J depth v) (∀ item ∈ v, LawfulDisplayed.Printable item.value)
      (∀ item ∈ v, LawfulDisplayed.Plain item.value) := by
  refine written_bind_dump J (f := fun data => okJSON (objectOrNull data)) ?_
  simpa only [utf8_okJSON, utf8_objectOrNull] using tableData_spec depth v hk

theorem tableWriteSimpleJSON_written {v : List (TableItem α)}
    (hk : ∀ item ∈ v, isAscii (ascii item.key) = true) :
    Written (tableWriteSimpleJSON J v) True (∀ item ∈ v, LawfulDisplayed.Plain item.value) := by
  refine written_dump J trivial ?_
  rw [utf8_okJSON, utf8_objectOrNull, List.forall_mem_map]
  refine forall₂_congr fun item hi => ?_
  rw [LawfulDisplayed.toSimpleJSON_utf8]
  exact and_iff_right (validUtf8_of_isAscii (hk item hi))

theorem listWriteJSON_written (v : List α) :
    Written (listWriteJSON J depth v) (∀ a ∈ v, LawfulDisplayed.Printable a)
      (∀ a ∈ v, LawfulDisplayed.Plain a) := by
  refine written_bind_dump J (f := fun data => okJSON (arrayOrNull data)) ?_
  simpa only [utf8_okJSON, utf8_arrayOrNull] using listData_spec depth v

theorem listWriteSimpleJSON_written (v : List α) :
    Written (listWriteSimpleJSON J v) True (∀ a ∈ v, LawfulDisplayed.Plain a) := by
  refine written_dump J trivial ?_
  simp only [utf8_okJSON, utf8_arrayOrNull, List.forall_mem_map,
    LawfulDisplayed.toSimpleJSON_utf8]

theorem statusWriteJSON_written (value : Bool) (message : Bytes) :
    Written (statusWriteJSON J value message) True (validUtf8 message = true) := by
  refine written_dump J trivial ?_
  have h1 : validUtf8 (ascii "result") = true := by decide
  have h2 : validUtf8 (ascii "message") = true := by decide
  have h3 : validUtf8 (if value then ascii "ok" else ascii "error") = true := by
    cases value <;> decide
  by_cases hm : message = []
  · simp [hm, h1, h3, show validUtf8 [] = true from rfl]
  · simp [hm, h1, h2, h3]

/-- **Writing** ends with a text exactly when the printing of the values ends and their texts fit
the format. -/
theorem Formattable.write_written (format : Format) {f : Formattable α} (hk : f.AsciiKeys) :
    Written (f.write J depth format) (f.Ends format) (f.Plain format) := by
  cases f with
  | table v =>
      cases format with
      | table => simpa [write, Ends, Plain] using
          written_of_returnsWhen (Q := True) (tableWriteTable_spec depth v) trivial
      | simpleTable => simpa [write, Ends, Plain] using
          written_of_returnsWhen (Q := True) (tableWriteSimpleTable_spec depth v) trivial
      | json => simpa [write, Ends, Plain] using tableWriteJSON_written J depth hk
      | simpleJSON => simpa [write, Ends, Plain] using tableWriteSimpleJSON_written J hk
  | list v =>
      have htable := written_of_returnsWhen (Q := True)
        (listWriteTable_spec depth v) trivial
      cases format with
      | table => simpa [write, Ends, Plain] using htable
      | simpleTable => simpa [write, Ends, Plain] using htable
      | json => simpa [write, Ends, Plain] using listWriteJSON_written J depth v
      | simpleJSON => simpa [write, Ends, Plain] using listWriteSimpleJSON_written J v
  | status value message =>
      cases format with
      | table => exact .text _ rfl trivial (.inl rfl)
      | simpleTable => exact .text _ rfl trivial (.inr (.inl rfl))
      | json => simpa [write, Ends, Plain] using statusWriteJSON_written J value message
      | simpleJSON => simpa [write, Ends, Plain] using statusWriteJSON_written J value message

end

end InverterTools.Formatter
