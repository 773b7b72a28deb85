import InverterTools.JsonOutput
import InverterTools.Payload

/-! # What the formats say about each other

A response can be written in four formats.  Two responses of one command that look the same in
`simple-json` look the same in every format, and two that look the same in `json` look the same in
both tables (`formats_ordered`): a reader of JSON misses nothing that a reader of a table sees.

A code and a number are the same in `simple-json`, so this needs that a command decides which of
its members are codes, and of which enumeration (`format_alike`). -/

namespace InverterTools.Formatter

section

variable {α : Type}

/-- Rows of one line. -/
structure RowAlike (R : α → α → Prop) (item item' : TableItem α) : Prop where
  key_eq : item.key = item'.key
  title_eq : item.title = item'.title
  unit_eq : item.unit = item'.unit
  value : R item.value item'.value

/-- Responses of one class; tables of different lengths need not have anything in common. -/
inductive Formattable.Alike (R : α → α → Prop) : Formattable α → Formattable α → Prop where
  | table {v v' : List (TableItem α)}
      (h : v.length = v'.length → List.Forall₂ (RowAlike R) v v') : Alike R (.table v) (.table v')
  | list {v v' : List α} (h : v.length = v'.length → List.Forall₂ R v v') :
      Alike R (.list v) (.list v')
  | status (value value' : Bool) (message : Bytes) :
      Alike R (.status value message) (.status value' message)

theorem RowAlike.imp {R S : α → α → Prop} {item item' : TableItem α} (h : RowAlike R item item')
    (hvalue : R item.value item'.value → S item.value item'.value) : RowAlike S item item' :=
  ⟨h.key_eq, h.title_eq, h.unit_eq, hvalue h.value⟩

theorem maxWidth_congr {R : α → α → Prop} {v v' : List (TableItem α)}
    (h : List.Forall₂ (RowAlike R) v v') : maxWidth v = maxWidth v' := by
  unfold maxWidth
  generalize 0 = width
  induction h generalizing width with
  | nil => rfl
  | cons hhead _ ih => rw [List.foldl_cons, List.foldl_cons, hhead.title_eq, ih]

variable [Displayed α]

/-- The values look the same to `operator<<`. -/
def SamePut (depth : ℕ) (a b : α) : Prop := Displayed.put depth a = Displayed.put depth b

/-- The values look the same in every format. -/
def SameOutput (depth : ℕ) (a b : α) : Prop :=
  SamePut depth a b ∧ Displayed.toJSON depth a = Displayed.toJSON depth b

/-! ### Values that look the same -/

theorem putLines_congr {β : Type} {put : β → Outcome Exn Bytes} {v v' : List β}
    (h : List.Forall₂ (fun b c => put b = put c) v v') : putLines put v = putLines put v' := by
  induction h with
  | nil => rfl
  | cons hhead htail ih =>
      cases htail with
      | nil => exact hhead
      | cons _ _ => simp only [putLines, hhead, ih]

theorem tableWriteTable_congr {depth : ℕ} {v v' : List (TableItem α)}
    (h : List.Forall₂ (RowAlike (SamePut depth)) v v') :
    tableWriteTable depth v = tableWriteTable depth v' := by
  unfold tableWriteTable
  rw [maxWidth_congr h]
  apply putLines_congr
  refine h.imp fun item item' hrow => ?_
  unfold tableLine
  rw [hrow.title_eq, hrow.unit_eq, hrow.value]

theorem tableWriteSimpleTable_congr {depth : ℕ} {v v' : List (TableItem α)}
    (h : List.Forall₂ (RowAlike (SamePut depth)) v v') :
    tableWriteSimpleTable depth v = tableWriteSimpleTable depth v' := by
  apply putLines_congr
  refine h.imp fun item item' hrow => ?_
  unfold simpleTableLine
  rw [hrow.key_eq, hrow.unit_eq, hrow.value]

theorem tableData_congr {depth : ℕ} {v v' : List (TableItem α)}
    (h : List.Forall₂ (RowAlike (SameOutput depth)) v v') :
    tableData depth v = tableData depth v' := by
  induction h with
  | nil => rfl
  | cons hhead _ ih =>
      rw [tableData, tableData, hhead.value.2, hhead.key_eq, hhead.unit_eq, ih]

theorem listData_congr {depth : ℕ} {v v' : List α}
    (h : List.Forall₂ (SameOutput depth) v v') : listData depth v = listData depth v' := by
  induction h with
  | nil => rfl
  | cons hhead _ ih => rw [listData, listData, hhead.2, ih]

/-! ### From the output back to the values -/

theorem okJSON_inj {data data' : Json} (h : okJSON data = okJSON data') : data = data' := by
  simpa [okJSON] using h

theorem objectOrNull_inj {ms ms' : List (Bytes × Json)}
    (h : objectOrNull ms = objectOrNull ms') : ms = ms' := by
  unfold objectOrNull at h
  split_ifs at h with hnil hnil'
  · rw [hnil, hnil']
  · exact Json.object.inj h

theorem arrayOrNull_inj {js js' : List Json} (h : arrayOrNull js = arrayOrNull js') : js = js' := by
  unfold arrayOrNull at h
  split_ifs at h with hnil hnil'
  · rw [hnil, hnil']
  · exact Json.array.inj h

theorem jsonRow_inj {format : Format} {unit : Unit} {value value' : Json}
    (h : jsonRow format unit value = jsonRow format unit value') : value = value' := by
  unfold jsonRow at h
  split_ifs at h
  · exact h
  · simpa using h

theorem statusJSON_inj {value value' : Bool} {message : Bytes}
    (h : statusJSON value message = statusJSON value' message) : value = value' := by
  cases value <;> cases value' <;> simp [statusJSON] at h ⊢ <;> exact absurd h (by decide)

/-- Equal outputs are outputs of values that a reader does not tell apart. -/
theorem norm_eq_of_dump_eq {J : JsonDump} (hJ : J.WritesText) {j j' : Json} {text : Bytes}
    (h : Outcome.lift (J.dump j) = .ret text) (h' : Outcome.lift (J.dump j') = .ret text) :
    j.norm = j'.norm :=
  Option.some.inj ((parse_of_dump hJ h).symm.trans (parse_of_dump hJ h'))

theorem forall₂_of_images {β γ δ : Type} {R S : β → β → Prop} {P : β → γ → Prop} {g : γ → δ}
    {v v' : List β} {data data' : List γ} (h : List.Forall₂ R v v')
    (hdata : List.Forall₂ P v data) (hdata' : List.Forall₂ P v' data')
    (hmap : data.map g = data'.map g)
    (himp : ∀ b c m m', R b c → P b m → P c m' → g m = g m' → S b c) : List.Forall₂ S v v' := by
  induction h generalizing data data' with
  | nil => exact .nil
  | cons hR _ ih =>
      cases hdata with
      | cons hP hrest =>
          cases hdata' with
          | cons hP' hrest' =>
              obtain ⟨hg, htail⟩ := List.cons.inj hmap
              exact .cons (himp _ _ _ _ hR hP hP' hg) (ih hrest hrest' htail)

theorem forall₂_of_map_eq {β γ : Type} {R S : β → β → Prop} {g : β → γ} {v v' : List β}
    (h : List.Forall₂ R v v') (hmap : v.map g = v'.map g)
    (himp : ∀ b c, R b c → g b = g c → S b c) : List.Forall₂ S v v' := by
  apply forall₂_of_images h (P := Eq) (g := g) (List.forall₂_same.mpr fun _ _ => rfl)
    (List.forall₂_same.mpr fun _ _ => rfl) hmap
  rintro b c _ _ hR rfl rfl hg
  exact himp b c hR hg

section

variable {J : JsonDump} {depth : ℕ} {text : Bytes}

theorem table_simpleJSON_inj (hJ : J.WritesText) {v v' : List (TableItem α)}
    (h : tableWriteSimpleJSON J v = .ret text) (h' : tableWriteSimpleJSON J v' = .ret text) :
    v.map (fun item => (ascii item.key, (Displayed.toSimpleJSON item.value).norm)) =
      v'.map fun item => (ascii item.key, (Displayed.toSimpleJSON item.value).norm) := by
  have hnorm := norm_eq_of_dump_eq hJ h h'
  rw [norm_okJSON, norm_okJSON, norm_objectOrNull, norm_objectOrNull] at hnorm
  have hmembers := objectOrNull_inj (okJSON_inj hnorm)
  rwa [List.map_map, List.map_map] at hmembers

theorem list_simpleJSON_inj (hJ : J.WritesText) {v v' : List α}
    (h : listWriteSimpleJSON J v = .ret text) (h' : listWriteSimpleJSON J v' = .ret text) :
    v.map (fun a => (Displayed.toSimpleJSON a).norm) =
      v'.map fun a => (Displayed.toSimpleJSON a).norm := by
  have hnorm := norm_eq_of_dump_eq hJ h h'
  rw [norm_okJSON, norm_okJSON, norm_arrayOrNull, norm_arrayOrNull] at hnorm
  have helements := arrayOrNull_inj (okJSON_inj hnorm)
  rwa [List.map_map, List.map_map] at helements

theorem status_inj (hJ : J.WritesText) {value value' : Bool} {message : Bytes}
    (h : statusWriteJSON J value message = .ret text)
    (h' : statusWriteJSON J value' message = .ret text) : value = value' :=
  statusJSON_inj (Option.some.inj ((parse_of_status hJ h).symm.trans (parse_of_status hJ h')))

theorem table_json_inj (hJ : J.WritesText) {v v' : List (TableItem α)}
    (h : tableWriteJSON J depth v = .ret text) (h' : tableWriteJSON J depth v' = .ret text) :
    ∃ data data' : List (Bytes × Json), tableData depth v = .ret data ∧
      tableData depth v' = .ret data' ∧
        data.map (fun m => (m.1, m.2.norm)) = data'.map fun m => (m.1, m.2.norm) := by
  obtain ⟨data, hdata, hdump⟩ := Outcome.bind_eq_ret.mp h
  obtain ⟨data', hdata', hdump'⟩ := Outcome.bind_eq_ret.mp h'
  have hnorm := norm_eq_of_dump_eq hJ hdump hdump'
  rw [norm_okJSON, norm_okJSON, norm_objectOrNull, norm_objectOrNull] at hnorm
  exact ⟨data, data', hdata, hdata', objectOrNull_inj (okJSON_inj hnorm)⟩

theorem list_json_inj (hJ : J.WritesText) {v v' : List α}
    (h : listWriteJSON J depth v = .ret text) (h' : listWriteJSON J depth v' = .ret text) :
    ∃ data data' : List Json, listData depth v = .ret data ∧ listData depth v' = .ret data' ∧
      data.map Json.norm = data'.map Json.norm := by
  obtain ⟨data, hdata, hdump⟩ := Outcome.bind_eq_ret.mp h
  obtain ⟨data', hdata', hdump'⟩ := Outcome.bind_eq_ret.mp h'
  have hnorm := norm_eq_of_dump_eq hJ hdump hdump'
  rw [norm_okJSON, norm_okJSON, norm_arrayOrNull, norm_arrayOrNull] at hnorm
  exact ⟨data, data', hdata, hdata', arrayOrNull_inj (okJSON_inj hnorm)⟩

/-! ### The order of the formats -/

/-- One output in `simple-json` is one output in every format, and one output in `json` is one in
both tables. -/
structure Formattable.Ordered (J : JsonDump) (f f' : Formattable α) : Prop where
  simpleJSON : ∀ d text, f.write J d .simpleJSON = .ret text →
    f'.write J d .simpleJSON = .ret text → ∀ depth format,
      f.write J depth format = f'.write J depth format
  json : ∀ d text, f.write J d .json = .ret text → f'.write J d .json = .ret text →
    ∀ depth format, format = .table ∨ format = .simpleTable →
      f.write J depth format = f'.write J depth format

/-- From one output in `simple-json` to every format. -/
theorem write_eq_of_simpleJSON (hJ : J.WritesText) {R : α → α → Prop}
    (hR : ∀ a b, R a b → (Displayed.toSimpleJSON a).norm = (Displayed.toSimpleJSON b).norm →
      SameOutput depth a b) {f f' : Formattable α} (halike : f.Alike R f') {d : ℕ}
    (h : f.write J d .simpleJSON = .ret text) (h' : f'.write J d .simpleJSON = .ret text)
    (format : Format) : f.write J depth format = f'.write J depth format := by
  cases halike with
  | @table v v' halike =>
      have hmap := table_simpleJSON_inj hJ h h'
      have hrows : List.Forall₂ (RowAlike (SameOutput depth)) v v' := by
        have hlength := congrArg List.length hmap
        rw [List.length_map, List.length_map] at hlength
        apply forall₂_of_map_eq (halike hlength) hmap
        intro item item' hrow hg
        exact hrow.imp fun hvalue => hR _ _ hvalue (Prod.mk.inj hg).2
      have hput := hrows.imp fun item item' hrow => hrow.imp And.left
      cases format with
      | table => exact tableWriteTable_congr hput
      | simpleTable => exact tableWriteSimpleTable_congr hput
      | json =>
          show tableWriteJSON J depth v = tableWriteJSON J depth v'
          rw [tableWriteJSON, tableWriteJSON, tableData_congr hrows]
      | simpleJSON => exact h.trans h'.symm
  | @list v v' halike =>
      have hmap := list_simpleJSON_inj hJ h h'
      have hvalues : List.Forall₂ (SameOutput depth) v v' := by
        have hlength := congrArg List.length hmap
        rw [List.length_map, List.length_map] at hlength
        exact forall₂_of_map_eq (halike hlength) hmap hR
      have hput := hvalues.imp fun (a b : α) (hab : SameOutput depth a b) => hab.1
      cases format with
      | table => exact putLines_congr hput
      | simpleTable => exact putLines_congr hput
      | json =>
          show listWriteJSON J depth v = listWriteJSON J depth v'
          rw [listWriteJSON, listWriteJSON, listData_congr hvalues]
      | simpleJSON => exact h.trans h'.symm
  | status value value' message =>
      obtain rfl := status_inj hJ h h'
      rfl

theorem write_eq_of_json (hJ : J.WritesText) {R : α → α → Prop} {d : ℕ}
    (hR : ∀ (a b : α) j k, Displayed.toJSON d a = .ret j → Displayed.toJSON d b = .ret k →
      j.norm = k.norm → SamePut depth a b) {f f' : Formattable α} (halike : f.Alike R f')
    (h : f.write J d .json = .ret text) (h' : f'.write J d .json = .ret text) {format : Format}
    (hformat : format = .table ∨ format = .simpleTable) :
    f.write J depth format = f'.write J depth format := by
  cases halike with
  | @table v v' halike =>
      obtain ⟨data, data', hdata, hdata', hmap⟩ := table_json_inj hJ h h'
      have hitems := forall₂_tableData hdata
      have hitems' := forall₂_tableData hdata'
      have hrows : List.Forall₂ (RowAlike (SamePut depth)) v v' := by
        have hlength := congrArg List.length hmap
        rw [List.length_map, List.length_map, ← hitems.length_eq, ← hitems'.length_eq] at hlength
        apply forall₂_of_images (halike hlength) hitems hitems' hmap
        rintro item item' _ _ hrow ⟨value, hvalue, rfl⟩ ⟨value', hvalue', rfl⟩ hg
        have hrow_norm := (Prod.mk.inj hg).2
        dsimp only at hrow_norm
        rw [norm_jsonRow, norm_jsonRow, hrow.unit_eq] at hrow_norm
        exact hrow.imp fun _ => hR _ _ _ _ hvalue hvalue' (jsonRow_inj hrow_norm)
      cases hformat with
      | inl htable =>
          rw [htable]
          exact tableWriteTable_congr hrows
      | inr hsimple =>
          rw [hsimple]
          exact tableWriteSimpleTable_congr hrows
  | @list v v' halike =>
      obtain ⟨data, data', hdata, hdata', hmap⟩ := list_json_inj hJ h h'
      have hitems := listData_eq_ret hdata
      have hitems' := listData_eq_ret hdata'
      have hput : List.Forall₂ (SamePut depth) v v' := by
        have hlength := congrArg List.length hmap
        rw [List.length_map, List.length_map, ← hitems.length_eq, ← hitems'.length_eq] at hlength
        apply forall₂_of_images (halike hlength) hitems hitems' hmap
        intro a b j k _ hj hk hnorm
        exact hR a b j k hj hk hnorm
      cases hformat with
      | inl htable =>
          rw [htable]
          exact putLines_congr hput
      | inr hsimple =>
          rw [hsimple]
          exact putLines_congr hput
  | status value value' message =>
      obtain rfl := status_inj hJ h h'
      rfl

end

end

end InverterTools.Formatter

namespace InverterTools.P18

open Formatter (Format Formattable RowAlike SameOutput SamePut JsonDump)

/-! ### Values -/

namespace Variant

/-- The enumeration of a code. -/
def enumType : Variant → Option EnumType
  | enum v => some v.type
  | _ => none

theorem code_of_norm_integer {z z' : ℤ} (h : (Json.integer z).norm = (Json.integer z').norm) :
    z = z' := by
  simp only [Json.norm] at h
  split_ifs at h with hz hz'
  · have hnat := Json.unsigned.inj h
    omega
  · exact Json.integer.inj h

/-- Values with one output in `simple-json` have one output, once it is clear which of them are
codes. -/
theorem sameOutput_of_simpleJSON {a b : Variant} (htype : a.enumType = b.enumType)
    (h : a.toSimpleJSON.norm = b.toSimpleJSON.norm) (depth : ℕ) : SameOutput depth a b := by
  cases a with
  | enum v =>
      cases b with
      | enum w =>
          have htype' : v.type = w.type := Option.some.inj htype
          have hcode : v.code = w.code := code_of_norm_integer h
          have heq : v = w := by
            cases v
            cases w
            simp_all
          rw [heq]
          exact ⟨rfl, rfl⟩
      | _ => cases htype
  | _ =>
      cases b with
      | enum w => cases htype
      | _ =>
          cases h
          try exact ⟨rfl, rfl⟩

/-- The text of the value that a reader finds in `json`. -/
def textOf : Json → Bytes
  | .unsigned n => decimal n
  | .bool b => if b then ascii "1" else ascii "0"
  | .tenths n => putTenths n
  | .string s => s
  | _ => []

theorem put_eq_textOf {a : Variant} {d : ℕ} {j : Json} (h : a.toJSON d = .ret j) (depth : ℕ) :
    a.put depth = .ret (textOf j.norm) := by
  cases a with
  | enum v =>
      obtain ⟨name, hname, hret⟩ := Outcome.bind_eq_ret.mp h
      obtain rfl := Outcome.ret.inj hret
      cases hlisted : v.listed with
      | none =>
          rw [EnumVal.put_of_not_listed hlisted] at hname
          cases hname
      | some s =>
          rw [EnumVal.put_of_listed hlisted] at hname
          obtain rfl := Outcome.ret.inj hname
          exact EnumVal.put_of_listed hlisted depth
  | _ =>
      obtain rfl := Outcome.ret.inj h
      rfl

theorem samePut_of_json {a b : Variant} {d : ℕ} {j k : Json} (ha : a.toJSON d = .ret j)
    (hb : b.toJSON d = .ret k) (h : j.norm = k.norm) (depth : ℕ) : SamePut depth a b :=
  calc a.put depth = .ret (textOf j.norm) := put_eq_textOf ha depth
    _ = .ret (textOf k.norm) := by rw [h]
    _ = b.put depth := (put_eq_textOf hb depth).symm

end Variant

/-! ### Members -/

/-- The enumeration of a code. -/
def Val.enumType : Val → Option EnumType
  | enum v => some v.type
  | _ => none

/-- The enumeration whose codes an item holds. -/
def Kind.enumType : Kind → Option EnumType
  | enum type => some type
  | _ => none

/-- The members, with the enumerations of those that are codes. -/
def enumTypes (ms : List (Member × Val)) : List (Member × Option EnumType) :=
  ms.map fun m => (m.1, m.2.enumType)

theorem enumType_variant (v : Val) : v.variant.enumType = v.enumType := by
  cases v <;> rfl

theorem memberVal_enumType {ms ms' : List (Member × Val)} (h : enumTypes ms = enumTypes ms')
    (m : Member) : (memberVal ms m).enumType = (memberVal ms' m).enumType := by
  induction ms generalizing ms' with
  | nil =>
      cases ms' with
      | nil => rfl
      | cons _ _ => cases h
  | cons e ms ih =>
      cases ms' with
      | nil => cases h
      | cons e' ms' =>
          obtain ⟨hhead, htail⟩ := List.cons.inj h
          obtain ⟨hname, htype⟩ := Prod.mk.inj hhead
          have hrest := ih htail
          unfold memberVal at hrest ⊢
          rw [List.lookup_cons, List.lookup_cons, ← hname]
          cases m == e.1 with
          | true => exact htype
          | false => exact hrest

theorem value_enumType {ms ms' : List (Member × Val)} (h : enumTypes ms = enumTypes ms')
    (shown : Shown) : (shown.value ms).enumType = (shown.value ms').enumType := by
  cases shown with
  | member m =>
      show (memberVal ms m).variant.enumType = (memberVal ms' m).variant.enumType
      rw [enumType_variant, enumType_variant, memberVal_enumType h]
  | tenths m => rfl
  | time h m => rfl

/-- Values of which the same are codes, of the same enumeration. -/
def SameType (a b : Variant) : Prop := a.enumType = b.enumType

theorem tableOf_alike {ms ms' : List (Member × Val)} (h : enumTypes ms = enumTypes ms')
    (lines : List Line) : (tableOf lines ms).Alike SameType (tableOf lines ms') := by
  refine .table fun _ => ?_
  rw [List.forall₂_map_left_iff, List.forall₂_map_right_iff, List.forall₂_same]
  exact fun line _ => ⟨rfl, rfl, rfl, value_enumType h line.shown⟩

/-! ### What a command decodes -/

section

variable {c : CommandType} {rawSize : ℕ} {mem : Bytes}

theorem decode_enumType {k : Kind} {s : Bytes} {v : Val} (h : k.decode s = .ok v) :
    v.enumType = k.enumType := by
  cases k with
  | number => obtain ⟨n, -, rfl⟩ := map_eq_ok.mp h; rfl
  | enum type => obtain ⟨n, -, rfl⟩ := map_eq_ok.mp h; rfl
  | flag => obtain ⟨n, -, rfl⟩ := map_eq_ok.mp h; rfl
  | char => obtain rfl := Except.ok.inj h; rfl
  | text => obtain rfl := Except.ok.inj h; rfl

/-- The members that a list of items fills. -/
def itemTypes (items : List Item) : List (Member × Option EnumType) :=
  items.map fun item => (item.name, item.kind.enumType)

theorem unpackItems_enumTypes {list : List Bytes} : ∀ {i : ℕ} {items : List Item}
    {ms : List (Member × Val)}, (unpackItems list i items).run mem = .ret ms →
      enumTypes ms = itemTypes items
  | i, [], ms, h => by
      obtain rfl := Outcome.ret.inj h
      rfl
  | i, item :: items, ms, h => by
      rw [unpackItems, Probe.run_bind] at h
      obtain ⟨s, -, h⟩ := Outcome.bind_eq_ret.mp h
      rw [Probe.run_bind, Probe.run_lift] at h
      obtain ⟨v, hv, h⟩ := Outcome.bind_eq_ret.mp h
      rw [Probe.run_bind] at h
      obtain ⟨rest, hrest, h⟩ := Outcome.bind_eq_ret.mp h
      obtain rfl := Outcome.ret.inj h
      have htypes := unpackItems_enumTypes hrest
      have htype := decode_enumType (Outcome.lift_eq_ret.mp hv)
      simp only [enumTypes, itemTypes, List.map_cons] at htypes ⊢
      rw [htypes, htype]

theorem unpackList_enumTypes {l : ListLayout} {d : Decoded}
    (h : (unpackList c rawSize l).run mem = .ret d) :
    enumTypes d.fields = itemTypes l.items := by
  rw [unpackList_eq, Probe.run_bind] at h
  obtain ⟨list, -, h⟩ := Outcome.bind_eq_ret.mp h
  rw [Probe.run_bind] at h
  obtain ⟨ms, hms, h⟩ := Outcome.bind_eq_ret.mp h
  obtain rfl := Outcome.ret.inj h
  exact unpackItems_enumTypes hms

theorem cutSerialNumber_enumTypes (ms : List (Member × Val)) :
    enumTypes (cutSerialNumber ms) = enumTypes ms := by
  unfold cutSerialNumber
  split <;> rfl

theorem unpackParallelRatedInformation_enumTypes {d : Decoded}
    (h : (unpackParallelRatedInformation c rawSize).run mem = .ret d) :
    enumTypes d.fields = itemTypes parallelRatedInformation.items := by
  rw [unpackParallelRatedInformation_eq, Probe.run_bind] at h
  obtain ⟨list, -, h⟩ := Outcome.bind_eq_ret.mp h
  rw [Probe.run_bind] at h
  obtain ⟨ms, hms, h⟩ := Outcome.bind_eq_ret.mp h
  obtain rfl := Outcome.ret.inj h
  rw [Decoded.fields_members, cutSerialNumber_enumTypes]
  exact unpackItems_enumTypes hms

theorem maxTempPresent_iff_enumTypes {ms : List (Member × Val)} :
    maxTempPresent ms = true ↔ .maxTemp ∈ (enumTypes ms).map Prod.fst := by
  rw [maxTempPresent, List.lookup_isSome_iff]
  simp [enumTypes]

/-- Two statuses of parallel inverters, of which both have `max_temp` or none has it. -/
theorem unpackParallelGeneralStatus_enumTypes {d : Decoded}
    (h : (unpackParallelGeneralStatus c rawSize).run mem = .ret d) :
    enumTypes d.fields = itemTypes (if maxTempPresent d.fields then parallelGeneralStatus.items
      else parallelGeneralStatus.items.take 28) := by
  rw [unpackParallelGeneralStatus_eq, Probe.run_bind] at h
  obtain ⟨list, -, h⟩ := Outcome.bind_eq_ret.mp h
  rw [Probe.run_bind] at h
  obtain ⟨ms, hms, h⟩ := Outcome.bind_eq_ret.mp h
  have htypes := unpackItems_enumTypes hms
  split_ifs at h with h29
  · rw [Probe.run_bind] at h
    obtain ⟨max_temp, hmax, h⟩ := Outcome.bind_eq_ret.mp h
    obtain rfl := Outcome.ret.inj h
    have hall : enumTypes (ms ++ max_temp) = itemTypes parallelGeneralStatus.items := by
      rw [enumTypes, List.map_append, ← enumTypes, ← enumTypes, htypes,
        unpackItems_enumTypes hmax]
      rfl
    have hpresent : maxTempPresent (ms ++ max_temp) = true := by
      rw [maxTempPresent_iff_enumTypes, hall]
      decide
    rw [Decoded.fields_members, if_pos hpresent, hall]
  · obtain rfl := Outcome.ret.inj h
    have habsent : ¬ maxTempPresent ms = true := by
      rw [maxTempPresent_iff_enumTypes, htypes]
      decide
    rw [Decoded.fields_members, if_neg habsent, htypes]

theorem unpackACChargeTimeBucket_enumTypes {d : Decoded}
    (h : (unpackACChargeTimeBucket c rawSize).run mem = .ret d) :
    enumTypes d.fields = [(.startH, none), (.startM, none), (.endH, none), (.endM, none)] := by
  obtain ⟨start_h, start_m, end_h, end_m, rfl⟩ := exists_timeBucket h
  rfl

theorem unpackProtocolID_enumTypes {d : Decoded} (h : unpackProtocolID.run mem = .ret d) :
    enumTypes d.fields = [(.id, none)] := by
  obtain ⟨id, rfl⟩ := exists_protocolID h
  rfl

theorem unpackCurrentTime_enumTypes {d : Decoded} (h : unpackCurrentTime.run mem = .ret d) :
    enumTypes d.fields = [(.year, none), (.month, none), (.day, none), (.hour, none),
      (.minute, none), (.second, none)] := by
  obtain ⟨year, month, day, hour, minute, second, rfl⟩ := exists_currentTime h
  rfl

theorem unpackTotalGenerated_enumTypes {d : Decoded} (h : unpackTotalGenerated.run mem = .ret d) :
    enumTypes d.fields = [(.wh, none)] := by
  obtain ⟨wh, rfl⟩ := exists_totalGenerated h
  rfl

theorem unpackSerialNumber_enumTypes {d : Decoded} (h : unpackSerialNumber.run mem = .ret d) :
    enumTypes d.fields = [(.id, none)] := by
  simp only [unpackSerialNumber, Probe.run_bind, Outcome.bind_eq_ret] at h
  obtain ⟨buf, -, len, -, h⟩ := h
  split_ifs at h
  · cases h
  · rw [Probe.run_bind] at h
    obtain ⟨id, -, h⟩ := Outcome.bind_eq_ret.mp h
    obtain rfl := Outcome.ret.inj h
    rfl

theorem unpackWorkingMode_enumTypes {d : Decoded} (h : unpackWorkingMode.run mem = .ret d) :
    enumTypes d.fields = [(.mode, some .workingMode)] := by
  obtain ⟨mode, rfl⟩ := exists_workingMode h
  rfl

end

/-! ### The responses of one command -/

theorem alike_of_enumTypes {ms ms' : List (Member × Val)}
    {types : List (Member × Option EnumType)} (h : enumTypes ms = types)
    (h' : enumTypes ms' = types) (lines : List Line) :
    (tableOf lines ms).Alike SameType (tableOf lines ms') :=
  tableOf_alike (h.trans h'.symm) lines

theorem amps_alike (ns ns' : List ℕ) :
    (Formattable.list (ns.map Variant.unsigned)).Alike SameType
      (.list (ns'.map Variant.unsigned)) := by
  refine .list fun hlength => List.forall₂_iff_zip.mpr ⟨hlength, fun {a b} hzip => ?_⟩
  obtain ⟨ha, hb⟩ := List.of_mem_zip hzip
  obtain ⟨n, -, rfl⟩ := List.mem_map.mp ha
  obtain ⟨n', -, rfl⟩ := List.mem_map.mp hb
  rfl

section

variable {c : CommandType} {rawSize rawSize' : ℕ} {mem mem' : Bytes} {d d' : Decoded}

theorem parallelGeneralStatus_alike
    (h : (unpackParallelGeneralStatus c rawSize).run mem = .ret d)
    (h' : (unpackParallelGeneralStatus c rawSize').run mem' = .ret d') (raw raw' : Bytes) :
    (format .getParallelGeneralStatus raw d).Alike SameType
      (format .getParallelGeneralStatus raw' d') := by
  have htypes := unpackParallelGeneralStatus_enumTypes h
  have htypes' := unpackParallelGeneralStatus_enumTypes h'
  show Formattable.Alike SameType
    (if maxTempPresent d.fields then tableOf (parallelGeneralStatusLines ++ [maxTempLine]) d.fields
      else tableOf parallelGeneralStatusLines d.fields)
    (if maxTempPresent d'.fields then
        tableOf (parallelGeneralStatusLines ++ [maxTempLine]) d'.fields
      else tableOf parallelGeneralStatusLines d'.fields)
  -- of tables of which one has a line more nothing is said
  split_ifs at htypes htypes' ⊢
  · exact alike_of_enumTypes htypes htypes' _
  · exact .table fun hlength => absurd hlength (by simp)
  · exact .table fun hlength => absurd hlength (by simp)
  · exact alike_of_enumTypes htypes htypes' _

theorem format_alike (h : (unpack c rawSize).run mem = .ret d)
    (h' : (unpack c rawSize').run mem' = .ret d') (raw raw' : Bytes) :
    (format c raw d).Alike SameType (format c raw' d') := by
  cases c with
  | getProtocolID =>
      exact alike_of_enumTypes (unpackProtocolID_enumTypes h) (unpackProtocolID_enumTypes h') _
  | getCurrentTime =>
      exact alike_of_enumTypes (unpackCurrentTime_enumTypes h) (unpackCurrentTime_enumTypes h') _
  | getTotalGenerated | getYearGenerated | getMonthGenerated | getDayGenerated =>
      exact alike_of_enumTypes (unpackTotalGenerated_enumTypes h)
        (unpackTotalGenerated_enumTypes h') _
  | getSerialNumber =>
      exact alike_of_enumTypes (unpackSerialNumber_enumTypes h) (unpackSerialNumber_enumTypes h') _
  | getWorkingMode =>
      exact alike_of_enumTypes (unpackWorkingMode_enumTypes h) (unpackWorkingMode_enumTypes h') _
  | getCPUVersion | getRatedInformation | getGeneralStatus | getFaultsAndWarnings |
    getFlagsAndStatuses | getRatedDefaults =>
      exact alike_of_enumTypes (unpackList_enumTypes h) (unpackList_enumTypes h') _
  | getAllowedChargeCurrents | getAllowedACChargeCurrents => exact amps_alike d.vector d'.vector
  | getParallelRatedInformation =>
      exact alike_of_enumTypes (unpackParallelRatedInformation_enumTypes h)
        (unpackParallelRatedInformation_enumTypes h') _
  | getParallelGeneralStatus => exact parallelGeneralStatus_alike h h' raw raw'
  | getACChargeTimeBucket | getACSupplyTimeBucket =>
      exact alike_of_enumTypes (unpackACChargeTimeBucket_enumTypes h)
        (unpackACChargeTimeBucket_enumTypes h') _
  | _ => exact .status _ _ []

end

theorem ordered_of_received (J : JsonDump) (hJ : J.WritesText) {r r' : Response}
    (hr : r.Received) (hr' : r'.Received) (hcommand : r.command = r'.command) :
    (format r.command r.raw r.fields).Ordered J (format r'.command r'.raw r'.fields) := by
  have hdecoded := hr.decoded
  rw [hcommand] at hdecoded ⊢
  have halike := format_alike hdecoded hr'.decoded r.raw r'.raw
  constructor
  · intro d text hwrite hwrite' depth f
    apply Formatter.write_eq_of_simpleJSON hJ _ halike hwrite hwrite'
    exact fun a b htype hnorm => Variant.sameOutput_of_simpleJSON htype hnorm depth
  · intro d text hwrite hwrite' depth f hf
    apply Formatter.write_eq_of_json hJ _ halike hwrite hwrite' hf
    exact fun a b j k ha hb hnorm => Variant.samePut_of_json ha hb hnorm depth

end InverterTools.P18

namespace InverterTools.Server

open Formatter (JsonDump)
open P18 (Machine)

theorem command_of_returned {m : Machine} {s : Server} (hs : ∀ c, s.cache c = none)
    {calls : List Call} {call : Call} {r : P18.Response}
    (h : Returned m (calls.foldl (next m) s, call) r) : r.command = call.command := by
  have hperformed {st : Server × Call} {r : P18.Response} (hr : Performed m st r) :
      r.command = st.2.command := (P18.received_of_execute hr.2).2
  rcases returned_cases h with ⟨cr, hcr, -, -, rfl, -⟩ | ⟨hlive, -, -⟩
  · obtain ⟨before, st, after, -, hsource, -⟩ := latest_run hs calls hcr
    exact (hperformed hsource.performed).trans hsource.command_eq
  · exact hperformed (performed_of_returned hlive h)

/-- **The order of the formats.**  Take any two calls of one command, in one run of the daemon or in
two, whatever the devices, the arguments and the times.  If their responses, from the device or from
the cache, have one output in `simple-json`, they have one output in every format; if they have one
in `json`, they have one in `table` and one in `simple-table`. -/
theorem formats_ordered (J : JsonDump) (hJ : J.WritesText) {m m' : Machine} {s s' : Server}
    (hs : ∀ c, s.cache c = none) (hs' : ∀ c, s'.cache c = none) (calls calls' : List Call)
    (call call' : Call) (hcommand : call.command = call'.command) {r r' : P18.Response}
    (h : Returned m (calls.foldl (next m) s, call) r)
    (h' : Returned m' (calls'.foldl (next m') s', call') r') :
    (P18.format r.command r.raw r.fields).Ordered J
      (P18.format r'.command r'.raw r'.fields) := by
  apply P18.ordered_of_received J hJ (received_of_returned hs h) (received_of_returned hs' h')
  rw [command_of_returned hs h, command_of_returned hs' h', hcommand]

/-- The mode read from the device and read again from the cache. -/
theorem formats_ordered_hit :
    ∃ r r', Returned P18.x86 (started, readMode 100) r ∧
      Returned P18.x86 ([readMode 100].foldl (next P18.x86) started, readMode 500) r' ∧
      (P18.format r.command r.raw r.fields).Ordered Formatter.textDump
        (P18.format r'.command r'.raw r'.fields) := by
  have hlive : Live ([readMode 100].foldl (next P18.x86) started, readMode 500) := by
    decide +kernel
  obtain ⟨r', hr'⟩ := returned_of_live (m := P18.x86) hlive
  have hret : (finish P18.x86 (started, readMode 100)).outcome.isRet = true := by
    decide +kernel
  obtain ⟨r, hr⟩ := Outcome.isRet_iff.mp hret
  refine ⟨r, r', hr, hr', ?_⟩
  exact formats_ordered Formatter.textDump (Dumper.compact_writesText _) (s := started)
    (fun _ => rfl) (fun _ => rfl) [] [readMode 100] (readMode 100) (readMode 500) rfl hr hr'

end InverterTools.Server
