import InverterTools.Lib.JsonReader
import InverterTools.Sessions

/-! # What a client reads in the JSON formats

In `json` and `simple-json` the body of a response is written by `nlohmann::json`.  A client reads
it with a reader of JSON; `Reads` says what it finds: under the key of every row its value, with the
unit beside it in `json`, the elements of a list in order, or the status and its message.

`write_read` is about `operator<<`, `json_body_read` about the responses of the daemon. -/

namespace InverterTools.Formatter

section

variable {α : Type} [Displayed α]

/-- The value of a row or of an element. -/
def jsonValue (format : Format) (depth : ℕ) (a : α) : Outcome Exn Json :=
  if format = .simpleJSON then .ret (Displayed.toSimpleJSON a) else Displayed.toJSON depth a

/-- What stands under the key of a row. -/
def jsonRow (format : Format) (unit : Unit) (value : Json) : Json :=
  if format = .simpleJSON ∨ unit = .none then value
  else .object [(ascii "unit", .string unit.put), (ascii "value", value)]

/-- What stands in a status. -/
def statusJSON (value : Bool) (message : Bytes) : Json :=
  .object ((ascii "result", Json.string (if value then ascii "ok" else ascii "error")) ::
    if message = [] then [] else [(ascii "message", .string message)])

/-- What a reader finds in the output of a response. -/
inductive Reads (format : Format) (depth : ℕ) : Formattable α → Json → Prop where
  | table (v : List (TableItem α)) (ms : List (Bytes × Json))
      (hkeys : ms.map Prod.fst = v.map fun item => ascii item.key)
      (hvalues : ∀ item ∈ v, ∃ value, jsonValue format depth item.value = .ret value ∧
        ms.lookup (ascii item.key) = some (jsonRow format item.unit value.norm)) :
      Reads format depth (.table v) (okJSON (objectOrNull ms))
  | list (v : List α) (js : List Json)
      (hvalues : List.Forall₂ (fun a j => ∃ value, jsonValue format depth a = .ret value ∧
        j = value.norm) v js) :
      Reads format depth (.list v) (okJSON (arrayOrNull js))
  | status (value : Bool) (message : Bytes) :
      Reads format depth (.status value message) (statusJSON value message)

/-- The rows of a table have different keys. -/
def Formattable.Keyed : Formattable α → Prop
  | table v => (v.map fun item => ascii item.key).Nodup
  | _ => True

/-! ### The members and the elements -/

theorem norm_okJSON (data : Json) : (okJSON data).norm = okJSON data.norm := by
  simp [okJSON]

theorem norm_objectOrNull (ms : List (Bytes × Json)) :
    (objectOrNull ms).norm = objectOrNull (ms.map fun m => (m.1, m.2.norm)) := by
  cases ms with
  | nil => rfl
  | cons m ms => simp [objectOrNull]

theorem norm_arrayOrNull (js : List Json) :
    (arrayOrNull js).norm = arrayOrNull (js.map Json.norm) := by
  cases js with
  | nil => rfl
  | cons j js => simp [arrayOrNull]

theorem norm_jsonRow (format : Format) (unit : Unit) (value : Json) :
    (jsonRow format unit value).norm = jsonRow format unit value.norm := by
  unfold jsonRow
  split_ifs
  · rfl
  · simp

theorem norm_statusJSON (value : Bool) (message : Bytes) :
    (statusJSON value message).norm = statusJSON value message := by
  unfold statusJSON
  split_ifs <;> simp

/-- The rows of a table and the members that `Table::writeJSON` makes of them. -/
theorem forall₂_tableData {depth : ℕ} : ∀ {v : List (TableItem α)} {data : List (Bytes × Json)},
    tableData depth v = .ret data →
      List.Forall₂ (fun item m => ∃ value, Displayed.toJSON depth item.value = .ret value ∧
        m = (ascii item.key, jsonRow .json item.unit value)) v data
  | [], data, h => by
      obtain rfl := Outcome.ret.inj h
      exact .nil
  | item :: items, data, h => by
      obtain ⟨value, hvalue, h⟩ := Outcome.bind_eq_ret.mp h
      obtain ⟨rest, hrest, h⟩ := Outcome.bind_eq_ret.mp h
      have hdata : data = (ascii item.key, jsonRow .json item.unit value) :: rest := by
        unfold jsonRow
        by_cases hunit : item.unit = .none
        · rw [if_pos hunit] at h
          rw [if_pos (.inr hunit)]
          exact (Outcome.ret.inj h).symm
        · rw [if_neg hunit] at h
          rw [if_neg (by simp [hunit])]
          exact (Outcome.ret.inj h).symm
      subst hdata
      exact .cons ⟨value, hvalue, rfl⟩ (forall₂_tableData hrest)

theorem tableData_eq_ret {depth : ℕ} {v : List (TableItem α)} {data : List (Bytes × Json)}
    (h : tableData depth v = .ret data) :
    data.map Prod.fst = v.map (fun item => ascii item.key) ∧
      ∀ item ∈ v, ∃ value, Displayed.toJSON depth item.value = .ret value ∧
        (ascii item.key, jsonRow .json item.unit value) ∈ data := by
  have hrows := forall₂_tableData h
  clear h
  induction hrows with
  | nil => exact ⟨rfl, fun item hitem => absurd hitem List.not_mem_nil⟩
  | cons hrow _ ih =>
      obtain ⟨value, hvalue, rfl⟩ := hrow
      obtain ⟨hkeys, hvalues⟩ := ih
      refine ⟨by rw [List.map_cons, List.map_cons, hkeys], ?_⟩
      refine List.forall_mem_cons.mpr ⟨⟨value, hvalue, List.mem_cons_self⟩, ?_⟩
      intro other hother
      obtain ⟨value', hvalue', hmem⟩ := hvalues other hother
      exact ⟨value', hvalue', List.mem_cons_of_mem _ hmem⟩

theorem listData_eq_ret {depth : ℕ} : ∀ {v : List α} {js : List Json}, listData depth v = .ret js →
    List.Forall₂ (fun a j => Displayed.toJSON depth a = .ret j) v js
  | [], js, h => by
      obtain rfl := Outcome.ret.inj h
      exact .nil
  | a :: v, js, h => by
      obtain ⟨value, hvalue, h⟩ := Outcome.bind_eq_ret.mp h
      obtain ⟨rest, hrest, h⟩ := Outcome.bind_eq_ret.mp h
      obtain rfl := Outcome.ret.inj h
      exact .cons hvalue (listData_eq_ret hrest)

/-! ### Reading -/

theorem parse_of_dump {J : JsonDump} (hJ : J.WritesText) {j : Json} {text : Bytes}
    (h : Outcome.lift (J.dump j) = .ret text) : Json.parse text = some j.norm := by
  rw [hJ j text (Outcome.lift_eq_ret.mp h), Json.parse_text]

theorem parse_of_status {J : JsonDump} (hJ : J.WritesText) {value : Bool} {message text : Bytes}
    (h : statusWriteJSON J value message = .ret text) :
    Json.parse text = some (statusJSON value message) := by
  have hdump : Outcome.lift (J.dump (statusJSON value message)) = .ret text := by
    rw [← h, statusWriteJSON, statusJSON]
    split_ifs <;> rfl
  rw [parse_of_dump hJ hdump, norm_statusJSON]

theorem reads_table {format : Format} {depth : ℕ} {v : List (TableItem α)}
    {data : List (Bytes × Json)} (hkeyed : (Formattable.table v).Keyed)
    (hkeys : data.map Prod.fst = v.map fun item => ascii item.key)
    (hvalues : ∀ item ∈ v, ∃ value, jsonValue format depth item.value = .ret value ∧
      (ascii item.key, jsonRow format item.unit value) ∈ data) :
    Reads format depth (.table v) (okJSON (objectOrNull data)).norm := by
  have hnames : (data.map fun m => (m.1, m.2.norm)).map Prod.fst =
      v.map fun item => ascii item.key := by
    rw [List.map_map, ← hkeys]
    rfl
  rw [norm_okJSON, norm_objectOrNull]
  refine .table v _ hnames fun item hitem => ?_
  obtain ⟨value, hvalue, hmem⟩ := hvalues item hitem
  refine ⟨value, hvalue, ?_⟩
  apply Json.lookup_of_mem
  · rw [hnames]
    exact hkeyed
  · rw [← norm_jsonRow]
    exact List.mem_map.mpr ⟨_, hmem, rfl⟩

/-- The output in a JSON format, read back. -/
theorem write_read {J : JsonDump} (hJ : J.WritesText) {format : Format}
    (hformat : format = .json ∨ format = .simpleJSON) {depth : ℕ} {f : Formattable α}
    (hkeyed : f.Keyed) {text : Bytes} (h : f.write J depth format = .ret text) :
    ∃ reply, Json.parse text = some reply ∧ Reads format depth f reply := by
  cases hformat with
  | inl hjson =>
      subst hjson
      cases f with
      | table v =>
          obtain ⟨data, hdata, hdump⟩ := Outcome.bind_eq_ret.mp h
          obtain ⟨hkeys, hvalues⟩ := tableData_eq_ret hdata
          refine ⟨_, parse_of_dump hJ hdump, reads_table hkeyed hkeys fun item hitem => ?_⟩
          exact hvalues item hitem
      | list v =>
          obtain ⟨data, hdata, hdump⟩ := Outcome.bind_eq_ret.mp h
          refine ⟨_, parse_of_dump hJ hdump, ?_⟩
          rw [norm_okJSON, norm_arrayOrNull]
          apply Reads.list
          rw [List.forall₂_map_right_iff]
          exact (listData_eq_ret hdata).imp fun a j hj => ⟨j, hj, rfl⟩
      | status value message => exact ⟨_, parse_of_status hJ h, .status value message⟩
  | inr hsimple =>
      subst hsimple
      cases f with
      | table v =>
          refine ⟨_, parse_of_dump hJ h, reads_table hkeyed ?_ fun item hitem => ?_⟩
          · rw [List.map_map]
            rfl
          · exact ⟨_, rfl, List.mem_map.mpr ⟨item, hitem, rfl⟩⟩
      | list v =>
          refine ⟨_, parse_of_dump hJ h, ?_⟩
          rw [norm_okJSON, norm_arrayOrNull]
          apply Reads.list
          rw [List.map_map, List.forall₂_map_right_iff]
          exact List.forall₂_same.mpr fun a _ => ⟨_, rfl, rfl⟩
      | status value message => exact ⟨_, parse_of_status hJ h, .status value message⟩

end

end InverterTools.Formatter

namespace InverterTools.P18

open Formatter (Formattable)

theorem format_keyed (c : CommandType) (raw : Bytes) (d : Decoded) : (format c raw d).Keyed := by
  have htable {lines : List Line} (h : (lines.map fun l => ascii l.key).Nodup) :
      (tableOf lines d.fields).Keyed := by
    unfold tableOf Formattable.Keyed
    dsimp only
    rw [List.map_map]
    exact h
  cases c with
  | getProtocolID => exact htable (by decide)
  | getCurrentTime => exact htable (by decide)
  | getTotalGenerated => exact htable (by decide)
  | getYearGenerated => exact htable (by decide)
  | getMonthGenerated => exact htable (by decide)
  | getDayGenerated => exact htable (by decide)
  | getSerialNumber => exact htable (by decide)
  | getCPUVersion => exact htable (by decide)
  | getRatedInformation => exact htable (by decide +kernel)
  | getGeneralStatus => exact htable (by decide +kernel)
  | getWorkingMode => exact htable (by decide)
  | getFaultsAndWarnings => exact htable (by decide +kernel)
  | getFlagsAndStatuses => exact htable (by decide +kernel)
  | getRatedDefaults => exact htable (by decide +kernel)
  | getParallelRatedInformation => exact htable (by decide +kernel)
  | getParallelGeneralStatus =>
      unfold format
      dsimp only
      split_ifs
      · exact htable (by decide +kernel)
      · exact htable (by decide +kernel)
  | getACChargeTimeBucket => exact htable (by decide)
  | getACSupplyTimeBucket => exact htable (by decide)
  | _ => exact trivial

end InverterTools.P18

namespace InverterTools.Connection

open Formatter (JsonDump Reads statusJSON write_read)
open P18 (CommandType Machine)
open Server (RequestType)

/-- What the body of a response in a JSON format says: nothing, an error with its text, or the
response of the command that was asked for. -/
inductive BodyRead (J : JsonDump) (m : Machine) (depth : ℕ) (options : ConnectionOptions)
    (s : Server) (env : Server.Env) (uninitialised : Option RequestType) (buf : Bytes)
    (r : Response) : Prop where
  | empty (htype : r.type = .ok) (hbody : r.buf = []) (hnone : requested m buf = none)
  | error (htype : r.type = .error) (e : Exn)
      (hthrow : (attempt J m depth options s env uninitialised buf).outcome = .throw e)
      (hread : Json.parse r.buf = some (statusJSON false (cstr e.what)))
  | response (htype : r.type = .ok) (c : CommandType) (args : List Bytes)
      (response : P18.Response) (reply : Json) (hrequested : requested m buf = some (c, args))
      (hret : (s.executeCommand m env c args).outcome = .ret response)
      (hread : Json.parse r.buf = some reply)
      (hreply : Reads options.format depth
        (P18.format response.command response.raw response.fields) reply)

/-- **The JSON formats.**  Whatever the request and the device, the body of every response on a
connection whose format is `json` or `simple-json` is empty, or is one JSON value and nothing else:
for an error the status with a message, for a command what its response shows, each row under its
own key. -/
theorem json_body_read (J : JsonDump) (hJ : J.WritesText) (m : Machine) (depth : ℕ)
    {options : ConnectionOptions} (hformat : options.format = .json ∨ options.format = .simpleJSON)
    (s : Server) (env : Server.Env) (uninitialised : Option RequestType) (buf : Bytes)
    {r : Response}
    (h : (processRequest J m depth options s env uninitialised buf).outcome = .ret r) :
    BodyRead J m depth options s env uninitialised buf r := by
  unfold processRequest at h
  cases ho : (attempt J m depth options s env uninitialised buf).outcome with
  | fault =>
      simp only [ho] at h
      cases h
  | pending =>
      simp only [ho] at h
      cases h
  | throw e =>
      simp only [ho, attempt_throw J m depth ho] at h
      obtain ⟨text, hwrite, hret⟩ := Outcome.bind_eq_ret.mp h
      obtain rfl := Outcome.ret.inj hret
      have hkeyed : (P18.errorFormat (cstr e.what)).Keyed := trivial
      obtain ⟨reply, hread, hreply⟩ := write_read hJ hformat hkeyed hwrite
      cases hreply with
      | status value message => exact .error rfl e ho hread
  | ret text =>
      simp only [ho] at h
      obtain rfl := Outcome.ret.inj h
      have hdone := attempt_ret J m depth ho
      generalize (attempt J m depth options s env uninitialised buf).options = options' at hdone
      cases hdone with
      | version argument hresult => exact .empty rfl rfl (by rw [requested, hresult])
      | format name format hresult => exact .empty rfl rfl (by rw [requested, hresult])
      | blank hresult => exact .empty rfl rfl (by rw [requested, hresult])
      | execute arguments c args response text hresult hinput hret hwrite =>
          have hrequested : requested m buf = some (c, args) := by
            rw [requested, hresult]
            show (inputCommand m arguments).toOption = _
            rw [hinput]
            rfl
          obtain ⟨reply, hread, hreply⟩ := write_read hJ hformat
            (P18.format_keyed response.command response.raw response.fields) hwrite
          exact .response rfl c args response reply hrequested hret hread hreply

/-- An unknown request in the default format. -/
theorem json_body_read_unknown :
    let s := Server.init ⟨.usb, Voltronic.defaultFlags, Voltronic.TIMEOUT⟩
    let env : Server.Env := ⟨0, 0, ⟨0, [], 0, 0, []⟩, P18.zeroBuffer, 0⟩
    let buf := ascii "mode" ++ crlf ++ [0]
    ∃ r, BodyRead Formatter.textDump P18.x86 0 .init s env none buf r := by
  intro s env buf
  let body := "\x7b\"result\":\"error\",\"message\":\"invalid token: mode\"\x7d"
  have hret : (processRequest Formatter.textDump P18.x86 0 .init s env none buf).outcome =
      .ret ⟨.error, ascii body⟩ := by
    decide +kernel
  exact ⟨_, json_body_read Formatter.textDump (Dumper.compact_writesText _) P18.x86 0 (.inl rfl) s
    env none buf hret⟩

end InverterTools.Connection
