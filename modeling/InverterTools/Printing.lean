import InverterTools.Display

/-! # When writing a response ends

Printing a code that has no name calls itself for ever, and `json::dump` throws on a text that is
not UTF-8; nothing else keeps the output of a decoded response from being written.  For tables the
lines are matched with the decoded members: every member that is a code or a text has a line that
shows it, and a line shows only what is decoded. -/

namespace InverterTools.P18

open Formatter (Format Formattable TableItem Displayed LawfulDisplayed JsonDump Written)

/-! ### Values -/

theorem validUtf8_listed {v : EnumVal} {s : Bytes} (h : v.listed = some s) :
    validUtf8 s = true := by
  have hnames : ∀ e ∈ v.type.strings, isAscii (ascii e.2) = true := by
    cases v.type <;> decide
  obtain ⟨e, he, rfl⟩ := Option.map_eq_some_iff.mp h
  exact validUtf8_of_isAscii (hnames e (List.mem_of_find?_eq_some he))

namespace Variant

/-- The value is no code without a name. -/
def Printable : Variant → Prop
  | enum v => v.listed ≠ none
  | _ => True

/-- The value is no text that is not UTF-8. -/
def Plain : Variant → Prop
  | string s => validUtf8 s = true
  | _ => True

theorem put_spec (depth : ℕ) (a : Variant) :
    (a.put depth).ReturnsWhen a.Printable (fun _ => True) := by
  cases a with
  | enum v =>
      cases h : v.listed with
      | none => exact .inr ⟨fun hne => hne h, EnumVal.put_of_not_listed h depth⟩
      | some s => exact .inl ⟨by simp [Printable, h], s, EnumVal.put_of_listed h depth, trivial⟩
  | _ => exact Outcome.returnsWhen_ret trivial

theorem toJSON_spec (depth : ℕ) (a : Variant) :
    (a.toJSON depth).ReturnsWhen a.Printable (fun j => j.Utf8 ↔ a.Plain) := by
  have hplain {j : Json} (hj : j.strings = []) : j.Utf8 ↔ True := by simp [Json.Utf8, hj]
  cases a with
  | string s => exact Outcome.returnsWhen_ret (Json.utf8_string s)
  | enum v =>
      cases h : v.listed with
      | none =>
          exact .inr ⟨fun hne => hne h, by rw [toJSON, EnumVal.put_of_not_listed h]; rfl⟩
      | some s =>
          refine .inl ⟨by simp [Printable, h], .string s, ?_, ?_⟩
          · rw [toJSON, EnumVal.put_of_listed h]
            rfl
          · simp [Plain, validUtf8_listed h]
  | _ => exact Outcome.returnsWhen_ret (hplain rfl)

theorem toSimpleJSON_utf8 (a : Variant) : a.toSimpleJSON.Utf8 ↔ a.Plain := by
  have hplain {j : Json} (hj : j.strings = []) : j.Utf8 ↔ True := by simp [Json.Utf8, hj]
  cases a with
  | string s => exact Json.utf8_string s
  | _ => exact hplain rfl

instance : LawfulDisplayed Variant where
  Printable := Printable
  Plain := Plain
  put_spec := put_spec
  toJSON_spec := toJSON_spec
  toSimpleJSON_utf8 := toSimpleJSON_utf8

end Variant

/-! ### Lines and members -/

/-- The value is a code or a text. -/
def Val.asIs : Val → Bool
  | text _ => true
  | enum _ => true
  | _ => false

/-- The item is read as a code or a text. -/
def Kind.asIs : Kind → Bool
  | enum _ => true
  | text => true
  | _ => false

/-- The member that a line shows unchanged. -/
def Shown.asIs : Shown → Option Member
  | member m => some m
  | _ => none

/-- The members, with those marked that hold a code or a text. -/
def signature (ms : List (Member × Val)) : List (Member × Bool) :=
  ms.map (fun m => (m.1, m.2.asIs))

/-- The members that a list of items fills. -/
def itemSignature (items : List Item) : List (Member × Bool) :=
  items.map (fun item => (item.name, item.kind.asIs))

/-- The lines show decoded members, and all that hold a code or a text. -/
structure Shows (sig : List (Member × Bool)) (lines : List Line) : Prop where
  nodup : (sig.map Prod.fst).Nodup
  decoded : ∀ m ∈ lines.filterMap (fun l => l.shown.asIs), m ∈ sig.map Prod.fst
  shown : ∀ p ∈ sig, p.2 = true → p.1 ∈ lines.filterMap (fun l => l.shown.asIs)

instance (sig : List (Member × Bool)) (lines : List Line) : Decidable (Shows sig lines) :=
  decidable_of_iff ((sig.map Prod.fst).Nodup ∧
      (∀ m ∈ lines.filterMap (fun l => l.shown.asIs), m ∈ sig.map Prod.fst) ∧
      ∀ p ∈ sig, p.2 = true → p.1 ∈ lines.filterMap (fun l => l.shown.asIs))
    ⟨fun ⟨h1, h2, h3⟩ => ⟨h1, h2, h3⟩, fun ⟨h1, h2, h3⟩ => ⟨h1, h2, h3⟩⟩

theorem memberVal_of_mem {m : Member} {v : Val} : ∀ {ms : List (Member × Val)},
    (ms.map Prod.fst).Nodup → (m, v) ∈ ms → memberVal ms m = v
  | (n, w) :: ms, hn, hm => by
      obtain ⟨hnot, hn⟩ := List.nodup_cons.mp hn
      rw [memberVal, List.lookup_cons]
      rcases List.mem_cons.mp hm with heq | hin
      · obtain ⟨rfl, rfl⟩ := Prod.mk.inj heq
        simp
      · have hne : m ≠ n := by
          rintro rfl
          exact hnot (List.mem_map.mpr ⟨(m, v), hin, rfl⟩)
        rw [beq_eq_false_iff_ne.mpr hne]
        exact memberVal_of_mem hn hin

/-- What holds of everything that the lines show holds of everything that was decoded. -/
theorem forall_shown_iff {lines : List Line} {ms : List (Member × Val)} {P : Val → Prop}
    {Q : Variant → Prop} (hs : Shows (signature ms) lines) (hQ : ∀ v, Q v.variant ↔ P v)
    (hP : ∀ v, v.asIs = false → P v) (hdouble : ∀ n, Q (.double n))
    (htime : ∀ h m, Q (.string (getTime h m))) :
    (∀ l ∈ lines, Q (l.shown.value ms)) ↔ ∀ m ∈ ms, P m.2 := by
  have hnames : (signature ms).map Prod.fst = ms.map Prod.fst := by simp [signature]
  have hnodup : (ms.map Prod.fst).Nodup := hnames ▸ hs.nodup
  constructor
  · rintro h ⟨m, v⟩ hm
    cases hv : v.asIs with
    | false => exact hP v hv
    | true =>
        obtain ⟨l, hl, hshown⟩ := List.mem_filterMap.mp
          (hs.shown (m, true) (List.mem_map.mpr ⟨(m, v), hm, by rw [hv]⟩) rfl)
        have hval := h l hl
        cases hl' : l.shown with
        | member n =>
            rw [hl'] at hshown hval
            obtain rfl := Option.some.inj hshown
            rwa [Shown.value, memberVal_of_mem hnodup hm, hQ] at hval
        | tenths n => simp [hl', Shown.asIs] at hshown
        | time n k => simp [hl', Shown.asIs] at hshown
  · intro h l hl
    cases hl' : l.shown with
    | member n =>
        have hn := hs.decoded n (List.mem_filterMap.mpr ⟨l, hl, by rw [hl']; rfl⟩)
        rw [hnames] at hn
        obtain ⟨⟨_, v⟩, hm, rfl⟩ := List.mem_map.mp hn
        rw [Shown.value, memberVal_of_mem hnodup hm, hQ]
        exact h _ hm
    | tenths n => exact hdouble _
    | time n k => exact htime _ _

/-! ### What a response contains -/

/-- The value is no code without a name. -/
def Val.Listed : Val → Prop
  | enum v => v.listed ≠ none
  | _ => True

/-- The value is no text that is not UTF-8. -/
def Val.Plain : Val → Prop
  | text s => validUtf8 s = true
  | _ => True

/-- Every code the device sent has a name. -/
def Decoded.Listed (d : Decoded) : Prop := ∀ m ∈ d.fields, m.2.Listed

/-- Every text the device sent is UTF-8. -/
def Decoded.Plain (d : Decoded) : Prop := ∀ m ∈ d.fields, m.2.Plain

/-- The output shows the codes and the texts of a response. -/
structure Outputs (f : Formattable Variant) (d : Decoded) : Prop where
  ends_iff : ∀ format, f.Ends format ↔ format = .simpleJSON ∨ d.Listed
  plain_iff : ∀ format, f.Plain format ↔ format = .table ∨ format = .simpleTable ∨ d.Plain

theorem isPrintable_getTime (h m : ℕ) : isPrintable (getTime h m) = true := by
  have hfixed (n : ℕ) : isPrintable (fixed 2 n) = true :=
    isPrintable_of_allDigits (allDigits_zeroPad (allDigits_decimal n))
  simp only [getTime, isPrintable_append, hfixed]
  decide

theorem tableOf_outputs {lines : List Line} {ms : List (Member × Val)}
    (hs : Shows (signature ms) lines) : Outputs (tableOf lines ms) (.members ms) where
  ends_iff format := by
    have hlisted := forall_shown_iff (P := Val.Listed) (Q := Variant.Printable) hs
      (fun v => by cases v <;> rfl) (fun v hv => by cases v <;> trivial)
      (fun _ => trivial) (fun _ _ => trivial)
    exact or_congr_right (List.forall_mem_map.trans hlisted)
  plain_iff format := by
    have hplain := forall_shown_iff (P := Val.Plain) (Q := Variant.Plain) hs
      (fun v => by cases v <;> rfl) (fun v hv => by cases v <;> trivial)
      (fun _ => trivial)
      (fun h m => validUtf8_of_isAscii (isAscii_of_isPrintable (isPrintable_getTime h m)))
    exact or_congr_right (or_congr_right (List.forall_mem_map.trans hplain))

theorem decode_asIs {k : Kind} {s : Bytes} {v : Val} (h : k.decode s = .ok v) :
    v.asIs = k.asIs := by
  cases k with
  | number => obtain ⟨n, -, rfl⟩ := map_eq_ok.mp h; rfl
  | enum type => obtain ⟨n, -, rfl⟩ := map_eq_ok.mp h; rfl
  | flag => obtain ⟨n, -, rfl⟩ := map_eq_ok.mp h; rfl
  | char => obtain rfl := Except.ok.inj h; rfl
  | text => obtain rfl := Except.ok.inj h; rfl

section

variable {c : CommandType} {rawSize : ℕ} {mem : Bytes}

theorem unpackItems_signature {list : List Bytes} : ∀ {i : ℕ} {items : List Item}
    {ms : List (Member × Val)}, (unpackItems list i items).run mem = .ret ms →
      signature ms = itemSignature items
  | i, [], ms, h => by
      obtain rfl := Outcome.ret.inj h
      rfl
  | i, item :: items, ms, h => by
      rw [unpackItems, Probe.run_bind] at h
      obtain ⟨s, -, h⟩ := Outcome.bind_eq_ret.mp h
      rw [Probe.run_bind, Probe.run_lift] at h
      obtain ⟨v, hv, h⟩ := Outcome.bind_eq_ret.mp h
      rw [Probe.run_bind] at h
      obtain ⟨rest, hrest, h⟩ := Outcome.bind_eq_ret.mp h
      obtain rfl := Outcome.ret.inj h
      have hsig := unpackItems_signature hrest
      have hasIs := decode_asIs (Outcome.lift_eq_ret.mp hv)
      simp only [signature, itemSignature, List.map_cons] at hsig ⊢
      rw [hsig, hasIs]

theorem unpackList_outputs {l : ListLayout} {lines : List Line} {d : Decoded}
    (h : (unpackList c rawSize l).run mem = .ret d)
    (hs : Shows (itemSignature l.items) lines) : Outputs (tableOf lines d.fields) d := by
  rw [unpackList_eq, Probe.run_bind] at h
  obtain ⟨list, -, h⟩ := Outcome.bind_eq_ret.mp h
  rw [Probe.run_bind] at h
  obtain ⟨ms, hms, h⟩ := Outcome.bind_eq_ret.mp h
  obtain rfl := Outcome.ret.inj h
  exact tableOf_outputs (unpackItems_signature hms ▸ hs)

theorem cutSerialNumber_signature : ∀ ms : List (Member × Val),
    signature (cutSerialNumber ms) = signature ms := by
  intro ms
  unfold cutSerialNumber
  split <;> rfl

theorem unpackParallelRatedInformation_outputs {d : Decoded}
    (h : (unpackParallelRatedInformation c rawSize).run mem = .ret d) :
    Outputs (tableOf parallelRatedInformationLines d.fields) d := by
  rw [unpackParallelRatedInformation_eq, Probe.run_bind] at h
  obtain ⟨list, -, h⟩ := Outcome.bind_eq_ret.mp h
  rw [Probe.run_bind] at h
  obtain ⟨ms, hms, h⟩ := Outcome.bind_eq_ret.mp h
  obtain rfl := Outcome.ret.inj h
  refine tableOf_outputs ?_
  rw [Decoded.fields_members, cutSerialNumber_signature, unpackItems_signature hms]
  decide

theorem signature_append (ms ms' : List (Member × Val)) :
    signature (ms ++ ms') = signature ms ++ signature ms' := List.map_append

theorem maxTempPresent_iff {ms : List (Member × Val)} :
    maxTempPresent ms = true ↔ .maxTemp ∈ (signature ms).map Prod.fst := by
  rw [maxTempPresent, List.lookup_isSome_iff]
  simp [signature]

theorem unpackParallelGeneralStatus_outputs {d : Decoded} {raw : Bytes}
    (h : (unpackParallelGeneralStatus c rawSize).run mem = .ret d) :
    Outputs (format .getParallelGeneralStatus raw d) d := by
  rw [unpackParallelGeneralStatus_eq, Probe.run_bind] at h
  obtain ⟨list, -, h⟩ := Outcome.bind_eq_ret.mp h
  rw [Probe.run_bind] at h
  obtain ⟨ms, hms, h⟩ := Outcome.bind_eq_ret.mp h
  have hsig := unpackItems_signature hms
  show Outputs (if maxTempPresent d.fields then
      tableOf (parallelGeneralStatusLines ++ [maxTempLine]) d.fields
    else tableOf parallelGeneralStatusLines d.fields) d
  split_ifs at h with h29
  · rw [Probe.run_bind] at h
    obtain ⟨max_temp, hmax, h⟩ := Outcome.bind_eq_ret.mp h
    obtain rfl := Outcome.ret.inj h
    have hall : signature (ms ++ max_temp) = itemSignature parallelGeneralStatus.items := by
      rw [signature_append, hsig, unpackItems_signature hmax]
      rfl
    have hpresent : maxTempPresent (ms ++ max_temp) = true := by
      rw [maxTempPresent_iff, hall]
      decide
    show Outputs (if maxTempPresent (ms ++ max_temp) = true then _ else _) _
    rw [if_pos hpresent]
    refine tableOf_outputs ?_
    rw [Decoded.fields_members, hall]
    decide
  · obtain rfl := Outcome.ret.inj h
    have habsent : ¬ maxTempPresent ms = true := by
      rw [maxTempPresent_iff, hsig]
      decide
    show Outputs (if maxTempPresent ms = true then _ else _) _
    rw [if_neg habsent]
    refine tableOf_outputs ?_
    rw [Decoded.fields_members, hsig]
    decide

theorem exists_timeBucket {d : Decoded}
    (h : (unpackACChargeTimeBucket c rawSize).run mem = .ret d) :
    ∃ start_h start_m end_h end_m, d = .members [(.startH, .ushort start_h),
      (.startM, .ushort start_m), (.endH, .ushort end_h), (.endM, .ushort end_m)] := by
  simp only [unpackACChargeTimeBucket, Probe.run_bind, Outcome.bind_eq_ret] at h
  obtain ⟨list, -, start_h, -, start_m, -, end_h, -, end_m, -, h⟩ := h
  exact ⟨start_h, start_m, end_h, end_m, (Outcome.ret.inj h).symm⟩

theorem unpackACChargeTimeBucket_outputs {d : Decoded}
    (h : (unpackACChargeTimeBucket c rawSize).run mem = .ret d) :
    Outputs (tableOf acChargeTimeBucketLines d.fields) d := by
  obtain ⟨start_h, start_m, end_h, end_m, rfl⟩ := exists_timeBucket h
  exact tableOf_outputs (show Shows [(.startH, false), (.startM, false), (.endH, false),
    (.endM, false)] _ by decide)

theorem unpackAllowedChargeCurrents_outputs {d : Decoded}
    (h : (unpackAllowedChargeCurrents c rawSize).run mem = .ret d) :
    Outputs (.list (d.vector.map .unsigned)) d := by
  simp only [unpackAllowedChargeCurrents, Probe.run_bind, Outcome.bind_eq_ret] at h
  obtain ⟨list, -, ns, -, h⟩ := h
  obtain rfl := Outcome.ret.inj h
  refine ⟨fun format => or_congr_right (iff_of_true ?_ ?_), fun format =>
    or_congr_right (or_congr_right (iff_of_true ?_ ?_))⟩
  · exact List.forall_mem_map.mpr fun _ _ => trivial
  · exact fun m hm => absurd hm List.not_mem_nil
  · exact List.forall_mem_map.mpr fun _ _ => trivial
  · exact fun m hm => absurd hm List.not_mem_nil

theorem exists_protocolID {d : Decoded} (h : unpackProtocolID.run mem = .ret d) :
    ∃ id, d = .members [(.id, .unsigned id)] := by
  simp only [unpackProtocolID, Probe.run_bind, Outcome.bind_eq_ret] at h
  obtain ⟨b0, -, h⟩ := h
  split_ifs at h
  · simp only [Probe.run_bind, Outcome.bind_eq_ret] at h
    obtain ⟨s, -, id, -, h⟩ := h
    exact ⟨id, (Outcome.ret.inj h).symm⟩
  · simp only [Probe.run_bind, Outcome.bind_eq_ret] at h
    obtain ⟨b1, -, s, -, id, -, h⟩ := h
    exact ⟨id, (Outcome.ret.inj h).symm⟩

theorem unpackProtocolID_outputs {d : Decoded} (h : unpackProtocolID.run mem = .ret d) :
    Outputs (tableOf protocolIDLines d.fields) d := by
  obtain ⟨id, rfl⟩ := exists_protocolID h
  exact tableOf_outputs (show Shows [(.id, false)] _ by decide)

theorem exists_currentTime {d : Decoded} (h : unpackCurrentTime.run mem = .ret d) :
    ∃ year month day hour minute second, d = .members [(.year, .unsigned year),
      (.month, .ushort month), (.day, .ushort day), (.hour, .ushort hour),
      (.minute, .ushort minute), (.second, .ushort second)] := by
  simp only [unpackCurrentTime, Probe.run_bind, Outcome.bind_eq_ret] at h
  obtain ⟨year, -, month, -, day, -, hour, -, minute, -, second, -, h⟩ := h
  exact ⟨year, _, _, _, _, _, (Outcome.ret.inj h).symm⟩

theorem unpackCurrentTime_outputs {d : Decoded} (h : unpackCurrentTime.run mem = .ret d) :
    Outputs (tableOf currentTimeLines d.fields) d := by
  obtain ⟨year, month, day, hour, minute, second, rfl⟩ := exists_currentTime h
  exact tableOf_outputs (show Shows [(.year, false), (.month, false), (.day, false),
    (.hour, false), (.minute, false), (.second, false)] _ by decide)

theorem exists_totalGenerated {d : Decoded} (h : unpackTotalGenerated.run mem = .ret d) :
    ∃ wh, d = .members [(.wh, .ulong wh)] := by
  simp only [unpackTotalGenerated, Probe.run_bind, Outcome.bind_eq_ret] at h
  obtain ⟨wh, -, h⟩ := h
  exact ⟨wh, (Outcome.ret.inj h).symm⟩

theorem unpackTotalGenerated_outputs {d : Decoded} (h : unpackTotalGenerated.run mem = .ret d) :
    Outputs (tableOf totalGeneratedLines d.fields) d := by
  obtain ⟨wh, rfl⟩ := exists_totalGenerated h
  exact tableOf_outputs (show Shows [(.wh, false)] _ by decide)

theorem unpackSerialNumber_outputs {d : Decoded} (h : unpackSerialNumber.run mem = .ret d) :
    Outputs (tableOf serialNumberLines d.fields) d := by
  simp only [unpackSerialNumber, Probe.run_bind, Outcome.bind_eq_ret] at h
  obtain ⟨buf, -, len, -, h⟩ := h
  split_ifs at h
  · cases h
  · rw [Probe.run_bind] at h
    obtain ⟨id, -, h⟩ := Outcome.bind_eq_ret.mp h
    obtain rfl := Outcome.ret.inj h
    exact tableOf_outputs (show Shows [(.id, true)] _ by decide)

theorem exists_workingMode {d : Decoded} (h : unpackWorkingMode.run mem = .ret d) :
    ∃ mode, d = .members [(.mode, .enum (.cast .workingMode mode))] := by
  simp only [unpackWorkingMode, Probe.run_bind, Outcome.bind_eq_ret] at h
  obtain ⟨mode, -, h⟩ := h
  exact ⟨mode, (Outcome.ret.inj h).symm⟩

theorem unpackWorkingMode_outputs {d : Decoded} (h : unpackWorkingMode.run mem = .ret d) :
    Outputs (tableOf workingModeLines d.fields) d := by
  obtain ⟨mode, rfl⟩ := exists_workingMode h
  exact tableOf_outputs (show Shows [(.mode, true)] _ by decide)

theorem set_outputs {raw : Bytes} {d : Decoded}
    (h : (pure .nothing : Probe Exn Decoded).run mem = .ret d) :
    Outputs (.status (setGet raw) []) d := by
  obtain rfl := Outcome.ret.inj h
  exact ⟨fun _ => iff_of_true trivial (.inr fun m hm => absurd hm List.not_mem_nil),
    fun _ => or_congr_right (or_congr_right
      (iff_of_true rfl fun m hm => absurd hm List.not_mem_nil))⟩

/-- Every response class shows what it has decoded. -/
theorem format_outputs {raw : Bytes} {d : Decoded} (h : (unpack c rawSize).run mem = .ret d) :
    Outputs (format c raw d) d := by
  cases c with
  | getProtocolID => exact unpackProtocolID_outputs h
  | getCurrentTime => exact unpackCurrentTime_outputs h
  | getTotalGenerated => exact unpackTotalGenerated_outputs h
  | getYearGenerated => exact unpackTotalGenerated_outputs h
  | getMonthGenerated => exact unpackTotalGenerated_outputs h
  | getDayGenerated => exact unpackTotalGenerated_outputs h
  | getSerialNumber => exact unpackSerialNumber_outputs h
  | getCPUVersion => exact unpackList_outputs h (by decide)
  | getRatedInformation => exact unpackList_outputs h (by decide)
  | getGeneralStatus => exact unpackList_outputs h (by decide)
  | getWorkingMode => exact unpackWorkingMode_outputs h
  | getFaultsAndWarnings => exact unpackList_outputs h (by decide)
  | getFlagsAndStatuses => exact unpackList_outputs h (by decide)
  | getRatedDefaults => exact unpackList_outputs h (by decide)
  | getAllowedChargeCurrents => exact unpackAllowedChargeCurrents_outputs h
  | getAllowedACChargeCurrents => exact unpackAllowedChargeCurrents_outputs h
  | getParallelRatedInformation => exact unpackParallelRatedInformation_outputs h
  | getParallelGeneralStatus => exact unpackParallelGeneralStatus_outputs h
  | getACChargeTimeBucket => exact unpackACChargeTimeBucket_outputs h
  | getACSupplyTimeBucket => exact unpackACChargeTimeBucket_outputs h
  | _ => exact set_outputs h

end

/-- **Writing a decoded response** ends with a text exactly when every code shown has a name,
unless the format is `simple-json`, and every text shown is UTF-8, if the format is JSON. -/
theorem format_written_iff (J : JsonDump) {c : CommandType} {rawSize : ℕ} {mem : Bytes}
    {d : Decoded} (h : (unpack c rawSize).run mem = .ret d) (f : Format) :
    (∃ depth s, (format c mem d).write J depth f = .ret s) ↔
      (f = .simpleJSON ∨ d.Listed) ∧ (f = .table ∨ f = .simpleTable ∨ d.Plain) := by
  have hout : Outputs (format c mem d) d := format_outputs h
  have hwritten (depth : ℕ) := Formattable.write_written J depth f (format_asciiKeys c mem d)
  rw [hout.ends_iff, hout.plain_iff] at hwritten
  constructor
  · rintro ⟨depth, s, hs⟩
    cases hwritten depth with
    | text s' ho he hp => exact ⟨he, hp⟩
    | thrown e ho => simp [ho] at hs
    | stuck ho => simp [ho] at hs
  · rintro ⟨he, hp⟩
    cases hwritten 0 with
    | text s ho => exact ⟨0, s, ho⟩
    | thrown e _ _ _ hnot => exact absurd hp hnot
    | stuck _ hnot => exact absurd he hnot

/-- The hybrid mode, in JSON. -/
theorem format_written_hybrid :
    (∃ depth s, (format .getWorkingMode (bufferWith (ascii "^D00505") 0)
        (.members [(.mode, .enum ⟨.workingMode, 5⟩)])).write Formatter.textDump depth .json =
          .ret s) ↔
      (Format.json = .simpleJSON ∨ Decoded.Listed (.members [(.mode, .enum ⟨.workingMode, 5⟩)])) ∧
        (Format.json = .table ∨ Format.json = .simpleTable ∨
          Decoded.Plain (.members [(.mode, .enum ⟨.workingMode, 5⟩)])) :=
  format_written_iff Formatter.textDump (show (unpack .getWorkingMode 7).run _ = _ by
    decide +kernel) .json

/-- A working mode `06` passes `validate` and `unpack` and is never printed. -/
theorem format_unlisted_mode :
    (validate .getWorkingMode 7).run (bufferWith (ascii "^D00506") 0) = .ret true ∧
      (unpack .getWorkingMode 7).run (bufferWith (ascii "^D00506") 0) =
        .ret (.members [(.mode, .enum ⟨.workingMode, 6⟩)]) ∧
      ¬ ∃ depth s, (format .getWorkingMode (bufferWith (ascii "^D00506") 0)
        (.members [(.mode, .enum ⟨.workingMode, 6⟩)])).write Formatter.textDump depth .table =
          .ret s := by
  have hunpack : (unpack .getWorkingMode 7).run (bufferWith (ascii "^D00506") 0) =
      .ret (.members [(.mode, .enum ⟨.workingMode, 6⟩)]) := by decide +kernel
  refine ⟨by decide, hunpack, ?_⟩
  rw [format_written_iff Formatter.textDump hunpack]
  rintro ⟨h | h, -⟩
  · cases h
  · exact h _ List.mem_cons_self (by decide)

end InverterTools.P18
