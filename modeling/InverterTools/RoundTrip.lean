import InverterTools.Decoding
import InverterTools.Validation
import InverterTools.Lib.Layout

/-! # Answers read back

`Encodes c data d` says that `data` is the data of an answer with the values `d`: numbers of fixed
width, one after the other or as the items of a list.  Behind `^D` and three digits of length it
passes `validate`, and `unpack` stores the values (`decode_encoded`). -/

namespace InverterTools.P18

/-- A number, an enumeration or a flag is a number on the wire. -/
def Kind.isNumber : Kind → Bool
  | number | enum _ | flag => true
  | char | text => false

/-- The text of a value in an item of `w` characters. -/
inductive Kind.Encodes : Kind → ℕ → Val → Bytes → Prop
  | number {w n : ℕ} (h : n < 10 ^ w) : Encodes .number w (.unsigned n) (fixed w n)
  | enum (type : EnumType) {w n : ℕ} (h : n < 10 ^ w) :
      Encodes (.enum type) w (.enum ⟨type, n⟩) (fixed w n)
  | flag (w : ℕ) (b : Bool) : Encodes .flag w (.bool b) (fixed w b.toNat)
  | char {b : UInt8} (h : b ≠ 0x2C) : Encodes .char 1 (.char b) [b]
  | text {w : ℕ} {s : Bytes} (hs : 0x2C ∉ s) (hw : s.length = w) : Encodes .text w (.text s) s

/-- The texts of the values of some items. -/
inductive EncodesItems : List Item → List Bytes → List (Member × Val) → Prop
  | nil : EncodesItems [] [] []
  | cons {item : Item} {items : List Item} {w : ℕ} {v : Val} {s : Bytes} {texts : List Bytes}
      {ms : List (Member × Val)} (hw : item.length.validate w = true)
      (h : item.kind.Encodes w v s) (hs : EncodesItems items texts ms) :
      EncodesItems (item :: items) (s :: texts) ((item.name, v) :: ms)

/-- Items between commas. -/
def joined (texts : List Bytes) : Bytes := (ascii ",").intercalate texts

/-- The data of an answer that is a list of the given items. -/
def EncodesList (items : List Item) (data : Bytes) (d : Decoded) : Prop :=
  ∃ texts ms, EncodesItems items texts ms ∧ data = joined texts ∧ d = .members ms

/-- The data of an answer with the given values. -/
def Encodes (c : CommandType) (data : Bytes) (d : Decoded) : Prop :=
  match c with
  | .getProtocolID => ∃ n, n < 10 ^ 2 ∧ data = fixed 2 n ∧ d = .members [(.id, .unsigned n)]
  | .getCurrentTime => ∃ y mo da h mi s, y < 10 ^ 4 ∧ mo < 10 ^ 2 ∧ da < 10 ^ 2 ∧ h < 10 ^ 2 ∧
      mi < 10 ^ 2 ∧ s < 10 ^ 2 ∧
      data = fixed 4 y ++ (fixed 2 mo ++ (fixed 2 da ++ (fixed 2 h ++ (fixed 2 mi ++ fixed 2 s)))) ∧
      d = .members [(.year, .unsigned y), (.month, .ushort mo), (.day, .ushort da),
        (.hour, .ushort h), (.minute, .ushort mi), (.second, .ushort s)]
  | .getTotalGenerated | .getYearGenerated | .getMonthGenerated | .getDayGenerated =>
      ∃ wh, wh < 10 ^ 8 ∧ data = fixed 8 wh ∧ d = .members [(.wh, .ulong wh)]
  | .getSerialNumber => ∃ id padding, id.length < 10 ^ 2 ∧
      data = fixed 2 id.length ++ (id ++ padding) ∧ d = .members [(.id, .text id)]
  | .getWorkingMode => ∃ n : ℕ, n < 10 ^ 2 ∧ data = fixed 2 n ∧
      d = .members [(.mode, .enum ⟨.workingMode, n⟩)]
  | .getCPUVersion => EncodesList cpuVersion.items data d
  | .getRatedInformation => EncodesList ratedInformation.items data d
  | .getGeneralStatus => EncodesList generalStatus.items data d
  | .getFaultsAndWarnings => EncodesList faultsAndWarnings.items data d
  | .getFlagsAndStatuses => EncodesList flagsAndStatuses.items data d
  | .getRatedDefaults => EncodesList ratedDefaults.items data d
  | .getParallelRatedInformation => ∃ first a serial padding rest ms,
      -- the serial number is padded to 20 characters, its length stands before it
      EncodesItems (parallelRatedInformation.items.take 1) first a ∧
      serial.length + padding.length = 20 ∧ 0x2C ∉ serial ++ padding ∧
      EncodesItems (parallelRatedInformation.items.drop 3) rest ms ∧
      data = joined (first ++ fixed 2 serial.length :: (serial ++ padding) :: rest) ∧
      d = .members (a ++ (.serialNumberValidLength, .unsigned serial.length) ::
        (.serialNumber, .text serial) :: ms)
  | .getParallelGeneralStatus => ∃ texts ms last max_temp,
      EncodesItems (parallelGeneralStatus.items.take 28) texts ms ∧
      (last = [] ∧ max_temp = [] ∨
        EncodesItems (parallelGeneralStatus.items.drop 28) last max_temp) ∧
      data = joined (texts ++ last) ∧ d = .members (ms ++ max_temp)
  | .getACChargeTimeBucket | .getACSupplyTimeBucket => ∃ h1 m1 h2 m2, h1 < 10 ^ 2 ∧ m1 < 10 ^ 2 ∧
      h2 < 10 ^ 2 ∧ m2 < 10 ^ 2 ∧
      data = joined [fixed 2 h1 ++ fixed 2 m1, fixed 2 h2 ++ fixed 2 m2] ∧
      d = .members [(.startH, .ushort h1), (.startM, .ushort m1), (.endH, .ushort h2),
        (.endM, .ushort m2)]
  | _ => False

/-- The payload of an answer with the given data. -/
def dataPayload (data : Bytes) : Bytes := ascii "^D" ++ fixed 3 (data.length + 3) ++ data

/-! ### Numbers -/

/-- A number in a field of up to nine characters is read as that number. -/
theorem stoul_fixed {w n : ℕ} (hw : 0 < w) (hw9 : w ≤ 9) (h : n < 10 ^ w) :
    stoul (fixed w n) = .ok n ∧ n < 10 ^ 9 := by
  obtain ⟨hlen, hdigits, hval⟩ := fixed_spec hw h
  have hlt : n < 10 ^ 9 := h.trans_le (Nat.pow_le_pow_right (by norm_num) hw9)
  have hne : fixed w n ≠ [] := List.ne_nil_of_length_pos (by omega)
  refine ⟨?_, hlt⟩
  rw [stoul_allDigits hdigits hne (by rw [hval]; omega), hval]

theorem stou_fixed {w n : ℕ} (hw : 0 < w) (hw9 : w ≤ 9) (h : n < 10 ^ w) :
    stou (fixed w n) = .ok n := by
  obtain ⟨hread, hlt⟩ := stoul_fixed hw hw9 h
  rw [stou, hread]
  exact congrArg Except.ok (Nat.mod_eq_of_lt (by omega))

theorem stouh_fixed {n : ℕ} (h : n < 10 ^ 2) : stouh (fixed 2 n) = .ok n := by
  obtain ⟨hread, -⟩ := stoul_fixed (by norm_num) (by norm_num) h
  rw [stouh, hread]
  exact congrArg Except.ok (Nat.mod_eq_of_lt (by omega))

theorem enum_cast {type : EnumType} {n : ℕ} (h : n < 10 ^ 9) : EnumVal.cast type n = ⟨type, n⟩ := by
  have : toInt n = n := by
    unfold toInt
    rw [Int.bmod_eq_of_le (by omega) (by omega)]
  rw [EnumVal.cast, this]

/-! ### Items -/

/-- An item has room for a character, and a number in it has at most nine. -/
def Item.Sized (item : Item) : Prop :=
  0 < item.length.min ∧ (item.kind.isNumber = true → item.length.max ≤ 9)

instance (item : Item) : Decidable item.Sized := inferInstanceAs (Decidable (_ ∧ _))

theorem Kind.Encodes.decode {k : Kind} {w : ℕ} {v : Val} {s : Bytes} (h : k.Encodes w v s)
    (hw : 0 < w) (h9 : k.isNumber = true → w ≤ 9) :
    k.decode s = .ok v ∧ s.length = w ∧ 0x2C ∉ s := by
  cases h with
  | number h =>
      obtain ⟨hlen, hdigits, -⟩ := fixed_spec hw h
      refine ⟨?_, hlen, comma_notMem_of_allDigits hdigits⟩
      rw [Kind.decode, stou_fixed hw (h9 rfl) h]
      rfl
  | enum type h =>
      obtain ⟨hlen, hdigits, -⟩ := fixed_spec hw h
      refine ⟨?_, hlen, comma_notMem_of_allDigits hdigits⟩
      rw [Kind.decode, stou_fixed hw (h9 rfl) h, ← enum_cast (stoul_fixed hw (h9 rfl) h).2]
      rfl
  | flag w b =>
      have hb : b.toNat < 10 ^ w := by
        have h1 := Bool.toNat_le b
        have h10 : 10 ^ 1 ≤ 10 ^ w := Nat.pow_le_pow_right (by norm_num) hw
        omega
      obtain ⟨hlen, hdigits, -⟩ := fixed_spec hw hb
      refine ⟨?_, hlen, comma_notMem_of_allDigits hdigits⟩
      rw [Kind.decode, stou_fixed hw (h9 rfl) hb]
      cases b <;> rfl
  | @char b h =>
      refine ⟨?_, rfl, by simpa using h.symm⟩
      rw [Kind.decode]
      by_cases hb : b = 0
      · rw [hb]
        rfl
      · rw [cstr_of_notMem (by simpa using fun h => hb h.symm)]
        rfl
  | text hs hw => exact ⟨rfl, hw, hs⟩

theorem tables_sized : ∀ l ∈ [cpuVersion, ratedInformation, generalStatus, faultsAndWarnings,
    flagsAndStatuses, ratedDefaults, parallelRatedInformation, parallelGeneralStatus],
    ∀ item ∈ l.items, item.Sized := by
  decide

namespace EncodesItems

variable {items more : List Item} {texts list : List Bytes} {ms : List (Member × Val)}

theorem append {a b : List Item} {s t : List Bytes} {ms ns : List (Member × Val)}
    (h : EncodesItems a s ms) (h' : EncodesItems b t ns) :
    EncodesItems (a ++ b) (s ++ t) (ms ++ ns) := by
  induction h with
  | nil => exact h'
  | cons hw h _ ih => exact .cons hw h ih

theorem length_eq (h : EncodesItems items texts ms) : texts.length = items.length := by
  induction h with
  | nil => rfl
  | cons _ _ _ ih => rw [List.length_cons, List.length_cons, ih]

theorem comma_notMem (h : EncodesItems items texts ms) (hsized : ∀ item ∈ items, item.Sized) :
    ∀ s ∈ texts, (0x2C : UInt8) ∉ s := by
  induction h with
  | nil => simp
  | @cons item items w v s texts ms hw h _ ih =>
      obtain ⟨⟨h0, h9⟩, hrest⟩ := List.forall_mem_cons.mp hsized
      obtain ⟨hmin, hmax⟩ := of_decide_eq_true hw
      obtain ⟨-, -, hcomma⟩ := h.decode (by omega) (fun hn => hmax.trans (h9 hn))
      exact List.forall_mem_cons.mpr ⟨hcomma, ih hrest⟩

/-- The checks of `getList` pass the items and go on behind them. -/
theorem checkItems_append (h : EncodesItems items texts ms)
    (hsized : ∀ item ∈ items, item.Sized) (c : CommandType) (ls : List FieldLength)
    (rest : List Bytes) (i : ℕ) :
    checkItems c i (items.map Item.length ++ ls) (texts ++ rest) =
      checkItems c (i + items.length) ls rest := by
  induction h generalizing i with
  | nil => rfl
  | @cons item items w v s texts ms hw h _ ih =>
      obtain ⟨⟨h0, h9⟩, hrest⟩ := List.forall_mem_cons.mp hsized
      obtain ⟨hmin, hmax⟩ := of_decide_eq_true hw
      obtain ⟨-, hlen, -⟩ := h.decode (by omega) (fun hn => hmax.trans (h9 hn))
      rw [List.map_cons, List.cons_append, List.cons_append, checkItems, hlen, if_pos hw, ih hrest,
        List.length_cons, Nat.add_assoc, Nat.add_comm 1]

theorem unpackItems_run (h : EncodesItems items texts ms) (hsized : ∀ item ∈ items, item.Sized)
    (mem : Bytes) (before rest : List Bytes) :
    (unpackItems (before ++ (texts ++ rest)) before.length items).run mem = .ret ms := by
  induction h generalizing before with
  | nil => rfl
  | @cons item items w v s texts ms hw h _ ih =>
      obtain ⟨⟨h0, h9⟩, hrest⟩ := List.forall_mem_cons.mp hsized
      obtain ⟨hmin, hmax⟩ := of_decide_eq_true hw
      obtain ⟨hdecode, -, -⟩ := h.decode (by omega) (fun hn => hmax.trans (h9 hn))
      have hat : elementAt (before ++ (s :: texts ++ rest)) before.length = .ret s := by
        rw [elementAt, List.getElem?_append_right le_rfl, Nat.sub_self]
        rfl
      have hnext := ih hrest (before ++ [s])
      rw [List.length_append, List.append_assoc, List.length_singleton] at hnext
      rw [unpackItems, hat, Probe.ret_bind, hdecode, Probe.lift_ok, Probe.ret_bind, Probe.run_bind,
        List.cons_append, ← List.singleton_append, hnext]
      rfl

end EncodesItems

/-! ### The payload -/

section

variable {mem data rest : Bytes}

theorem dataPayload_length (h : data.length + 3 < 10 ^ 3) :
    (dataPayload data).length = data.length + 5 := by
  rw [dataPayload, List.length_append, List.length_append, (fixed_spec (by norm_num) h).1]
  show 2 + 3 + data.length = _
  omega

theorem dataPayload_drop (h : data.length + 3 < 10 ^ 3) :
    (dataPayload data ++ rest).drop 5 = data ++ rest := by
  have hlen : (ascii "^D" ++ fixed 3 (data.length + 3)).length = 5 := by
    rw [List.length_append, (fixed_spec (by norm_num) h).1]
    rfl
  rw [dataPayload, List.append_assoc, List.drop_left' hlen]

theorem getValidate_dataPayload (h2 : 2 ≤ data.length) (h : data.length + 3 < 10 ^ 3) :
    (getValidate (data.length + 5)).run (dataPayload data ++ rest) = .ret true := by
  obtain ⟨hlen, hdigits, hval⟩ := fixed_spec (by norm_num : 0 < 3) h
  refine (getValidate_iff hlen hdigits (by omega)).mpr ?_
  rw [hval]
  omega

/-! ### Lists -/

theorem joined_length (texts : List Bytes) : texts.length ≤ (joined texts).length + 1 := by
  unfold joined
  induction texts with
  | nil => exact Nat.zero_le _
  | cons s texts ih =>
      cases texts with
      | nil => exact Nat.le_add_left 1 _
      | cons t texts =>
          have hcomma : (ascii ",").length = 1 := rfl
          simp only [List.intercalate_cons_cons, List.length_append, List.length_cons] at ih ⊢
          omega

theorem split_joined {texts : List Bytes} (hcomma : ∀ s ∈ texts, (0x2C : UInt8) ∉ s)
    (hne : texts ≠ []) : split (joined texts) 0x2C = texts := by
  rw [split_eq_splitOn]
  exact List.splitOn_intercalate 0x2C hcomma hne

theorem getList_run {c : CommandType} {ls : List FieldLength} {k : ℕ} {texts : List Bytes}
    (h : data.length + 3 < 10 ^ 3) (hdata : data = joined texts) (hne : texts ≠ [])
    (hcomma : ∀ s ∈ texts, (0x2C : UInt8) ∉ s) (hcheck : checkList c ls k texts = .ok ()) :
    (getList c (data.length + 5) ls k).run (dataPayload data ++ rest) = .ret texts := by
  have hroom : 5 + (data.length + 5 - 5) ≤ (dataPayload data ++ rest).length := by
    rw [List.length_append, dataPayload_length h]
    omega
  have htake : ((dataPayload data ++ rest).drop 5).take (data.length + 5 - 5) = data := by
    rw [dataPayload_drop h]
    exact List.take_left' (Nat.add_sub_cancel _ _).symm
  rw [getList, Probe.run_bind, Probe.run_range hroom, htake, Outcome.ret_bind]
  simp only [hdata, split_joined hcomma hne, hcheck]
  rfl

theorem unpackList_run {c : CommandType} {l : ListLayout} {d : Decoded}
    (henc : EncodesList l.items data d) (hsized : ∀ item ∈ l.items, item.Sized) (hne : l.items ≠ [])
    (h : data.length + 3 < 10 ^ 3) :
    (unpackList c (data.length + 5) l).run (dataPayload data ++ rest) = .ret d := by
  obtain ⟨texts, ms, henc, hdata, rfl⟩ := henc
  have hlen := henc.length_eq
  have htexts : texts ≠ [] := fun h => hne (List.eq_nil_of_length_eq_zero (by rw [← hlen, h]; rfl))
  have hcheck : checkList c (l.items.map Item.length) l.items.length texts = .ok () := by
    have hitems := henc.checkItems_append hsized c [] [] 0
    rw [List.append_nil, List.append_nil] at hitems
    rw [checkList, if_neg (by simpa using hne), if_neg (by omega), hitems]
    rfl
  have hrun := henc.unpackItems_run hsized (dataPayload data ++ rest) [] []
  rw [List.nil_append, List.append_nil] at hrun
  rw [unpackList_eq, Probe.run_bind, getList_run h hdata htexts (henc.comma_notMem hsized) hcheck,
    Outcome.ret_bind, Probe.run_bind]
  show ((unpackItems texts ([] : List Bytes).length l.items).run _ >>= _) = _
  rw [hrun]
  rfl

theorem unpackParallelRatedInformation_run {c : CommandType} {d : Decoded}
    (henc : Encodes .getParallelRatedInformation data d) (h : data.length + 3 < 10 ^ 3) :
    (unpackParallelRatedInformation c (data.length + 5)).run (dataPayload data ++ rest) =
      .ret d := by
  obtain ⟨first, a, serial, padding, last, ms, hfirst, hlen, hcomma, hlast, hdata, rfl⟩ := henc
  have hsized : ∀ item ∈ parallelRatedInformation.items, item.Sized :=
    tables_sized _ (by simp)
  -- the items as they are listed, with the whole padded serial number
  have hserial : serial.length < 10 ^ 2 := by omega
  have hpadded : (serial ++ padding).length = 20 := by rw [List.length_append, hlen]
  have hitems : EncodesItems parallelRatedInformation.items
      (first ++ fixed 2 serial.length :: (serial ++ padding) :: last)
      (a ++ (.serialNumberValidLength, .unsigned serial.length) ::
        (.serialNumber, .text (serial ++ padding)) :: ms) :=
    hfirst.append (.cons (w := 2) rfl (.number hserial) (.cons rfl (.text hcomma hpadded) hlast))
  have hcut : cutSerialNumber (a ++ (.serialNumberValidLength, .unsigned serial.length) ::
      (.serialNumber, .text (serial ++ padding)) :: ms) =
      a ++ (.serialNumberValidLength, .unsigned serial.length) ::
        (.serialNumber, .text serial) :: ms := by
    cases hfirst with
    | cons hw hk hnil =>
        cases hnil
        show _ :: _ :: (Member.serialNumber, Val.text ((serial ++ padding).take serial.length)) ::
          ms = _
        rw [List.take_left]
        rfl
  have hcheck : checkList c (parallelRatedInformation.items.map Item.length)
      parallelRatedInformation.items.length
      (first ++ fixed 2 serial.length :: (serial ++ padding) :: last) = .ok () := by
    have hpass := hitems.checkItems_append hsized c [] [] 0
    rw [List.append_nil, List.append_nil] at hpass
    rw [checkList, if_neg (by decide), if_neg (by rw [hitems.length_eq]; omega), hpass]
    rfl
  have hrun := hitems.unpackItems_run hsized (dataPayload data ++ rest) [] []
  rw [List.nil_append, List.append_nil] at hrun
  rw [unpackParallelRatedInformation_eq, Probe.run_bind,
    getList_run h hdata (by simp) (hitems.comma_notMem hsized) hcheck, Outcome.ret_bind,
    Probe.run_bind]
  show ((unpackItems _ ([] : List Bytes).length _).run _ >>= _) = _
  rw [hrun, Outcome.ret_bind, hcut]
  rfl

theorem unpackParallelGeneralStatus_run {c : CommandType} {d : Decoded}
    (henc : Encodes .getParallelGeneralStatus data d) (h : data.length + 3 < 10 ^ 3) :
    (unpackParallelGeneralStatus c (data.length + 5)).run (dataPayload data ++ rest) = .ret d := by
  obtain ⟨texts, ms, last, max_temp, htexts, hlast, hdata, rfl⟩ := henc
  have hsized : ∀ item ∈ parallelGeneralStatus.items, item.Sized := tables_sized _ (by simp)
  have hsized1 : ∀ item ∈ parallelGeneralStatus.items.take 28, item.Sized := fun item hitem =>
    hsized item (List.mem_of_mem_take hitem)
  have hsized2 : ∀ item ∈ parallelGeneralStatus.items.drop 28, item.Sized := fun item hitem =>
    hsized item (List.mem_of_mem_drop hitem)
  have hlen : texts.length = 28 := htexts.length_eq
  have hne : texts ++ last ≠ [] := List.ne_nil_of_length_pos (by rw [List.length_append]; omega)
  have hcomma : ∀ s ∈ texts ++ last, (0x2C : UInt8) ∉ s := by
    intro s hs
    rcases List.mem_append.mp hs with hs | hs
    · exact htexts.comma_notMem hsized1 s hs
    · rcases hlast with ⟨rfl, -⟩ | hlast
      · cases hs
      · exact hlast.comma_notMem hsized2 s hs
  have hcheck : checkList c (parallelGeneralStatus.items.map Item.length) 28 (texts ++ last) =
      .ok () := by
    have hpass := htexts.checkItems_append hsized1 c
      ((parallelGeneralStatus.items.drop 28).map Item.length) last 0
    rw [← List.map_append, List.take_append_drop] at hpass
    rw [checkList, if_neg (by decide), if_neg (by rw [List.length_append]; omega), hpass]
    rcases hlast with ⟨rfl, -⟩ | hlast
    · rfl
    · have hpass' := hlast.checkItems_append hsized2 c [] [] 28
      rw [List.append_nil, List.append_nil] at hpass'
      exact hpass'
  have hrun := htexts.unpackItems_run hsized1 (dataPayload data ++ rest) [] last
  rw [List.nil_append] at hrun
  rw [unpackParallelGeneralStatus_eq, Probe.run_bind, getList_run h hdata hne hcomma hcheck,
    Outcome.ret_bind, Probe.run_bind]
  show ((unpackItems _ ([] : List Bytes).length _).run _ >>= _) = _
  rw [hrun, Outcome.ret_bind]
  rcases hlast with ⟨rfl, rfl⟩ | hlast
  · rw [if_neg (by rw [List.length_append, hlen]; decide), List.append_nil]
    rfl
  · have hlen' : last.length = 1 := hlast.length_eq
    have hrun' := hlast.unpackItems_run hsized2 (dataPayload data ++ rest) texts []
    rw [List.append_nil, hlen] at hrun'
    rw [if_pos (by rw [List.length_append]; omega), Probe.run_bind, hrun']
    rfl

theorem unpackACChargeTimeBucket_run {c : CommandType} {d : Decoded}
    (henc : Encodes .getACChargeTimeBucket data d) (h : data.length + 3 < 10 ^ 3) :
    (unpackACChargeTimeBucket c (data.length + 5)).run (dataPayload data ++ rest) = .ret d := by
  obtain ⟨h1, m1, h2, m2, hh1, hm1, hh2, hm2, hdata, rfl⟩ := henc
  have hfield : ∀ {n : ℕ}, n < 10 ^ 2 → (fixed 2 n).length = 2 ∧ AllDigits (fixed 2 n) := fun hn =>
    ⟨(fixed_spec (by norm_num) hn).1, (fixed_spec (by norm_num) hn).2.1⟩
  have hitem : ∀ {m n : ℕ}, m < 10 ^ 2 → n < 10 ^ 2 → (fixed 2 m ++ fixed 2 n).length = 4 ∧
      (0x2C : UInt8) ∉ fixed 2 m ++ fixed 2 n := fun hm hn =>
    ⟨by rw [List.length_append, (hfield hm).1, (hfield hn).1],
      comma_notMem_of_allDigits (allDigits_append.mpr ⟨(hfield hm).2, (hfield hn).2⟩)⟩
  obtain ⟨hlen1, hcomma1⟩ := hitem hh1 hm1
  obtain ⟨hlen2, hcomma2⟩ := hitem hh2 hm2
  have hcheck : checkList c [4, 4] 2 [fixed 2 h1 ++ fixed 2 m1, fixed 2 h2 ++ fixed 2 m2] =
      .ok () := by
    have hfour : FieldLength.validate 4 4 = true := rfl
    rw [checkList, if_neg (by decide), if_neg (by simp), checkItems, hlen1, if_pos hfour,
      checkItems, hlen2, if_pos hfour]
    rfl
  have hpart : ∀ {a b : Bytes}, a.length = 2 → b.length = 2 →
      substr (a ++ b) 0 2 = .ok a ∧ substr (a ++ b) 2 2 = .ok b := fun {a b} ha hb => by
    have hroom : ¬ (a ++ b).length < 2 := by
      rw [List.length_append]
      omega
    rw [substr, substr, if_neg (Nat.not_lt_zero _), if_neg hroom, List.drop_left' ha,
      List.take_of_length_le hb.le]
    exact ⟨congrArg Except.ok (List.take_left' ha), rfl⟩
  obtain ⟨hp1, hp2⟩ := hpart (hfield hh1).1 (hfield hm1).1
  obtain ⟨hp3, hp4⟩ := hpart (hfield hh2).1 (hfield hm2).1
  rw [unpackACChargeTimeBucket, Probe.run_bind, getList_run h hdata (by simp)
    (List.forall_mem_cons.mpr ⟨hcomma1, List.forall_mem_singleton.mpr hcomma2⟩) hcheck,
    Outcome.ret_bind]
  simp only [bucketPart, elementAt, List.getElem?_cons_zero, List.getElem?_cons_succ,
    Probe.pure_eq, Probe.ret_bind, hp1, hp2, hp3, hp4, Probe.lift_ok, stouh_fixed hh1,
    stouh_fixed hm1, stouh_fixed hh2, stouh_fixed hm2, Probe.run_ret]

/-! ### Fixed offsets -/

/-- A number of fixed width is read, and the rest of the data stands behind it. -/
theorem numberAt_fixed {off w n : ℕ} {t : Bytes} (hdata : data.drop off = fixed w n ++ t)
    (hn : n < 10 ^ w) (h : data.length + 3 < 10 ^ 3) (hw : 0 < w) (hw9 : w ≤ 9) :
    (numberAt off w).run (dataPayload data ++ rest) = .ret n ∧ data.drop (off + w) = t := by
  have hlen := (fixed_spec hw hn).1
  have hsize := congrArg List.length hdata
  rw [List.length_drop, List.length_append, hlen] at hsize
  have hroom : 5 + off + w ≤ (dataPayload data ++ rest).length := by
    rw [List.length_append, dataPayload_length h]
    omega
  have hfield : dataField (dataPayload data ++ rest) off w = fixed w n := by
    rw [dataField, ← List.drop_drop, dataPayload_drop h,
      List.drop_append_of_le_length (by omega), hdata, List.append_assoc, List.take_left' hlen]
  rw [numberAt_run hroom, hfield, stou_fixed hw hw9 hn, ← List.drop_drop, hdata,
    List.drop_left' hlen]
  exact ⟨rfl, rfl⟩

theorem unpackProtocolID_run {d : Decoded} (henc : Encodes .getProtocolID data d)
    (h : data.length + 3 < 10 ^ 3) :
    unpackProtocolID.run (dataPayload data ++ rest) = .ret d := by
  obtain ⟨n, hn, rfl, rfl⟩ := henc
  obtain ⟨hlen, hdigits, -⟩ := fixed_spec (by norm_num : 0 < 2) hn
  obtain ⟨b0, b1, hb⟩ := List.length_eq_two.mp hlen
  have hzero : (0 : UInt8) ∉ [b0, b1] := fun hmem => by
    rw [hb] at hdigits
    exact absurd (hdigits 0 hmem) (by decide)
  have hb0 : b0 ≠ 0 := fun h0 => hzero (by simp [h0])
  have hdrop : (dataPayload (fixed 2 n) ++ rest).drop 5 = b0 :: b1 :: rest := by
    rw [dataPayload_drop h, hb]
    rfl
  have hbyte (i : ℕ) : (dataPayload (fixed 2 n) ++ rest)[5 + i]? = (b0 :: b1 :: rest)[i]? := by
    rw [← hdrop, List.getElem?_drop]
  rw [unpackProtocolID, Probe.run_bind, Probe.run_byte_of_getElem? (hbyte 0), Outcome.ret_bind,
    if_neg hb0, Probe.run_bind, Probe.run_byte_of_getElem? (hbyte 1), Outcome.ret_bind,
    cstr_of_notMem hzero]
  show (Probe.lift (stou [b0, b1]) >>= _).run _ = _
  rw [← hb, stou_fixed (by norm_num) (by norm_num) hn]
  rfl

theorem unpackCurrentTime_run {d : Decoded} (henc : Encodes .getCurrentTime data d)
    (h : data.length + 3 < 10 ^ 3) :
    unpackCurrentTime.run (dataPayload data ++ rest) = .ret d := by
  obtain ⟨y, mo, da, hh, mi, s, hy, hmo, hda, hhh, hmi, hs, hdata, rfl⟩ := henc
  have hshort : ∀ {n : ℕ}, n < 10 ^ 2 → toUShort n = n := fun hn => Nat.mod_eq_of_lt (by omega)
  have hfield : ∀ {off n : ℕ} {t : Bytes}, data.drop off = fixed 2 n ++ t → n < 10 ^ 2 →
      (numberAt off 2).run (dataPayload data ++ rest) = .ret n ∧ data.drop (off + 2) = t :=
    fun hd hn => numberAt_fixed hd hn h (by norm_num) (by norm_num)
  rw [← List.append_nil (fixed 2 s)] at hdata
  obtain ⟨hyear, hdata⟩ := @numberAt_fixed data rest 0 4 y _ hdata hy h (by norm_num) (by norm_num)
  obtain ⟨hmonth, hdata⟩ := hfield hdata hmo
  obtain ⟨hday, hdata⟩ := hfield hdata hda
  obtain ⟨hhour, hdata⟩ := hfield hdata hhh
  obtain ⟨hminute, hdata⟩ := hfield hdata hmi
  obtain ⟨hsecond, -⟩ := hfield hdata hs
  rw [unpackCurrentTime]
  simp only [Probe.run_bind, hyear, hmonth, hday, hhour, hminute, hsecond, Outcome.ret_bind,
    hshort hmo, hshort hda, hshort hhh, hshort hmi, hshort hs]
  rfl

theorem unpackTotalGenerated_run {d : Decoded} (henc : Encodes .getTotalGenerated data d)
    (h : data.length + 3 < 10 ^ 3) :
    unpackTotalGenerated.run (dataPayload data ++ rest) = .ret d := by
  obtain ⟨wh, hwh, hdata, rfl⟩ := henc
  have hdrop : data.drop 0 = fixed 8 wh ++ [] := hdata.trans (List.append_nil _).symm
  rw [unpackTotalGenerated, Probe.run_bind,
    (numberAt_fixed hdrop hwh h (by norm_num) (by norm_num)).1]
  rfl

theorem unpackWorkingMode_run {d : Decoded} (henc : Encodes .getWorkingMode data d)
    (h : data.length + 3 < 10 ^ 3) :
    unpackWorkingMode.run (dataPayload data ++ rest) = .ret d := by
  obtain ⟨n, hn, hdata, rfl⟩ := henc
  have hdrop : data.drop 0 = fixed 2 n ++ [] := hdata.trans (List.append_nil _).symm
  rw [unpackWorkingMode, Probe.run_bind,
    (numberAt_fixed hdrop hn h (by norm_num) (by norm_num)).1, Outcome.ret_bind,
    enum_cast (by omega)]
  rfl

theorem unpackSerialNumber_run {d : Decoded} (henc : Encodes .getSerialNumber data d)
    (h : data.length + 3 < 10 ^ 3) :
    unpackSerialNumber.run (dataPayload data ++ rest) = .ret d := by
  obtain ⟨id, padding, hid, hdata, rfl⟩ := henc
  have hlen := (fixed_spec (by norm_num : 0 < 2) hid).1
  have hsize : (dataPayload data ++ rest).length =
      7 + id.length + padding.length + rest.length := by
    rw [List.length_append, dataPayload_length h, hdata]
    simp only [List.length_append, hlen]
    omega
  have hnum : ((dataPayload data ++ rest).drop 5).take 2 = fixed 2 id.length := by
    rw [dataPayload_drop h, hdata, List.append_assoc, List.take_left' hlen]
  have htext : ((dataPayload data ++ rest).drop 7).take id.length = id := by
    rw [← List.drop_drop (i := 2) (j := 5), dataPayload_drop h, hdata, List.append_assoc,
      List.drop_left' hlen, List.append_assoc, List.take_left]
  have hmax : ¬ stringMaxSize < id.length := by
    unfold stringMaxSize
    omega
  rw [unpackSerialNumber, Probe.run_bind, Probe.run_range (by omega), hnum, Outcome.ret_bind,
    (stoul_fixed (by norm_num) (by norm_num) hid).1, Probe.lift_ok, Probe.ret_bind, if_neg hmax,
    Probe.run_bind, Probe.run_range (by omega), htext]
  rfl

end

/-! ### All get commands -/

theorem EncodesList.two_le {items : List Item} {data : Bytes} {d : Decoded}
    (h : EncodesList items data d) (h3 : 3 ≤ items.length) : 2 ≤ data.length := by
  obtain ⟨texts, ms, henc, rfl, -⟩ := h
  have := joined_length texts
  rw [henc.length_eq] at this
  omega

theorem Encodes.two_le {c : CommandType} {data : Bytes} {d : Decoded} (h : Encodes c data d) :
    2 ≤ data.length := by
  have hfixed (w n : ℕ) : w ≤ (fixed w n).length := fixed_length_ge w n
  cases c
  case getProtocolID =>
    obtain ⟨n, -, rfl, -⟩ := h
    exact hfixed 2 n
  case getCurrentTime =>
    obtain ⟨y, mo, da, h, mi, s, -, -, -, -, -, -, rfl, -⟩ := h
    have := hfixed 4 y
    rw [List.length_append]
    omega
  case getTotalGenerated | getYearGenerated | getMonthGenerated | getDayGenerated =>
    obtain ⟨wh, -, rfl, -⟩ := h
    have := hfixed 8 wh
    omega
  case getSerialNumber =>
    obtain ⟨id, padding, -, rfl, -⟩ := h
    have := hfixed 2 id.length
    rw [List.length_append]
    omega
  case getWorkingMode =>
    obtain ⟨n, -, rfl, -⟩ := h
    exact hfixed 2 n
  case getParallelRatedInformation =>
    obtain ⟨first, a, serial, padding, last, ms, -, -, -, hlast, rfl, -⟩ := h
    have hlen : last.length = 4 := hlast.length_eq
    have := joined_length (first ++ fixed 2 serial.length :: (serial ++ padding) :: last)
    simp only [List.length_append, List.length_cons] at this
    omega
  case getParallelGeneralStatus =>
    obtain ⟨texts, ms, last, max_temp, htexts, -, rfl, -⟩ := h
    have hlen : texts.length = 28 := htexts.length_eq
    have := joined_length (texts ++ last)
    rw [List.length_append] at this
    omega
  case getACChargeTimeBucket | getACSupplyTimeBucket =>
    obtain ⟨h1, m1, h2, m2, -, -, -, -, rfl, -⟩ := h
    have := hfixed 2 h1
    rw [joined, List.intercalate_cons_cons]
    simp only [List.length_append]
    omega
  case getCPUVersion | getRatedInformation | getGeneralStatus | getFaultsAndWarnings
      | getFlagsAndStatuses | getRatedDefaults =>
    exact EncodesList.two_le h (by decide)
  all_goals exact h.elim

/-- **Decoding undoes the encoding.**  The payload with the data of an answer, at the head of the
buffer, passes `validate`, and `unpack` stores the values. -/
theorem decode_encoded {c : CommandType} {data : Bytes} {d : Decoded} {mem : Bytes}
    (henc : Encodes c data d) (hm : mem.length = 256) (hmem : dataPayload data <+: mem) :
    (validate c (dataPayload data).length).run mem = .ret true ∧
      (unpack c (dataPayload data).length).run mem = .ret d := by
  obtain ⟨rest, rfl⟩ := hmem
  have h : data.length + 3 < 10 ^ 3 := by
    have : 3 ≤ (fixed 3 (data.length + 3)).length := fixed_length_ge _ _
    simp only [dataPayload, List.length_append] at hm
    omega
  have hget : c.isSet = false := by
    cases c <;> first | rfl | exact henc.elim
  rw [dataPayload_length h]
  constructor
  · rw [validate, hget]
    exact getValidate_dataPayload henc.two_le h
  cases c
  case getProtocolID => exact unpackProtocolID_run henc h
  case getCurrentTime => exact unpackCurrentTime_run henc h
  case getTotalGenerated | getYearGenerated | getMonthGenerated | getDayGenerated =>
    exact unpackTotalGenerated_run henc h
  case getSerialNumber => exact unpackSerialNumber_run henc h
  case getWorkingMode => exact unpackWorkingMode_run henc h
  case getCPUVersion | getRatedInformation | getGeneralStatus | getFaultsAndWarnings
      | getFlagsAndStatuses | getRatedDefaults =>
    exact unpackList_run henc (tables_sized _ (by simp)) (by decide) h
  case getParallelRatedInformation => exact unpackParallelRatedInformation_run henc h
  case getParallelGeneralStatus => exact unpackParallelGeneralStatus_run henc h
  case getACChargeTimeBucket | getACSupplyTimeBucket => exact unpackACChargeTimeBucket_run henc h
  all_goals exact henc.elim

/-- A serial number of 14 characters, padded to 20. -/
theorem decode_encoded_serial_number :
    (validate .getSerialNumber (dataPayload (ascii "1496132102100101000000")).length).run
        (bufferWith (dataPayload (ascii "1496132102100101000000")) 0x0D) = .ret true ∧
      (unpack .getSerialNumber (dataPayload (ascii "1496132102100101000000")).length).run
        (bufferWith (dataPayload (ascii "1496132102100101000000")) 0x0D) =
        .ret (.members [(.id, .text (ascii "96132102100101"))]) :=
  @decode_encoded .getSerialNumber (ascii "1496132102100101000000") _
    (bufferWith (dataPayload (ascii "1496132102100101000000")) 0x0D)
    ⟨ascii "96132102100101", ascii "000000", by decide, by decide, rfl⟩ (by decide +kernel)
    (List.prefix_append _ _)

end InverterTools.P18
