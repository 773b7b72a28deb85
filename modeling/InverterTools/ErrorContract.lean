import InverterTools.Reception
import InverterTools.Buffers
import InverterTools.Grammar

/-! # Which exceptions leave a command

`Server::executeCommand` and `main` of the tool catch four exception classes.  The decoder throws
others: `std::stoul` throws `std::invalid_argument` or `std::out_of_range` where a text does not
begin with a number, `std::string` throws `std::length_error`, and `readLoop` throws
`std::overflow_error`.  `execute_contract_iff` says on which data of a device this happens. -/

namespace InverterTools

open Voltronic (Device)

/-! ### Numbers -/

theorem stoul_returnsOnly (s : Bytes) :
    (Outcome.lift (stoul s)).ReturnsOnly Exn.Handled (HasNumber s) := by
  have hinvalid : ¬ Exn.Handled ⟨.invalidArgument, ascii "stoul"⟩ := by decide
  have hrange : ¬ Exn.Handled ⟨.outOfRange, ascii "stoul"⟩ := by decide
  unfold Outcome.ReturnsOnly
  rw [hasNumber_iff, stoul]
  cases strtoul s with
  | noConversion => simp [Conv.toExcept, hinvalid]
  | outOfRange => simp [Conv.toExcept, hrange]
  | ok n => simp [Conv.toExcept]

theorem returnsOnly_map {α β : Type} {x : Except Exn α} {f : α → β} {C : Prop}
    (h : (Outcome.lift x).ReturnsOnly Exn.Handled C) :
    (Outcome.lift (f <$> x)).ReturnsOnly Exn.Handled C := by
  cases x with
  | ok a =>
      have hC : C := h.throws_iff.mp (Outcome.throws_ret a)
      exact .inl ⟨hC, f a, rfl⟩
  | error e => simpa [Outcome.ReturnsOnly] using h

theorem stou_returnsOnly (s : Bytes) :
    (Outcome.lift (stou s)).ReturnsOnly Exn.Handled (HasNumber s) :=
  returnsOnly_map (stoul_returnsOnly s)

theorem stouh_returnsOnly (s : Bytes) :
    (Outcome.lift (stouh s)).ReturnsOnly Exn.Handled (HasNumber s) :=
  returnsOnly_map (stoul_returnsOnly s)

namespace P18

theorem Kind.decode_returnsOnly (k : Kind) (s : Bytes) :
    (Outcome.lift (k.decode s)).ReturnsOnly Exn.Handled (k.isNumber = true → HasNumber s) := by
  have htrue : HasNumber s ↔ (true = true → HasNumber s) := by simp
  cases k with
  | number => exact (returnsOnly_map (stou_returnsOnly s)).congr htrue
  | enum type => exact (returnsOnly_map (stou_returnsOnly s)).congr htrue
  | flag => exact (returnsOnly_map (stou_returnsOnly s)).congr htrue
  | char => exact (Outcome.ReturnsOnly.returns _).congr (by simp [isNumber])
  | text => exact (Outcome.ReturnsOnly.returns _).congr (by simp [isNumber])

/-! ### What the decoder reads numbers from -/

/-- The texts of the items that are numbers. -/
def itemTexts (items : List Item) (list : List Bytes) : List Bytes :=
  ((items.zip list).filter fun p => p.1.kind.isNumber).map Prod.snd

theorem itemTexts_cons (item : Item) (items : List Item) (s : Bytes) (list : List Bytes) :
    itemTexts (item :: items) (s :: list) =
      if item.kind.isNumber then s :: itemTexts items list else itemTexts items list := by
  rw [itemTexts, List.zip_cons_cons, List.filter_cons]
  split_ifs <;> rfl

theorem itemTexts_append (a b : List Item) (list : List Bytes) :
    itemTexts (a ++ b) list = itemTexts a list ++ itemTexts b (list.drop a.length) := by
  induction a generalizing list with
  | nil => rfl
  | cons item a ih =>
      cases list with
      | nil => simp [itemTexts]
      | cons s list =>
          rw [List.cons_append, itemTexts_cons, itemTexts_cons, List.length_cons,
            List.drop_succ_cons, ih list]
          split_ifs <;> rfl

/-- The table of a response class that is decoded item by item. -/
def itemTable : CommandType → List Item
  | .getCPUVersion => cpuVersion.items
  | .getRatedInformation => ratedInformation.items
  | .getGeneralStatus => generalStatus.items
  | .getFaultsAndWarnings => faultsAndWarnings.items
  | .getFlagsAndStatuses => flagsAndStatuses.items
  | .getRatedDefaults => ratedDefaults.items
  | .getParallelRatedInformation => parallelRatedInformation.items
  | .getParallelGeneralStatus => parallelGeneralStatus.items
  | _ => []

/-- The list passes the checks of `getList`. -/
def ListAccepted (c : CommandType) (list : List Bytes) : Prop :=
  match c with
  | .getACChargeTimeBucket | .getACSupplyTimeBucket => checkList c [4, 4] 2 list = .ok ()
  | .getParallelGeneralStatus =>
      checkList c (parallelGeneralStatus.items.map Item.length) 28 list = .ok ()
  | _ => checkList c ((itemTable c).map Item.length) (itemTable c).length list = .ok ()

/-- The texts `unpack` takes for numbers. -/
def numberTexts (c : CommandType) (rawSize : ℕ) (mem : Bytes) : List Bytes :=
  let list := split (dataField mem 0 (rawSize - 5)) 0x2C
  match c with
  | .getProtocolID => [cstr (dataField mem 0 2)]
  | .getCurrentTime => timeFields.map fun f => dataField mem f.1 f.2
  | .getTotalGenerated | .getYearGenerated | .getMonthGenerated | .getDayGenerated =>
      [dataField mem 0 8]
  | .getSerialNumber | .getWorkingMode => [dataField mem 0 2]
  | .getAllowedChargeCurrents | .getAllowedACChargeCurrents => list
  | .getACChargeTimeBucket | .getACSupplyTimeBucket => sourceTexts c list
  | _ => itemTexts (itemTable c) list

/-- Where an answer is taken for a number, it is one. -/
structure Readable (c : CommandType) (rawSize : ℕ) (mem : Bytes) : Prop where
  announced : c.isSet = false → 5 ≤ rawSize → mem.take 2 = ascii "^D" →
    HasNumber (cstr ((mem.drop 2).take 3))
  numbers : (validate c rawSize).run mem = .ret true →
    ListAccepted c (split (dataField mem 0 (rawSize - 5)) 0x2C) →
    ∀ s ∈ numberTexts c rawSize mem, HasNumber s
  serialLength : c = .getSerialNumber → (validate c rawSize).run mem = .ret true →
    ∀ len, scanInt (dataField mem 0 2) = some (true, len) → len = 0

/-! ### Lists -/

theorem unpackItems_returnsOnly {list : List Bytes} {mem : Bytes} :
    ∀ {i : ℕ} {items : List Item}, i + items.length ≤ list.length →
      ((unpackItems list i items).run mem).ReturnsOnly Exn.Handled
        (∀ s ∈ itemTexts items (list.drop i), HasNumber s)
  | i, [], _ => (Outcome.ReturnsOnly.returns _).congr (by simp [itemTexts])
  | i, item :: items, h => by
      rw [List.length_cons] at h
      have hi : i < list.length := by omega
      have hrest := @unpackItems_returnsOnly list mem (i + 1) items (by omega)
      rw [unpackItems, elementAt, List.getElem?_eq_getElem hi, List.drop_eq_getElem_cons hi,
        itemTexts_cons]
      simp only [Probe.pure_eq, Probe.ret_bind, Probe.run_bind, Probe.run_lift]
      refine ((item.kind.decode_returnsOnly list[i]).bind fun v _ =>
        hrest.bind fun ms _ => Outcome.ReturnsOnly.returns _).congr ?_
      split_ifs with hk <;> simp [hk]

theorem mapM_stou_returnsOnly (list : List Bytes) :
    (Outcome.lift (list.mapM stou)).ReturnsOnly Exn.Handled (∀ s ∈ list, HasNumber s) := by
  induction list with
  | nil => exact (Outcome.ReturnsOnly.returns _).congr (by simp)
  | cons s list ih =>
      rw [List.mapM_cons, Outcome.lift_bind]
      simp only [Outcome.lift_bind]
      refine ((stou_returnsOnly s).bind fun n _ => ih.bind fun ns _ =>
        Outcome.ReturnsOnly.returns _).congr ?_
      simp

section

variable {c : CommandType} {rawSize : ℕ} {mem : Bytes}

theorem checkList_handled (c : CommandType) (ls : List FieldLength) (k : ℕ) (list : List Bytes) :
    Raises Exn.Handled (checkList c ls k list) := by
  have hparse (text : Bytes) : (parseError c text).Handled := by simp [Exn.Handled, parseError]
  have hitems (ls : List FieldLength) (i : ℕ) (list : List Bytes) :
      Raises Exn.Handled (checkItems c i ls list) := by
    induction ls generalizing i list with
    | nil => exact raises_ok ()
    | cons l ls ih =>
        cases list with
        | nil => exact raises_ok ()
        | cons s list =>
            rw [checkItems]
            split_ifs
            · exact ih (i + 1) list
            · exact raises_error.mpr (hparse _)
  unfold checkList
  split_ifs
  · exact raises_ok ()
  · exact raises_error.mpr (hparse _)
  · exact hitems ls 0 list

/-- A list that does not pass the checks is a `ParseError`. -/
theorem getList_handled_iff {α : Type} {ls : List FieldLength} {k : ℕ}
    {f : List Bytes → Probe Exn α} (h5 : 5 ≤ rawSize) (hr : rawSize ≤ mem.length) :
    ((getList c rawSize ls k >>= f).run mem).Throws Exn.Handled ↔
      let list := split (dataField mem 0 (rawSize - 5)) 0x2C
      checkList c ls k list = .ok () → ((f list).run mem).Throws Exn.Handled := by
  have hdata : (mem.drop 5).take (rawSize - 5) = dataField mem 0 (rawSize - 5) := rfl
  have hcheck := checkList_handled c ls k (split (dataField mem 0 (rawSize - 5)) 0x2C)
  rw [getList]
  simp only [Probe.run_bind, Probe.run_range (show 5 + (rawSize - 5) ≤ mem.length by omega), hdata,
    Outcome.ret_bind, Probe.run_lift]
  cases hx : checkList c ls k (split (dataField mem 0 (rawSize - 5)) 0x2C) with
  | error e =>
      rw [hx] at hcheck
      simpa using hcheck
  | ok u => simp

theorem unpackTable_handled_iff {items : List Item} {f : List (Member × Val) → Decoded}
    (h5 : 5 ≤ rawSize) (hr : rawSize ≤ mem.length) (hne : items ≠ []) :
    ((do
      let list ← getList c rawSize (items.map Item.length) items.length
      let ms ← unpackItems list 0 items
      pure (f ms) : Probe Exn Decoded).run mem).Throws Exn.Handled ↔
      let list := split (dataField mem 0 (rawSize - 5)) 0x2C
      checkList c (items.map Item.length) items.length list = .ok () →
        ∀ s ∈ itemTexts items list, HasNumber s := by
  rw [getList_handled_iff h5 hr]
  refine imp_congr_right fun hcheck => ?_
  have hlen := checkList_length (by simpa using hne) hcheck
  have hitems := @unpackItems_returnsOnly (split (dataField mem 0 (rawSize - 5)) 0x2C) mem 0 items
    (by omega)
  rw [List.drop_zero] at hitems
  rw [Probe.run_bind]
  refine (hitems.bind fun ms _ => Outcome.ReturnsOnly.returns _).throws_iff.trans ?_
  rw [and_true]

theorem unpackList_handled_iff {l : ListLayout} (h5 : 5 ≤ rawSize) (hr : rawSize ≤ mem.length)
    (hne : l.items ≠ []) :
    ((unpackList c rawSize l).run mem).Throws Exn.Handled ↔
      let list := split (dataField mem 0 (rawSize - 5)) 0x2C
      checkList c (l.items.map Item.length) l.items.length list = .ok () →
        ∀ s ∈ itemTexts l.items list, HasNumber s := by
  rw [unpackList_eq]
  exact unpackTable_handled_iff h5 hr hne

theorem unpackParallelRatedInformation_handled_iff (h5 : 5 ≤ rawSize)
    (hr : rawSize ≤ mem.length) :
    ((unpackParallelRatedInformation c rawSize).run mem).Throws Exn.Handled ↔
      let list := split (dataField mem 0 (rawSize - 5)) 0x2C
      checkList c (parallelRatedInformation.items.map Item.length)
          parallelRatedInformation.items.length list = .ok () →
        ∀ s ∈ itemTexts parallelRatedInformation.items list, HasNumber s := by
  rw [unpackParallelRatedInformation_eq]
  exact unpackTable_handled_iff h5 hr (by decide)

theorem unpackParallelGeneralStatus_handled_iff (h5 : 5 ≤ rawSize) (hr : rawSize ≤ mem.length) :
    ((unpackParallelGeneralStatus c rawSize).run mem).Throws Exn.Handled ↔
      let list := split (dataField mem 0 (rawSize - 5)) 0x2C
      checkList c (parallelGeneralStatus.items.map Item.length) 28 list = .ok () →
        ∀ s ∈ itemTexts parallelGeneralStatus.items list, HasNumber s := by
  rw [unpackParallelGeneralStatus_eq, getList_handled_iff h5 hr]
  generalize split (dataField mem 0 (rawSize - 5)) 0x2C = list
  refine imp_congr_right fun hcheck => ?_
  have hlen := checkList_length (by decide) hcheck
  have htake : (parallelGeneralStatus.items.take 28).length = 28 := rfl
  have hdrop : (parallelGeneralStatus.items.drop 28).length = 1 := rfl
  have htexts : itemTexts parallelGeneralStatus.items list =
      itemTexts (parallelGeneralStatus.items.take 28) list ++
        itemTexts (parallelGeneralStatus.items.drop 28) (list.drop 28) := by
    have happend := itemTexts_append (parallelGeneralStatus.items.take 28)
      (parallelGeneralStatus.items.drop 28) list
    rwa [List.take_append_drop, htake] at happend
  have hfirst :=
    @unpackItems_returnsOnly list mem 0 (parallelGeneralStatus.items.take 28) (by omega)
  rw [List.drop_zero] at hfirst
  rw [htexts, List.forall_mem_append, Probe.run_bind]
  refine (hfirst.bind fun ms _ => ?_).throws_iff
  by_cases h29 : 29 ≤ list.length
  · rw [if_pos h29, Probe.run_bind]
    have hlast :=
      @unpackItems_returnsOnly list mem 28 (parallelGeneralStatus.items.drop 28) (by omega)
    exact (hlast.bind fun ms _ => Outcome.ReturnsOnly.returns _).congr (by rw [and_true])
  · rw [if_neg h29, List.drop_eq_nil_of_le (show list.length ≤ 28 by omega)]
    exact (Outcome.ReturnsOnly.returns _).congr (by simp [itemTexts])

theorem unpackAllowedChargeCurrents_handled_iff (h5 : 5 ≤ rawSize) (hr : rawSize ≤ mem.length) :
    ((unpackAllowedChargeCurrents c rawSize).run mem).Throws Exn.Handled ↔
      ∀ s ∈ split (dataField mem 0 (rawSize - 5)) 0x2C, HasNumber s := by
  rw [unpackAllowedChargeCurrents, getList_handled_iff h5 hr]
  generalize split (dataField mem 0 (rawSize - 5)) 0x2C = list
  have hcheck : checkList c [] 0 list = .ok () := if_pos rfl
  refine (forall_prop_of_true hcheck).trans ?_
  rw [Probe.run_bind, Probe.run_lift]
  refine ((mapM_stou_returnsOnly list).bind fun ns _ =>
    Outcome.ReturnsOnly.returns _).throws_iff.trans ?_
  rw [and_true]

/-- The items of a time bucket have four characters. -/
theorem bucketPart_returnsOnly {list : List Bytes} {i pos : ℕ} {s : Bytes} (hs : list[i]? = some s)
    (hpos : pos ≤ s.length) : ((bucketPart list i pos).run mem).ReturnsOnly Exn.Handled
      (HasNumber ((s.drop pos).take 2)) := by
  have hpart : substr s pos 2 = .ok ((s.drop pos).take 2) := if_neg (by omega)
  rw [bucketPart, elementAt, hs]
  simp only [Probe.pure_eq, Probe.ret_bind, hpart, Probe.lift_ok, Probe.run_lift]
  exact stouh_returnsOnly _

theorem unpackACChargeTimeBucket_handled_iff (h5 : 5 ≤ rawSize) (hr : rawSize ≤ mem.length) :
    ((unpackACChargeTimeBucket c rawSize).run mem).Throws Exn.Handled ↔
      let list := split (dataField mem 0 (rawSize - 5)) 0x2C
      checkList c [4, 4] 2 list = .ok () →
        ∀ s ∈ sourceTexts .getACChargeTimeBucket list, HasNumber s := by
  rw [unpackACChargeTimeBucket, getList_handled_iff h5 hr]
  generalize split (dataField mem 0 (rawSize - 5)) 0x2C = list
  refine imp_congr_right fun hcheck => ?_
  have hlen := checkList_length (by simp) hcheck
  obtain ⟨s, t, rest, rfl⟩ := exists_cons_cons hlen
  have hitems := checkItems_of_checkList (by simp) hcheck
  rw [checkItems] at hitems
  split_ifs at hitems with hs
  rw [checkItems] at hitems
  split_ifs at hitems with ht
  have hs4 : 4 ≤ s.length := (of_decide_eq_true hs).1
  have ht4 : 4 ≤ t.length := (of_decide_eq_true ht).1
  have hpart (i pos : ℕ) (u : Bytes) (hu : (s :: t :: rest)[i]? = some u) (hpos : pos ≤ u.length) :=
    @bucketPart_returnsOnly mem (s :: t :: rest) i pos u hu hpos
  simp only [Probe.run_bind]
  refine ((hpart 0 0 s rfl (by omega)).bind fun start_h _ => (hpart 0 2 s rfl (by omega)).bind
    fun start_m _ => (hpart 1 0 t rfl (by omega)).bind fun end_h _ =>
    (hpart 1 2 t rfl (by omega)).bind fun end_m _ =>
    Outcome.ReturnsOnly.returns _).throws_iff.trans ?_
  simp [sourceTexts]

/-! ### Fixed offsets -/

theorem numberAt_returnsOnly {off n : ℕ} (h : 5 + off + n ≤ mem.length) :
    ((numberAt off n).run mem).ReturnsOnly Exn.Handled (HasNumber (dataField mem off n)) := by
  rw [numberAt_run h]
  exact stou_returnsOnly _

theorem unpackProtocolID_handled_iff (hm : mem.length = 256) :
    (unpackProtocolID.run mem).Throws Exn.Handled ↔ HasNumber (cstr (dataField mem 0 2)) := by
  have hdata : dataField mem 0 2 = [mem[5], mem[6]] := by
    rw [dataField, List.drop_eq_getElem_cons (by omega), List.take_succ_cons,
      List.drop_eq_getElem_cons (by omega)]
    rfl
  have hread (s : Bytes) : ((do
      let id ← Probe.lift (stou s)
      pure (.members [(.id, .unsigned id)]) : Probe Exn Decoded).run mem).Throws Exn.Handled ↔
        HasNumber s := by
    rw [Probe.run_bind, Probe.run_lift]
    refine ((stou_returnsOnly s).bind fun id _ =>
      Outcome.ReturnsOnly.returns _).throws_iff.trans ?_
    rw [and_true]
  rw [unpackProtocolID, Probe.run_bind, Probe.run_byte (by omega), Outcome.ret_bind]
  by_cases h0 : mem[5] = 0
  · have htext : cstr (dataField mem 0 2) = [] := by
      rw [hdata, h0]
      rfl
    rw [htext, if_pos h0]
    exact hread []
  · rw [hdata, if_neg h0, Probe.run_bind, Probe.run_byte (by omega), Outcome.ret_bind]
    exact hread (cstr [mem[5], mem[6]])

theorem unpackCurrentTime_handled_iff (hm : mem.length = 256) :
    (unpackCurrentTime.run mem).Throws Exn.Handled ↔
      ∀ s ∈ timeFields.map fun f => dataField mem f.1 f.2, HasNumber s := by
  have hfield (off n : ℕ) (h : off + n ≤ 14) : ((numberAt off n).run mem).ReturnsOnly Exn.Handled
      (HasNumber (dataField mem off n)) := numberAt_returnsOnly (by omega)
  rw [unpackCurrentTime]
  simp only [Probe.run_bind]
  refine ((hfield 0 4 (by omega)).bind fun year _ => (hfield 4 2 (by omega)).bind fun month _ =>
    (hfield 6 2 (by omega)).bind fun day _ => (hfield 8 2 (by omega)).bind fun hour _ =>
    (hfield 10 2 (by omega)).bind fun minute _ => (hfield 12 2 (by omega)).bind fun second _ =>
    Outcome.ReturnsOnly.returns _).throws_iff.trans ?_
  simp [timeFields]

theorem unpackTotalGenerated_handled_iff (hm : mem.length = 256) :
    (unpackTotalGenerated.run mem).Throws Exn.Handled ↔ HasNumber (dataField mem 0 8) := by
  rw [unpackTotalGenerated, Probe.run_bind]
  refine ((numberAt_returnsOnly (by omega)).bind fun wh _ =>
    Outcome.ReturnsOnly.returns _).throws_iff.trans ?_
  rw [and_true]

theorem unpackWorkingMode_handled_iff (hm : mem.length = 256) :
    (unpackWorkingMode.run mem).Throws Exn.Handled ↔ HasNumber (dataField mem 0 2) := by
  rw [unpackWorkingMode, Probe.run_bind]
  refine ((numberAt_returnsOnly (by omega)).bind fun mode _ =>
    Outcome.ReturnsOnly.returns _).throws_iff.trans ?_
  rw [and_true]

theorem le_stringMaxSize_iff {s : Bytes} {len : ℕ} (hs : s.length = 2) (h : stoul s = .ok len) :
    len ≤ stringMaxSize ↔ ∀ m, scanInt s = some (true, m) → m = 0 := by
  have hread := stoul_eq_ok.mp h
  unfold strtoul at hread
  unfold stringMaxSize
  cases hscan : scanInt s with
  | none => simp [hscan] at hread
  | some p =>
      obtain ⟨neg, m⟩ := p
      have hm := scanInt_lt_pow hscan
      rw [hs] at hm
      simp only [hscan, if_neg (show ¬ 2 ^ 64 ≤ m by omega), Conv.ok.injEq] at hread
      simp only [Option.some.injEq, Prod.mk.injEq]
      cases neg with
      | false =>
          simp only [Bool.false_eq_true, if_false] at hread
          simp
          omega
      | true =>
          simp only [if_true] at hread
          simp
          omega

/-- The length of a serial number has two characters: it is at most 99, or negative and then too
long for every string. -/
theorem unpackSerialNumber_handled_iff (hm : mem.length = 256) :
    (unpackSerialNumber.run mem).Throws Exn.Handled ↔ HasNumber (dataField mem 0 2) ∧
      ∀ len, scanInt (dataField mem 0 2) = some (true, len) → len = 0 := by
  have hdata : (mem.drop 5).take 2 = dataField mem 0 2 := rfl
  have hlength : (dataField mem 0 2).length = 2 := by
    rw [dataField, List.length_take, List.length_drop]
    omega
  rw [unpackSerialNumber]
  simp only [Probe.run_bind, Probe.run_range (show 5 + 2 ≤ mem.length by omega), hdata,
    Outcome.ret_bind, Probe.run_lift]
  refine ((stoul_returnsOnly _).bind fun len hlen => ?_).throws_iff
  have hread := Outcome.lift_eq_ret.mp hlen
  have hmax := le_stringMaxSize_iff hlength hread
  by_cases hlt : stringMaxSize < len
  · rw [if_pos hlt, Probe.run_throw]
    exact .inr ⟨fun h => absurd (hmax.mpr h) (not_le.mpr hlt), _, rfl, by decide⟩
  · have := stoul_two_chars hlength hread (by omega)
    rw [if_neg hlt, Probe.run_bind, Probe.run_range (by omega)]
    exact .inl ⟨hmax.mp (by omega), _, rfl⟩

/-! ### All commands -/

theorem unpack_handled_iff (hm : mem.length = 256) (hr : rawSize ≤ 256)
    (hv : (validate c rawSize).run mem = .ret true) :
    ((unpack c rawSize).run mem).Throws Exn.Handled ↔
      (ListAccepted c (split (dataField mem 0 (rawSize - 5)) 0x2C) →
        ∀ s ∈ numberTexts c rawSize mem, HasNumber s) ∧
      (c = .getSerialNumber → ∀ len, scanInt (dataField mem 0 2) = some (true, len) → len = 0) := by
  have hr : rawSize ≤ mem.length := by omega
  have h5 (hc : c.isSet = false) : 5 ≤ rawSize := five_le_of_validate hc hv
  -- without expected items there is no list to check
  have hunchecked {P Q : Prop} (h : P ↔ Q) :
      P ↔ (checkList c [] 0 (split (dataField mem 0 (rawSize - 5)) 0x2C) = .ok () → Q) := by
    simp [h, checkList]
  have hfixed {P : Prop} {s : Bytes} (h : P ↔ HasNumber s) :
      P ↔ (checkList c [] 0 (split (dataField mem 0 (rawSize - 5)) 0x2C) = .ok () →
        ∀ t ∈ [s], HasNumber t) :=
    hunchecked (by rw [h, List.forall_mem_singleton])
  by_cases hserial : c = .getSerialNumber
  · subst hserial
    refine (unpackSerialNumber_handled_iff hm).trans (and_congr ?_ ?_)
    · exact hfixed Iff.rfl
    · exact ⟨fun h _ => h, fun h => h rfl⟩
  refine Iff.trans ?_ (and_iff_left fun h => absurd h hserial).symm
  cases c
  case getSerialNumber => exact absurd rfl hserial
  case getProtocolID => exact hfixed (unpackProtocolID_handled_iff hm)
  case getWorkingMode => exact hfixed (unpackWorkingMode_handled_iff hm)
  case getTotalGenerated | getYearGenerated | getMonthGenerated | getDayGenerated =>
    exact hfixed (unpackTotalGenerated_handled_iff hm)
  case getCurrentTime => exact hunchecked (unpackCurrentTime_handled_iff hm)
  case getCPUVersion | getRatedInformation | getGeneralStatus | getFaultsAndWarnings
      | getFlagsAndStatuses | getRatedDefaults =>
    exact unpackList_handled_iff (h5 rfl) hr (by decide)
  case getParallelRatedInformation =>
    exact unpackParallelRatedInformation_handled_iff (h5 rfl) hr
  case getParallelGeneralStatus => exact unpackParallelGeneralStatus_handled_iff (h5 rfl) hr
  case getAllowedChargeCurrents | getAllowedACChargeCurrents =>
    exact hunchecked (unpackAllowedChargeCurrents_handled_iff (h5 rfl) hr)
  case getACChargeTimeBucket | getACSupplyTimeBucket =>
    exact unpackACChargeTimeBucket_handled_iff (h5 rfl) hr
  -- the answers to set commands hold nothing
  all_goals
    exact iff_of_true (Outcome.throws_ret _) fun _ => by simp [numberTexts, itemTexts, itemTable]

theorem setValidate_throws {P : Exn → Prop} (rawSize : ℕ) :
    (setValidate rawSize : Probe Exn Bool).Throws P := by
  unfold setValidate
  split_ifs
  · exact Probe.throws_pure false
  · refine Probe.throws_bind (Probe.throws_byte 0) fun b0 => ?_
    split_ifs
    · exact Probe.throws_pure false
    · exact Probe.throws_bind (Probe.throws_byte 1) fun b1 => Probe.throws_pure _

theorem validate_handled_iff (hm : mem.length = 256) :
    ((validate c rawSize).run mem).Throws Exn.Handled ↔
      (c.isSet = false → 5 ≤ rawSize → mem.take 2 = ascii "^D" →
        HasNumber (cstr ((mem.drop 2).take 3))) := by
  rw [validate]
  cases hset : c.isSet with
  | true =>
      rw [if_pos rfl]
      exact iff_of_true (setValidate_throws rawSize mem) fun h => absurd h (by decide)
  | false =>
      have hhead : mem.take 2 = ascii "^D" ↔ mem[0] = 0x5E ∧ mem[1] = 0x44 := by
        have htake : mem.take 2 = [mem[0], mem[1]] := by
          obtain ⟨b0, b1, rest, rfl⟩ := exists_cons_cons (show 2 ≤ mem.length by omega)
          rfl
        rw [htake, show ascii "^D" = [0x5E, 0x44] from rfl]
        simp
      rw [if_neg (by decide), getValidate, hhead]
      by_cases h5 : rawSize < 5
      · rw [if_pos h5]
        exact iff_of_true (Outcome.throws_ret _) fun _ h => by omega
      rw [if_neg h5, Probe.run_bind, Probe.run_byte (by omega), Outcome.ret_bind]
      by_cases h0 : mem[0] = 0x5E
      swap
      · rw [if_pos h0]
        exact iff_of_true (Outcome.throws_ret _) fun _ _ h => absurd h.1 h0
      rw [if_neg (not_not_intro h0), Probe.run_bind, Probe.run_byte (by omega), Outcome.ret_bind]
      by_cases h1 : mem[1] = 0x44
      swap
      · rw [if_pos h1]
        exact iff_of_true (Outcome.throws_ret _) fun _ _ h => absurd h.2 h1
      rw [if_neg (not_not_intro h1)]
      simp only [Probe.run_bind, Probe.run_range (show 2 + 3 ≤ mem.length by omega),
        Outcome.ret_bind, Probe.run_lift]
      refine ((stoul_returnsOnly _).bind fun len _ =>
        Outcome.ReturnsOnly.returns _).throws_iff.trans ?_
      simp [not_lt.mp h5, h0, h1]

theorem decodeResponse_handled_iff (hm : mem.length = 256) (hr : rawSize ≤ 256) :
    (decodeResponse c mem rawSize).Throws Exn.Handled ↔ Readable c rawSize mem := by
  have hunpack (hv : (validate c rawSize).run mem = .ret true) :=
    unpack_handled_iff (c := c) hm hr hv
  rw [decodeResponse, Outcome.throws_bind_iff, validate_handled_iff hm]
  constructor
  · rintro ⟨hannounced, hdecode⟩
    have hthrows (hv : (validate c rawSize).run mem = .ret true) :
        ((unpack c rawSize).run mem).Throws Exn.Handled := by
      have := hdecode true hv
      rw [if_pos rfl, Outcome.throws_bind_iff] at this
      exact this.1
    exact ⟨hannounced, fun hv => ((hunpack hv).mp (hthrows hv)).1,
      fun hc hv => ((hunpack hv).mp (hthrows hv)).2 hc⟩
  · intro h
    refine ⟨h.announced, fun valid hv => ?_⟩
    cases valid with
    | false => exact Outcome.throws_throw.mpr (by decide)
    | true =>
        rw [if_pos rfl]
        refine Outcome.throws_bind ((hunpack hv).mpr ⟨h.numbers hv, ?_⟩) fun fields =>
          Outcome.throws_ret _
        exact fun hc => h.serialLength hc hv

theorem decodeResponse_ended (hm : mem.length = 256) (hr : rawSize ≤ 256) :
    (decodeResponse c mem rawSize).Ended := by
  unfold decodeResponse Outcome.Ended
  cases hv : (validate c rawSize).run mem with
  | throw e => simp
  | pending => exact absurd hv (Probe.run_ne_pending _ mem)
  | fault => exact absurd hv (validate_confined hm c rawSize).2
  | ret valid =>
      cases valid with
      | false => simp
      | true =>
          have hfault := unpack_ne_fault hm hr hv
          cases hu : (unpack c rawSize).run mem with
          | ret fields => simp
          | throw e => simp
          | pending => exact absurd hu (Probe.run_ne_pending _ mem)
          | fault => exact absurd hu hfault

end

/-! ### The contract -/

/-- The call ends with a response or an exception that is caught, or it still waits for the device,
its time not being up. -/
def Contract {α : Type} (dev : Device) (env : Device.Script) (packed : Bytes) (o : Outcome Exn α) :
    Prop :=
  (∃ r, o = .ret r) ∨ (∃ e, o = .throw e ∧ e.Handled) ∨ (o = .pending ∧ dev.InTime env packed)

/-- The data of the device on which the contract is kept. -/
structure Orderly (dev : Device) (env : Device.Script) (packed : Bytes) (buf : ResponseBuffer)
    (c : CommandType) : Prop where
  written : ¬ dev.WritesOutside env.started (Device.frame dev.flags packed).length 0 env.writes
  fits : dev.Sent env packed → ¬ dev.Fills env.started 256 env.reads
  inside : dev.Sent env packed → ¬ dev.ReadsOutside env.started buf.1 0 env.reads
  readable : dev.Sent env packed → ∀ mem n, dev.Line env.started buf.1 [] env.reads mem →
    Device.checkResponse dev.flags mem (Device.lineSize mem) = .ok n → Readable c n mem

section

variable {α β : Type} {dev : Device} {env : Device.Script} {packed : Bytes} {o : Outcome Exn α}

theorem contract_iff : Contract dev env packed o ↔
    o ≠ .fault ∧ o.Throws Exn.Handled ∧ (o = .pending → dev.InTime env packed) := by
  unfold Contract
  cases o with
  | ret r => simp
  | throw e => simp
  | fault => simp
  | pending => simp

theorem contract_bind_iff {f : α → Outcome Exn β} (hf : ∀ a, o = .ret a → (f a).Ended) :
    Contract dev env packed (o >>= f) ↔
      Contract dev env packed o ∧ ∀ a, o = .ret a → (f a).Throws Exn.Handled := by
  rw [contract_iff, contract_iff]
  cases o with
  | ret a =>
      have := hf a rfl
      simp [this.1, this.2]
  | throw e => simp
  | fault => simp
  | pending => simp

end

section

variable {dev : Device} {env : Device.Script} {packed : Bytes} {buf : ResponseBuffer}

theorem run_contract_iff (h : env.Plausible 256) :
    Contract dev env packed (dev.run env packed buf.1).outcome ↔
      ¬ dev.WritesOutside env.started (Device.frame dev.flags packed).length 0 env.writes ∧
      (dev.Sent env packed → ¬ dev.Fills env.started 256 env.reads) ∧
      (dev.Sent env packed → ¬ dev.ReadsOutside env.started buf.1 0 env.reads) := by
  have hbuf : buf.1.length < 2 ^ 62 := by
    rw [buf.2]
    norm_num
  have hplausible : env.Plausible buf.1.length := by
    rwa [buf.2]
  rw [contract_iff]
  by_cases hsent : dev.Sent env packed
  · obtain ⟨hrun, -⟩ := Device.run_of_sent dev hplausible hsent
    have hwritten : ¬ dev.WritesOutside env.started (Device.frame dev.flags packed).length 0
        env.writes := by
      rw [← Device.send_fault_iff dev hplausible, ((Device.sent_iff dev hplausible).mp hsent).1]
      simp
    have hhandled := Device.recv_handled_iff dev hbuf hplausible
    rw [buf.2] at hhandled
    have hintime (hp : (dev.recv env.started buf.1 env.reads).outcome = .pending) :
        dev.InTime env packed := .inr ⟨hsent, Device.recv_pending dev hp⟩
    rw [hrun, ne_eq, Device.recv_fault_iff dev hbuf hplausible, hhandled]
    constructor
    · rintro ⟨hinside, hfits, -⟩
      exact ⟨hwritten, fun _ => hfits, fun _ => hinside⟩
    · rintro ⟨-, hfits, hinside⟩
      exact ⟨hinside hsent, hfits hsent, hintime⟩
  · obtain ⟨hfault, hthrows, -, hpending⟩ := Device.run_of_not_sent dev hplausible hsent
    rw [ne_eq, hfault]
    constructor
    · rintro ⟨hwritten, -⟩
      exact ⟨hwritten, fun h => absurd h hsent, fun h => absurd h hsent⟩
    · rintro ⟨hwritten, -⟩
      exact ⟨hwritten, hthrows, fun hp => .inl ⟨hsent, hpending hp⟩⟩

/-- **What leaves `Client::execute`.**  For every request that was packed, and for every way the
device answers it: a response or one of the four exceptions that are caught, exactly when the
writes and the reads stay inside their buffers, the answer fits into its buffer, and an answer
whose CRC is right has a number where one is expected. -/
theorem execute_contract_iff (m : Machine) {c : CommandType} {args : List Bytes}
    (hpacked : packRequest m c args = .ok packed) (h : env.Plausible 256) :
    Contract dev env packed (execute m dev env buf c args).outcome ↔
      Orderly dev env packed buf c := by
  have hbuf : buf.1.length < 2 ^ 62 := by
    rw [buf.2]
    norm_num
  have hplausible : env.Plausible buf.1.length := by
    rwa [buf.2]
  have hexecute : (execute m dev env buf c args).outcome =
      ((dev.run env packed buf.1).outcome >>=
        decodeResponse c (dev.run env packed buf.1).outbuf) := by
    unfold execute
    simp only [hpacked]
  -- a run that returns has completed a line
  have hret (n : ℕ) (hn : (dev.run env packed buf.1).outcome = .ret n) : dev.Sent env packed ∧
      dev.Line env.started buf.1 [] env.reads (dev.run env packed buf.1).outbuf ∧
      Device.checkResponse dev.flags (dev.run env packed buf.1).outbuf
        (Device.lineSize (dev.run env packed buf.1).outbuf) = .ok n := by
    by_cases hsent : dev.Sent env packed
    · obtain ⟨hrun, hout⟩ := Device.run_of_sent dev hplausible hsent
      rw [hrun] at hn
      rw [hout]
      exact ⟨hsent, (Device.recv_ret_iff dev hbuf hplausible).mp ⟨hn, rfl⟩⟩
    · exact absurd hn ((Device.run_of_not_sent dev hplausible hsent).2.2.1 n)
  have hsize (n : ℕ) (hn : (dev.run env packed buf.1).outcome = .ret n) :
      (dev.run env packed buf.1).outbuf.length = 256 ∧ n ≤ 256 := by
    obtain ⟨-, hline, hcheck⟩ := hret n hn
    obtain ⟨hlen, hCR⟩ := hline.length_eq dev env.started (Nat.zero_le _) hplausible.reads
    rw [buf.2] at hlen
    exact ⟨hlen, (Device.lt_of_checkResponse hcheck).le.trans
      ((Device.lineSize_le hCR).trans hlen.le)⟩
  rw [hexecute, contract_bind_iff fun n hn => decodeResponse_ended (hsize n hn).1 (hsize n hn).2,
    run_contract_iff h]
  constructor
  · rintro ⟨⟨hwritten, hfits, hinside⟩, hdecode⟩
    refine ⟨hwritten, hfits, hinside, fun hsent mem n hline hcheck => ?_⟩
    obtain ⟨hrun, hout⟩ := Device.run_of_sent dev hplausible hsent
    obtain ⟨hn, rfl⟩ := (Device.recv_ret_iff dev hbuf hplausible).mpr ⟨hline, hcheck⟩
    rw [← hrun] at hn
    rw [← hout]
    exact (decodeResponse_handled_iff (hsize n hn).1 (hsize n hn).2).mp (hdecode n hn)
  · rintro ⟨hwritten, hfits, hinside, hreadable⟩
    refine ⟨⟨hwritten, hfits, hinside⟩, fun n hn => ?_⟩
    obtain ⟨hsent, hline, hcheck⟩ := hret n hn
    exact (decodeResponse_handled_iff (hsize n hn).1 (hsize n hn).2).mpr
      (hreadable hsent _ n hline hcheck)

end

/-- A USB device takes the question for the working mode in two writes, and answers in two reads. -/
def workingModeScript (answer : Bytes) : Device.Script :=
  let reply := Device.frame Voltronic.defaultFlags answer
  ⟨0, [⟨8, 8, 1, 1⟩, ⟨3, 3, 2, 2⟩], 3, 3,
    [⟨8, reply.take 8, 4, 4⟩, ⟨2, reply.drop 8, 5, 5⟩]⟩

theorem plausible_workingModeScript {answer : Bytes} (h : answer.length = 7) :
    (workingModeScript answer).Plausible 256 := by
  have hreply : (Device.frame Voltronic.defaultFlags answer).length = 10 := by
    simp [Device.frame, Voltronic.defaultFlags, Voltronic.crcWrite, h]
  refine ⟨by simp [workingModeScript, Device.IntResults], ?_⟩
  simp [workingModeScript, Device.Answers, hreply]

/-- The working mode is announced with three digits. -/
theorem execute_contract_working_mode :
    Contract ⟨.usb, Voltronic.defaultFlags, Voltronic.TIMEOUT⟩ (workingModeScript (ascii "^D00705"))
      (ascii "^P006MOD") (execute x86 ⟨.usb, Voltronic.defaultFlags, Voltronic.TIMEOUT⟩
        (workingModeScript (ascii "^D00705")) zeroBuffer .getWorkingMode []).outcome ↔
      Orderly ⟨.usb, Voltronic.defaultFlags, Voltronic.TIMEOUT⟩
        (workingModeScript (ascii "^D00705")) (ascii "^P006MOD") zeroBuffer .getWorkingMode :=
  execute_contract_iff x86 (by decide) (plausible_workingModeScript (by decide))

/-- The device announces the length `ABC`, with the right CRC: `std::invalid_argument` leaves. -/
theorem execute_breaks_contract : ¬ ∀ (m : Machine) (dev : Device) (env : Device.Script)
    (buf : ResponseBuffer) (c : CommandType) (args : List Bytes) (packed : Bytes),
    packRequest m c args = .ok packed → env.Plausible 256 →
      Contract dev env packed (execute m dev env buf c args).outcome := fun h => by
  have hcontract := h x86 ⟨.usb, Voltronic.defaultFlags, Voltronic.TIMEOUT⟩
    (workingModeScript (ascii "^DABC05")) zeroBuffer .getWorkingMode [] (ascii "^P006MOD")
    (by decide) (plausible_workingModeScript (by decide))
  have hthrow : (execute x86 ⟨.usb, Voltronic.defaultFlags, Voltronic.TIMEOUT⟩
      (workingModeScript (ascii "^DABC05")) zeroBuffer .getWorkingMode []).outcome =
      .throw ⟨.invalidArgument, ascii "stoul"⟩ := by
    decide +kernel
  rw [hthrow, contract_iff, Outcome.throws_throw] at hcontract
  exact absurd hcontract.2.1 (by decide)

end P18

end InverterTools
