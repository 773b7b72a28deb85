import InverterTools.Response

/-! # Decoding reads the payload, when the payload is long enough

The only guard before `unpack` is the length check of `GetResponse::validate`, which compares the
size with the announced length minus five, although `rawSize` still counts the `^Dxxx` in front.
Responses that are split into a list are safe behind it; the five that are decoded at fixed
offsets are not.  `Enough` is the exact condition on the payload. -/

namespace InverterTools.P18

/-- The `n` bytes of the data (behind `^Dxxx`) from offset `off` on. -/
def dataField (mem : Bytes) (off n : ℕ) : Bytes := (mem.drop (5 + off)).take n

/-- Offset and length of the numbers of `CurrentTime`. -/
def timeFields : List (ℕ × ℕ) := [(0, 4), (4, 2), (6, 2), (8, 2), (10, 2), (12, 2)]

/-- The payload holds everything that the response class of `c` decodes. -/
def Enough (c : CommandType) (rawSize : ℕ) (mem : Bytes) : Prop :=
  match c with
  | .getProtocolID => 7 ≤ rawSize ∨ (rawSize = 6 ∧ mem[5]? = some 0)
  | .getCurrentTime => 19 ≤ rawSize ∨ ∃ f ∈ timeFields, 5 + f.1 + f.2 ≤ rawSize ∧
      ¬ ∃ n, stou (dataField mem f.1 f.2) = .ok n
  | .getTotalGenerated | .getYearGenerated | .getMonthGenerated | .getDayGenerated =>
      13 ≤ rawSize
  | .getSerialNumber => 7 ≤ rawSize ∧
      ∀ len, stoul (dataField mem 0 2) = .ok len → len ≤ stringMaxSize → 7 + len ≤ rawSize
  | .getWorkingMode => 7 ≤ rawSize
  | _ => True

/-- What `validate` gives `unpack` to rely on. -/
theorem five_le_of_validate {c : CommandType} {rawSize : ℕ} {mem : Bytes} (hc : c.isSet = false)
    (h : (validate c rawSize).run mem = .ret true) : 5 ≤ rawSize := by
  rw [validate, hc, if_neg (by simp)] at h
  unfold getValidate at h
  split_ifs at h with h5
  · simp at h
  · omega

/-! ### Lists -/

theorem elementAt_confined {list : List Bytes} {i : ℕ} (h : i < list.length) (n : ℕ)
    (mem : Bytes) : (elementAt list i).Confined n mem := by
  rw [elementAt, List.getElem?_eq_getElem h]
  exact Probe.confined_ret _ n mem

theorem unpackItems_confined {list : List Bytes} {n : ℕ} {mem : Bytes} :
    ∀ {i : ℕ} {items : List Item}, i + items.length ≤ list.length →
      (unpackItems list i items).Confined n mem
  | i, [], _ => Probe.confined_ret _ n mem
  | i, item :: items, h => by
      rw [List.length_cons] at h
      rw [unpackItems, Probe.confined_bind]
      refine ⟨elementAt_confined (by omega) n mem, fun s _ => ?_⟩
      rw [Probe.confined_bind]
      refine ⟨Probe.confined_lift _ n mem, fun v _ => ?_⟩
      rw [Probe.confined_bind]
      exact ⟨unpackItems_confined (by omega), fun ms _ => Probe.confined_ret _ n mem⟩

theorem checkList_length {c : CommandType} {ls : List FieldLength} {k : ℕ} {list : List Bytes}
    (hls : ls ≠ []) (h : checkList c ls k list = .ok ()) : k ≤ list.length := by
  rw [checkList, if_neg hls] at h
  split_ifs at h with hk
  omega

section

variable {c : CommandType} {rawSize : ℕ} {mem : Bytes}

theorem getList_confined {α : Type} {ls : List FieldLength} {k : ℕ}
    {f : List Bytes → Probe Exn α} (h5 : 5 ≤ rawSize) (hr : rawSize ≤ mem.length)
    (hf : ∀ list, (ls ≠ [] → k ≤ list.length) → (f list).Confined rawSize mem) :
    (getList c rawSize ls k >>= f).Confined rawSize mem := by
  rw [Probe.confined_bind]
  constructor
  · rw [getList, Probe.confined_bind, Probe.confined_range (by omega)]
    refine ⟨by omega, fun buf _ => ?_⟩
    rw [Probe.confined_bind]
    exact ⟨Probe.confined_lift _ rawSize mem, fun _ _ => Probe.confined_ret _ rawSize mem⟩
  · intro list hlist
    refine hf list fun hls => ?_
    rw [getList, Probe.run_bind, Probe.run_range (by omega), Outcome.ret_bind, Probe.run_bind,
      Probe.run_lift] at hlist
    obtain ⟨u, hu, hl⟩ := Outcome.bind_eq_ret.mp hlist
    obtain rfl := Outcome.ret.inj hl
    exact checkList_length hls (Outcome.lift_eq_ret.mp hu)

theorem unpackList_confined (h5 : 5 ≤ rawSize) (hr : rawSize ≤ mem.length) (l : ListLayout)
    (hne : l.items ≠ []) : (unpackList c rawSize l).Confined rawSize mem := by
  rw [unpackList_eq]
  refine getList_confined h5 hr fun list hlen => ?_
  rw [Probe.confined_bind]
  have := hlen (by simpa using hne)
  exact ⟨unpackItems_confined (by omega), fun ms _ => Probe.confined_ret _ rawSize mem⟩

theorem unpackParallelRatedInformation_confined (h5 : 5 ≤ rawSize) (hr : rawSize ≤ mem.length) :
    (unpackParallelRatedInformation c rawSize).Confined rawSize mem := by
  rw [unpackParallelRatedInformation_eq]
  refine getList_confined h5 hr fun list hlen => ?_
  rw [Probe.confined_bind]
  have := hlen (by decide)
  exact ⟨unpackItems_confined (by omega), fun ms _ => Probe.confined_ret _ rawSize mem⟩

theorem unpackParallelGeneralStatus_confined (h5 : 5 ≤ rawSize) (hr : rawSize ≤ mem.length) :
    (unpackParallelGeneralStatus c rawSize).Confined rawSize mem := by
  rw [unpackParallelGeneralStatus_eq]
  refine getList_confined h5 hr fun list hlen => ?_
  have h28 := hlen (by decide)
  have ht : (parallelGeneralStatus.items.take 28).length = 28 := rfl
  have hd : (parallelGeneralStatus.items.drop 28).length = 1 := rfl
  rw [Probe.confined_bind]
  refine ⟨unpackItems_confined (by omega), fun ms _ => ?_⟩
  split_ifs with h29
  · rw [Probe.confined_bind]
    exact ⟨unpackItems_confined (by omega), fun ms _ => Probe.confined_ret _ rawSize mem⟩
  · exact Probe.confined_ret _ rawSize mem

theorem unpackAllowedChargeCurrents_confined (h5 : 5 ≤ rawSize) (hr : rawSize ≤ mem.length) :
    (unpackAllowedChargeCurrents c rawSize).Confined rawSize mem := by
  refine getList_confined h5 hr fun list _ => ?_
  rw [Probe.confined_bind]
  exact ⟨Probe.confined_lift _ rawSize mem, fun ns _ => Probe.confined_ret _ rawSize mem⟩

theorem bucketPart_confined {list : List Bytes} {i : ℕ} (h : i < list.length) (pos n : ℕ)
    (mem : Bytes) : (bucketPart list i pos).Confined n mem := by
  rw [bucketPart, Probe.confined_bind]
  refine ⟨elementAt_confined h n mem, fun s _ => ?_⟩
  rw [Probe.confined_bind]
  exact ⟨Probe.confined_lift _ n mem, fun part _ => Probe.confined_lift _ n mem⟩

theorem unpackACChargeTimeBucket_confined (h5 : 5 ≤ rawSize) (hr : rawSize ≤ mem.length) :
    (unpackACChargeTimeBucket c rawSize).Confined rawSize mem := by
  refine getList_confined h5 hr fun list hlen => ?_
  have h2 := hlen (by simp)
  have hpart : ∀ i pos, i < 2 → (bucketPart list i pos).Confined rawSize mem := fun i pos hi =>
    bucketPart_confined (by omega) pos rawSize mem
  rw [Probe.confined_bind]
  refine ⟨hpart 0 0 (by omega), fun start_h _ => ?_⟩
  rw [Probe.confined_bind]
  refine ⟨hpart 0 2 (by omega), fun start_m _ => ?_⟩
  rw [Probe.confined_bind]
  refine ⟨hpart 1 0 (by omega), fun end_h _ => ?_⟩
  rw [Probe.confined_bind]
  exact ⟨hpart 1 2 (by omega), fun end_m _ => Probe.confined_ret _ rawSize mem⟩

/-! ### Fixed offsets -/

theorem numberAt_run {off n : ℕ} (h : 5 + off + n ≤ mem.length) :
    (numberAt off n).run mem = .lift (stou (dataField mem off n)) := by
  rw [numberAt, Probe.run_bind, Probe.run_range h, Outcome.ret_bind, Probe.run_lift, dataField]

/-- A number at a fixed offset is read from the payload exactly when its field ends there. -/
theorem numberAt_bind_confined {α : Type} {off n : ℕ} {f : ℕ → Probe Exn α} (hn : 0 < n)
    (h : 5 + off + n ≤ mem.length) : (numberAt off n >>= f).Confined rawSize mem ↔
      5 + off + n ≤ rawSize ∧
        ∀ a, stou (dataField mem off n) = .ok a → (f a).Confined rawSize mem := by
  have hfield : (numberAt off n).Confined rawSize mem ↔ 5 + off + n ≤ rawSize := by
    rw [numberAt, Probe.confined_bind, Probe.confined_range h]
    simp only [Probe.confined_lift, implies_true, and_true]
    omega
  rw [Probe.confined_bind, hfield, numberAt_run h]
  simp only [Outcome.lift_eq_ret]

theorem unpackProtocolID_confined_iff (hm : mem.length = 256) :
    unpackProtocolID.Confined rawSize mem ↔ Enough .getProtocolID rawSize mem := by
  have h5 : 5 < mem.length := by omega
  have h6 : 6 < mem.length := by omega
  show _ ↔ 7 ≤ rawSize ∨ (rawSize = 6 ∧ mem[5]? = some 0)
  rw [unpackProtocolID, Probe.confined_bind, Probe.confined_byte h5, Probe.run_byte h5,
    List.getElem?_eq_getElem h5]
  simp only [Outcome.ret.injEq, forall_eq', Option.some.injEq]
  split_ifs with h0
  · simp only [Probe.pure_eq, Probe.ret_bind, Probe.confined_bind, Probe.confined_lift,
      Probe.confined_ret, h0]
    simp only [implies_true, and_true]
    omega
  · simp only [Probe.pure_eq, Probe.confined_bind, Probe.confined_byte h6, Probe.confined_lift,
      Probe.confined_ret, h0]
    simp only [implies_true, and_true, and_false, or_false]
    omega

theorem unpackCurrentTime_confined_iff (hm : mem.length = 256) :
    unpackCurrentTime.Confined rawSize mem ↔ Enough .getCurrentTime rawSize mem := by
  show _ ↔ 19 ≤ rawSize ∨ ∃ f ∈ timeFields, 5 + f.1 + f.2 ≤ rawSize ∧
    ¬ ∃ n, stou (dataField mem f.1 f.2) = .ok n
  have hbind (off n : ℕ) (hn : 0 < n) (h : off + n ≤ 14) (f : ℕ → Probe Exn Decoded) :
      (numberAt off n >>= f).Confined rawSize mem ↔ 5 + off + n ≤ rawSize ∧
        ∀ a, stou (dataField mem off n) = .ok a → (f a).Confined rawSize mem :=
    numberAt_bind_confined hn (by omega)
  rw [unpackCurrentTime]
  simp only [hbind 0 4 (by omega) (by omega), hbind 4 2 (by omega) (by omega),
    hbind 6 2 (by omega) (by omega), hbind 8 2 (by omega) (by omega),
    hbind 10 2 (by omega) (by omega), hbind 12 2 (by omega) (by omega), Probe.pure_eq,
    Probe.confined_ret, ← exists_imp, timeFields, List.mem_cons, List.not_mem_nil, or_false,
    exists_eq_or_imp, exists_eq_left]
  -- the fields end in increasing order, so the first one that is no number ends the reading
  generalize (∃ n, stou (dataField mem 0 4) = .ok n) = year
  generalize (∃ n, stou (dataField mem 4 2) = .ok n) = month
  generalize (∃ n, stou (dataField mem 6 2) = .ok n) = day
  generalize (∃ n, stou (dataField mem 8 2) = .ok n) = hour
  generalize (∃ n, stou (dataField mem 10 2) = .ok n) = minute
  generalize (∃ n, stou (dataField mem 12 2) = .ok n) = second
  grind

theorem unpackTotalGenerated_confined_iff (hm : mem.length = 256) :
    unpackTotalGenerated.Confined rawSize mem ↔ 13 ≤ rawSize := by
  rw [unpackTotalGenerated, numberAt_bind_confined (by omega) (by omega)]
  simp

/-- The two length characters give at most 99, or a number no string has room for. -/
theorem stoul_two_chars {s : Bytes} {len : ℕ} (hs : s.length = 2) (h : stoul s = .ok len)
    (hmax : len ≤ stringMaxSize) : len ≤ 99 := by
  have := strtoul_lt_pow (stoul_eq_ok.mp h)
  rw [hs] at this
  unfold stringMaxSize at hmax
  omega

theorem unpackSerialNumber_confined_iff (hm : mem.length = 256) :
    unpackSerialNumber.Confined rawSize mem ↔ Enough .getSerialNumber rawSize mem := by
  show _ ↔ 7 ≤ rawSize ∧
    ∀ len, stoul (dataField mem 0 2) = .ok len → len ≤ stringMaxSize → 7 + len ≤ rawSize
  rw [unpackSerialNumber, Probe.confined_bind, Probe.confined_range (by omega),
    Probe.run_range (by omega)]
  simp only [Outcome.ret.injEq, forall_eq', Probe.confined_bind, Probe.confined_lift, true_and,
    Probe.run_lift, Outcome.lift_eq_ret, OfNat.ofNat_ne_zero, false_or]
  refine and_congr_right fun h7 => forall_congr' fun len => imp_congr_right fun hlen => ?_
  have hs : ((mem.drop 5).take 2).length = 2 := by
    rw [List.length_take, List.length_drop]
    omega
  split_ifs with hmax
  · simp only [Probe.confined_throw, true_iff]
    omega
  · have := stoul_two_chars hs hlen (by omega)
    simp only [Probe.confined_bind, Probe.confined_range (show 7 + len ≤ mem.length by omega),
      Probe.pure_eq, Probe.confined_ret, implies_true, and_true]
    omega

theorem unpackWorkingMode_confined_iff (hm : mem.length = 256) :
    unpackWorkingMode.Confined rawSize mem ↔ 7 ≤ rawSize := by
  rw [unpackWorkingMode, numberAt_bind_confined (by omega) (by omega)]
  simp

end

/-! ### All get commands -/

/-- What `unpack` of a get command reads is confined to the payload exactly when the payload
holds enough. -/
theorem unpack_confined_iff {c : CommandType} {rawSize : ℕ} {mem : Bytes} (hc : c.isSet = false)
    (hm : mem.length = 256) (hr : rawSize ≤ 256) (h5 : 5 ≤ rawSize) :
    (unpack c rawSize).Confined rawSize mem ↔ Enough c rawSize mem := by
  have hr' : rawSize ≤ mem.length := by omega
  cases c with
  | getProtocolID => exact unpackProtocolID_confined_iff hm
  | getCurrentTime => exact unpackCurrentTime_confined_iff hm
  | getTotalGenerated => exact unpackTotalGenerated_confined_iff hm
  | getYearGenerated => exact unpackTotalGenerated_confined_iff hm
  | getMonthGenerated => exact unpackTotalGenerated_confined_iff hm
  | getDayGenerated => exact unpackTotalGenerated_confined_iff hm
  | getSerialNumber => exact unpackSerialNumber_confined_iff hm
  | getWorkingMode => exact unpackWorkingMode_confined_iff hm
  | getCPUVersion => exact iff_of_true (unpackList_confined h5 hr' _ (by decide)) trivial
  | getRatedInformation => exact iff_of_true (unpackList_confined h5 hr' _ (by decide)) trivial
  | getGeneralStatus => exact iff_of_true (unpackList_confined h5 hr' _ (by decide)) trivial
  | getFaultsAndWarnings => exact iff_of_true (unpackList_confined h5 hr' _ (by decide)) trivial
  | getFlagsAndStatuses => exact iff_of_true (unpackList_confined h5 hr' _ (by decide)) trivial
  | getRatedDefaults => exact iff_of_true (unpackList_confined h5 hr' _ (by decide)) trivial
  | getAllowedChargeCurrents =>
      exact iff_of_true (unpackAllowedChargeCurrents_confined h5 hr') trivial
  | getAllowedACChargeCurrents =>
      exact iff_of_true (unpackAllowedChargeCurrents_confined h5 hr') trivial
  | getParallelRatedInformation =>
      exact iff_of_true (unpackParallelRatedInformation_confined h5 hr') trivial
  | getParallelGeneralStatus =>
      exact iff_of_true (unpackParallelGeneralStatus_confined h5 hr') trivial
  | getACChargeTimeBucket => exact iff_of_true (unpackACChargeTimeBucket_confined h5 hr') trivial
  | getACSupplyTimeBucket => exact iff_of_true (unpackACChargeTimeBucket_confined h5 hr') trivial
  | _ => cases hc

/-- **Decoding reads the payload** of a validated answer to a get command, and no element behind
its list, exactly when the payload holds enough.  What is decoded, or thrown, then does not depend
on the rest of the buffer. -/
theorem decode_payload_iff {c : CommandType} {rawSize : ℕ} {mem : Bytes} (hc : c.isSet = false)
    (hm : mem.length = 256) (hr : rawSize ≤ 256)
    (hv : (validate c rawSize).run mem = .ret true) :
    ((unpack c rawSize).Confined rawSize mem ↔ Enough c rawSize mem) ∧
      (Enough c rawSize mem → ∀ mem' : Bytes, mem.take rawSize = mem'.take rawSize →
        (unpack c rawSize).run mem' = (unpack c rawSize).run mem) := by
  have hiff : (unpack c rawSize).Confined rawSize mem ↔ Enough c rawSize mem :=
    unpack_confined_iff hc hm hr (five_le_of_validate hc hv)
  exact ⟨hiff, fun h mem' hmem => (hiff.mpr h).run_eq hmem⟩

/-- A working mode `05` announced with length 10. -/
theorem decode_payload_working_mode :
    ((unpack .getWorkingMode 7).Confined 7 (bufferWith (ascii "^D01005") 0) ↔ 7 ≤ 7) ∧
      (7 ≤ 7 → ∀ mem' : Bytes, (bufferWith (ascii "^D01005") 0).take 7 = mem'.take 7 →
        (unpack .getWorkingMode 7).run mem' =
          (unpack .getWorkingMode 7).run (bufferWith (ascii "^D01005") 0)) :=
  decode_payload_iff (c := .getWorkingMode) rfl (by decide +kernel) (by omega) (by decide +kernel)

/-- The answer `^D010` to "energy of the day" passes `validate` with no data at all: the number
that is decoded is whatever the rest of the buffer holds. -/
theorem decode_behind_payload :
    (validate .getDayGenerated 5).run (bufferWith (ascii "^D010") 0x31) = .ret true ∧
      ¬ (unpack .getDayGenerated 5).Confined 5 (bufferWith (ascii "^D010") 0x31) ∧
      (bufferWith (ascii "^D010") 0x31).take 5 = (bufferWith (ascii "^D010") 0x32).take 5 ∧
      (unpack .getDayGenerated 5).run (bufferWith (ascii "^D010") 0x31) =
        .ret (.members [(.wh, .ulong 11111111)]) ∧
      (unpack .getDayGenerated 5).run (bufferWith (ascii "^D010") 0x32) =
        .ret (.members [(.wh, .ulong 22222222)]) := by
  refine ⟨by decide, ?_, by decide, by decide, by decide⟩
  rw [show (unpack .getDayGenerated 5) = unpackTotalGenerated from rfl,
    unpackTotalGenerated_confined_iff (by decide +kernel)]
  omega

end InverterTools.P18
