import InverterTools.Grammar
import InverterTools.History
import InverterTools.Printing
import InverterTools.Reception

/-! # What the texts of a response can hold (`Device::recv` and `unpack`)

`recv` ends at the first carriage return, so none is left in what it hands on.  `Received` says that
of a response, and every response the daemon returns is one, also when it comes from the cache.  The
texts among the decoded members are parts of that payload; only the serial number is not, whose
length the device chooses. -/

namespace InverterTools

open P18 (CommandType Machine)
open Voltronic (Device Flags ReadEvent)

/-! ### The payload of an answer -/

namespace Voltronic.Device

variable (dev : Device) (started : UInt64)

/-- Everything in front of the pointer was looked at, and is no carriage return. -/
structure Scanned (s : ReadState) : Prop where
  size_eq : s.size = s.pos
  pos_le : s.pos ≤ s.mem.length
  no_CR : CR ∉ s.mem.take s.pos

theorem scanned_start (buf : Bytes) : Scanned ⟨buf, 0, buf.length, 0⟩ :=
  ⟨rfl, Nat.zero_le _, by simp⟩

/-- The inner loop finds the first carriage return. -/
theorem scanBytes_scanned : ∀ (n : ℕ) {s : ReadState}, Scanned s →
    match scanBytes n s with
    | .found size => size ≤ s.mem.length ∧ CR ∉ s.mem.take (size - 1)
    | .more s' => Scanned s'
    | .outside => True
  | 0, s, hs => hs
  | n + 1, s, hs => by
      rw [scanBytes]
      cases hb : s.mem[s.pos]? with
      | none => trivial
      | some b =>
          obtain ⟨hlt, rfl⟩ := List.getElem?_eq_some_iff.mp hb
          dsimp only
          by_cases hCR : s.mem[s.pos] = CR
          · rw [if_pos hCR]
            refine ⟨by rw [hs.size_eq]; omega, ?_⟩
            rw [Nat.add_sub_cancel, hs.size_eq]
            exact hs.no_CR
          · rw [if_neg hCR]
            refine scanBytes_scanned n (s := ⟨s.mem, s.pos + 1, s.left - 1, s.size + 1⟩) ?_
            refine ⟨by rw [hs.size_eq], hlt, ?_⟩
            rw [List.take_succ_eq_append_getElem hlt, List.mem_append, List.mem_singleton]
            exact fun h => h.elim hs.no_CR fun h => hCR h.symm

theorem Scanned.splice {s : ReadState} (hs : Scanned s) (data : Bytes) :
    Scanned { s with mem := splice s.mem s.pos data } where
  size_eq := hs.size_eq
  pos_le := by
    have := hs.pos_le
    simp only [InverterTools.splice, List.length_append, List.length_take]
    omega
  no_CR := by
    have hlen : (s.mem.take s.pos).length = s.pos := List.length_take_of_le hs.pos_le
    show CR ∉ (InverterTools.splice s.mem s.pos data).take s.pos
    rw [InverterTools.splice, List.append_assoc, List.take_left' hlen]
    exact hs.no_CR

theorem readLoop_no_CR {es : List ReadEvent} {s : ReadState} {n : ℕ} (hs : Scanned s)
    (h : (dev.readLoop started es s).outcome = .ret n) :
    n ≤ (dev.readLoop started es s).mem.length ∧
      CR ∉ (dev.readLoop started es s).mem.take (n - 1) := by
  induction es generalizing s with
  | nil => cases h
  | cons e es ih =>
      unfold readLoop at h ⊢
      cases hr : dev.driver.read e.code with
      | error x => simp [hr] at h
      | ok k =>
          have hscanned := scanBytes_scanned k (hs.splice e.data)
          simp only [hr] at h ⊢
          cases hscan : scanBytes k { s with mem := splice s.mem s.pos e.data } with
          | outside => simp [hscan] at h
          | found size =>
              simp only [hscan] at h hscanned ⊢
              obtain rfl := Outcome.ret.inj h
              exact hscanned
          | more s' =>
              simp only [hscan] at h hscanned ⊢
              split_ifs at h ⊢
              exact ih hscanned h

theorem recv_no_CR {buf : Bytes} {es : List ReadEvent} {n : ℕ}
    (h : (dev.recv started buf es).outcome = .ret n) :
    n ≤ (dev.recv started buf es).mem.length ∧ CR ∉ (dev.recv started buf es).mem.take n := by
  obtain ⟨size, hsize, hcheck⟩ := Outcome.bind_eq_ret.mp h
  have hlt := lt_of_checkResponse (Outcome.lift_eq_ret.mp hcheck)
  obtain ⟨hle, hno⟩ := dev.readLoop_no_CR started (scanned_start buf) hsize
  exact ⟨hlt.le.trans hle, fun hmem => hno (List.take_subset_take_left _ (by omega) hmem)⟩

end Voltronic.Device

namespace P18

/-- The response was decoded from a payload without a carriage return. -/
structure Response.Received (r : Response) : Prop where
  valid : (validate r.command r.rawSize).run r.raw = .ret true
  decoded : (unpack r.command r.rawSize).run r.raw = .ret r.fields
  size_le : r.rawSize ≤ r.raw.length
  no_CR : CR ∉ r.payload

theorem received_of_execute {m : Machine} {dev : Device} {env : Device.Script}
    {buf : ResponseBuffer} {c : CommandType} {args : List Bytes} {r : Response}
    (h : (execute m dev env buf c args).outcome = .ret r) : r.Received ∧ r.command = c := by
  unfold execute at h
  cases hpacked : packRequest m c args with
  | error e => simp [hpacked] at h
  | ok packed =>
      simp only [hpacked] at h
      obtain ⟨n, hrun, hdecode⟩ := Outcome.bind_eq_ret.mp h
      obtain ⟨-, hrecv, heq⟩ := Device.run_ret dev hrun
      obtain ⟨hle, hno⟩ := dev.recv_no_CR env.started hrecv
      rw [heq] at hdecode
      unfold decodeResponse at hdecode
      obtain ⟨valid, hvalid, hdecode⟩ := Outcome.bind_eq_ret.mp hdecode
      cases valid with
      | false => cases hdecode
      | true =>
          obtain ⟨fields, hfields, hdecode⟩ := Outcome.bind_eq_ret.mp hdecode
          obtain rfl := Outcome.ret.inj hdecode
          exact ⟨⟨hvalid, hfields, hle, hno⟩, rfl⟩

/-! ### Texts -/

/-- The texts among the members have no carriage return. -/
def TextsClean (ms : List (Member × Val)) : Prop := ∀ m ∈ ms, ∀ s, m.2 = .text s → CR ∉ s

theorem textsClean_of_decodes {list : List Bytes} {items : List Item} {ms : List (Member × Val)}
    (h : DecodesItems list items ms) (hlist : ∀ s ∈ list, CR ∉ s) : TextsClean ms := by
  induction h with
  | nil list => exact fun m hm => absurd hm List.not_mem_nil
  | @cons item items s list v ms hdecode _ ih =>
      obtain ⟨hs, hrest⟩ := List.forall_mem_cons.mp hlist
      refine List.forall_mem_cons.mpr ⟨?_, ih hrest⟩
      rintro t rfl
      cases hk : item.kind with
      | text =>
          rw [hk] at hdecode
          obtain rfl := Val.text.inj (Except.ok.inj hdecode)
          exact hs
      | number =>
          rw [hk] at hdecode
          obtain ⟨n, -, hn⟩ := map_eq_ok.mp hdecode
          cases hn
      | enum type =>
          rw [hk] at hdecode
          obtain ⟨n, -, hn⟩ := map_eq_ok.mp hdecode
          cases hn
      | flag =>
          rw [hk] at hdecode
          obtain ⟨n, -, hn⟩ := map_eq_ok.mp hdecode
          cases hn
      | char =>
          rw [hk] at hdecode
          cases hdecode

section

variable {c : CommandType} {rawSize : ℕ} {mem : Bytes} {d : Decoded}

theorem split_clean (h5 : 5 ≤ rawSize) (hno : CR ∉ mem.take rawSize) :
    ∀ s ∈ split (dataField mem 0 (rawSize - 5)) 0x2C, CR ∉ s := by
  intro s hs hCR
  have hdata : dataField mem 0 (rawSize - 5) = (mem.take rawSize).drop 5 := by
    rw [dataField, List.take_drop, Nat.add_zero, Nat.add_sub_cancel' h5]
  have hmem := subset_of_mem_split hs hCR
  rw [hdata] at hmem
  exact hno (List.mem_of_mem_drop hmem)

theorem unpackItems_textsClean {list : List Bytes} {i : ℕ} {items : List Item}
    {ms : List (Member × Val)} (hlist : ∀ s ∈ list, CR ∉ s)
    (h : (unpackItems list i items).run mem = .ret ms) : TextsClean ms :=
  textsClean_of_decodes (unpackItems_eq_ret h) fun s hs => hlist s (List.mem_of_mem_drop hs)

theorem TextsClean.append {a b : List (Member × Val)} (ha : TextsClean a) (hb : TextsClean b) :
    TextsClean (a ++ b) := fun m hm =>
  (List.mem_append.mp hm).elim (ha m) (hb m)

theorem TextsClean.cutSerialNumber {ms : List (Member × Val)} (h : TextsClean ms) :
    TextsClean (cutSerialNumber ms) := by
  unfold P18.cutSerialNumber
  split
  · next a n len k s ms =>
      obtain ⟨ha, hrest⟩ := List.forall_mem_cons.mp h
      obtain ⟨hn, hrest⟩ := List.forall_mem_cons.mp hrest
      obtain ⟨hs, hms⟩ := List.forall_mem_cons.mp hrest
      refine List.forall_mem_cons.mpr ⟨ha, List.forall_mem_cons.mpr ⟨hn,
        List.forall_mem_cons.mpr ⟨?_, hms⟩⟩⟩
      intro t ht hCR
      obtain rfl := Val.text.inj ht
      exact hs s rfl (List.mem_of_mem_take hCR)
  · exact h

section

variable (h5 : 5 ≤ rawSize) (hr : rawSize ≤ mem.length) (hno : CR ∉ mem.take rawSize)

include h5 hr hno

theorem unpackList_textsClean {l : ListLayout}
    (h : (unpackList c rawSize l).run mem = .ret d) : TextsClean d.fields := by
  rw [unpackList_eq, Probe.run_bind] at h
  obtain ⟨list, hlist, h⟩ := Outcome.bind_eq_ret.mp h
  rw [Probe.run_bind] at h
  obtain ⟨ms, hms, h⟩ := Outcome.bind_eq_ret.mp h
  obtain rfl := Outcome.ret.inj h
  obtain ⟨rfl, -⟩ := getList_eq_ret h5 hr hlist
  exact unpackItems_textsClean (split_clean h5 hno) hms

theorem unpackParallelRatedInformation_textsClean
    (h : (unpackParallelRatedInformation c rawSize).run mem = .ret d) : TextsClean d.fields := by
  rw [unpackParallelRatedInformation_eq, Probe.run_bind] at h
  obtain ⟨list, hlist, h⟩ := Outcome.bind_eq_ret.mp h
  rw [Probe.run_bind] at h
  obtain ⟨ms, hms, h⟩ := Outcome.bind_eq_ret.mp h
  obtain rfl := Outcome.ret.inj h
  obtain ⟨rfl, -⟩ := getList_eq_ret h5 hr hlist
  exact (unpackItems_textsClean (split_clean h5 hno) hms).cutSerialNumber

theorem unpackParallelGeneralStatus_textsClean
    (h : (unpackParallelGeneralStatus c rawSize).run mem = .ret d) : TextsClean d.fields := by
  rw [unpackParallelGeneralStatus_eq, Probe.run_bind] at h
  obtain ⟨list, hlist, h⟩ := Outcome.bind_eq_ret.mp h
  rw [Probe.run_bind] at h
  obtain ⟨ms, hms, h⟩ := Outcome.bind_eq_ret.mp h
  obtain ⟨rfl, -⟩ := getList_eq_ret h5 hr hlist
  have hclean := split_clean h5 hno
  split_ifs at h
  · rw [Probe.run_bind] at h
    obtain ⟨max_temp, hmax, h⟩ := Outcome.bind_eq_ret.mp h
    obtain rfl := Outcome.ret.inj h
    exact (unpackItems_textsClean hclean hms).append (unpackItems_textsClean hclean hmax)
  · obtain rfl := Outcome.ret.inj h
    exact unpackItems_textsClean hclean hms

end

/-- Whatever is stored as a text, but for the serial number, comes from the payload. -/
theorem textsClean_of_unpack (h5 : c.isSet = false → 5 ≤ rawSize) (hr : rawSize ≤ mem.length)
    (hno : CR ∉ mem.take rawSize) (hc : c ≠ .getSerialNumber)
    (h : (unpack c rawSize).run mem = .ret d) : TextsClean d.fields := by
  -- the others store numbers
  have hnone {ms : List (Member × Val)} (hms : ∀ m ∈ ms, m.2.asIs = false) : TextsClean ms := by
    intro m hm s hs
    have := hms m hm
    rw [hs] at this
    cases this
  cases c
  case getSerialNumber => exact absurd rfl hc
  case getCPUVersion | getRatedInformation | getGeneralStatus | getFaultsAndWarnings
      | getFlagsAndStatuses | getRatedDefaults =>
    exact unpackList_textsClean (h5 rfl) hr hno h
  case getParallelRatedInformation =>
    exact unpackParallelRatedInformation_textsClean (h5 rfl) hr hno h
  case getParallelGeneralStatus => exact unpackParallelGeneralStatus_textsClean (h5 rfl) hr hno h
  case getProtocolID =>
    obtain ⟨id, rfl⟩ := exists_protocolID h
    exact hnone (by simp [Val.asIs])
  case getCurrentTime =>
    obtain ⟨year, month, day, hour, minute, second, rfl⟩ := exists_currentTime h
    exact hnone (by simp [Val.asIs])
  case getTotalGenerated | getYearGenerated | getMonthGenerated | getDayGenerated =>
    obtain ⟨wh, rfl⟩ := exists_totalGenerated h
    exact hnone (by simp [Val.asIs])
  case getWorkingMode =>
    obtain ⟨mode, rfl⟩ := exists_workingMode h
    intro m hm s hs
    obtain rfl := List.mem_singleton.mp hm
    cases hs
  case getACChargeTimeBucket | getACSupplyTimeBucket =>
    obtain ⟨start_h, start_m, end_h, end_m, rfl⟩ := exists_timeBucket h
    exact hnone (by simp [Val.asIs])
  case getAllowedChargeCurrents | getAllowedACChargeCurrents =>
    have h : (unpackAllowedChargeCurrents _ rawSize).run mem = .ret d := h
    simp only [unpackAllowedChargeCurrents, Probe.run_bind, Outcome.bind_eq_ret] at h
    obtain ⟨list, -, ns, -, h⟩ := h
    obtain rfl := Outcome.ret.inj h
    exact fun m hm => absurd hm List.not_mem_nil
  -- the answers to set commands hold nothing
  all_goals
    obtain rfl := Outcome.ret.inj h
    exact fun m hm => absurd hm List.not_mem_nil

end

end P18

/-! ### Responses of a run -/

namespace Server

/-- In a run from an empty cache, a response that a call returns was decoded from an answer of the
device. -/
theorem received_of_returned {m : Machine} {s : Server} (hs : ∀ c, s.cache c = none)
    {calls : List Call} {call : Call} {r : P18.Response}
    (h : Returned m (calls.foldl (next m) s, call) r) : r.Received := by
  have hperformed {st : Server × Call} {r : P18.Response} (hr : Performed m st r) : r.Received :=
    (P18.received_of_execute hr.2).1
  rcases returned_cases h with ⟨cr, hcr, -, -, rfl, -⟩ | ⟨hlive, -, -⟩
  · obtain ⟨before, st, after, -, hsource, -⟩ := latest_run hs calls hcr
    exact hperformed hsource.performed
  · exact hperformed (performed_of_returned hlive h)

end Server

end InverterTools
