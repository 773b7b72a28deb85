import InverterTools.RoundTrip

/-! # What the decoder takes for a number

The items of a list are checked for their length only; `std::stoul` then takes blanks, a sign and
whatever follows the digits.  `numbers_read` says what is stored, and that it is the text of the
item exactly when the item consists of digits. -/

namespace InverterTools.P18

/-- The commands whose answers are split into a list. -/
def isList : CommandType → Bool
  | .getCPUVersion | .getRatedInformation | .getGeneralStatus | .getFaultsAndWarnings
  | .getFlagsAndStatuses | .getRatedDefaults | .getAllowedChargeCurrents
  | .getAllowedACChargeCurrents | .getParallelRatedInformation | .getParallelGeneralStatus
  | .getACChargeTimeBucket | .getACSupplyTimeBucket => true
  | _ => false

/-- The number in a stored value, if it is one. -/
def Val.number? : Val → Option ℤ
  | unsigned n | ushort n | ulong n => some n
  | enum v => some v.code
  | bool _ | char _ | text _ => none

/-- The values that were stored, in the order of the list. -/
def Decoded.vals : Decoded → List Val
  | members ms => ms.map Prod.snd
  | amps ns => ns.map .unsigned
  | nothing => []

/-- The texts the values are read from: the items of the list, or the halves of its first two. -/
def sourceTexts (c : CommandType) (list : List Bytes) : List Bytes :=
  match c with
  | .getACChargeTimeBucket | .getACSupplyTimeBucket =>
      (list.take 2).flatMap fun s => [s.take 2, (s.drop 2).take 2]
  | _ => list

/-- The texts of an answer in a buffer with the values that were stored. -/
def itemReadings (c : CommandType) (rawSize : ℕ) (mem : Bytes) (d : Decoded) : List (Bytes × Val) :=
  (sourceTexts c (split (dataField mem 0 (rawSize - 5)) 0x2C)).zip d.vals

/-- A value that was read with `std::stoul` and cast to its type. -/
def Val.ReadFrom (v : Val) (s : Bytes) : Prop :=
  match v with
  | unsigned m => ∃ n, stoul s = .ok n ∧ m = toUnsigned n
  | ushort m => ∃ n, stoul s = .ok n ∧ m = toUShort n
  | ulong m => ∃ n, stoul s = .ok n ∧ m = n
  | enum v => ∃ n, stoul s = .ok n ∧ v.code = toInt (toUnsigned n)
  | bool b => ∃ n, stoul s = .ok n ∧ b = decide (0 < toUnsigned n)
  | char _ | text _ => True

/-! ### One number -/

/-- A number that was read from a text is the text exactly when it consists of digits and was not
cut off. -/
theorem fixed_eq_iff {s : Bytes} {n b : ℕ} (h : stoul s = .ok n) (hb : b ≤ 2 ^ 64) (hb0 : 0 < b) :
    fixed s.length (n % b) = s ↔ AllDigits s ∧ numVal s < b := by
  constructor
  · intro heq
    have hdigits : AllDigits s := heq ▸ allDigits_zeroPad (allDigits_decimal _)
    have hval : numVal s = n % b := by
      have hfixed := numVal_zeroPad s.length (decimal (n % b))
      rwa [numVal_decimal, show zeroPad s.length (decimal (n % b)) = s from heq] at hfixed
    exact ⟨hdigits, hval ▸ Nat.mod_lt n hb0⟩
  · rintro ⟨hdigits, hlt⟩
    have hne : s ≠ [] := by
      rintro rfl
      cases h
    rw [stoul_allDigits hdigits hne (by omega)] at h
    obtain rfl := Except.ok.inj h
    rw [Nat.mod_eq_of_lt hlt, fixed_numVal hdigits hne]

theorem stoul_singleton {b : UInt8} {n : ℕ} (h : stoul [b] = .ok n) :
    isDigit b = true ∧ n = digitVal b := by
  have hb : isDigit b = true := by
    have hread := stoul_eq_ok.mp h
    unfold strtoul at hread
    cases hscan : scanInt [b] with
    | none => simp [hscan] at hread
    | some p =>
        obtain ⟨c, hc, hdigit⟩ := exists_isDigit_of_scanInt hscan
        rwa [List.mem_singleton.mp hc] at hdigit
  refine ⟨hb, ?_⟩
  have hdigits : AllDigits [b] := fun c hc => by rwa [List.mem_singleton.mp hc]
  have hlt := numVal_lt_pow hdigits
  rw [List.length_singleton] at hlt
  rw [stoul_allDigits hdigits (List.cons_ne_nil _ _) (by omega)] at h
  rw [← Except.ok.inj h]
  simp [numVal]

/-- A value that was read: it is its text exactly when that consists of digits. -/
def Faithful (v : Val) (s : Bytes) : Prop :=
  v.ReadFrom s ∧ ∀ z, v.number? = some z →
    (zeroPad s.length (intDecimal z) = s ↔ AllDigits s ∧ numVal s < 2 ^ 32)

theorem faithful_of_no_number {v : Val} {s : Bytes} (h : v.ReadFrom s) (hv : v.number? = none) :
    Faithful v s :=
  ⟨h, fun z hz => by simp [hv] at hz⟩

theorem faithful_unsigned {s : Bytes} {m : ℕ} (h : stou s = .ok m) : Faithful (.unsigned m) s := by
  obtain ⟨n, hn, rfl⟩ := map_eq_ok.mp h
  refine ⟨⟨n, hn, rfl⟩, fun z hz => ?_⟩
  obtain rfl := Option.some.inj hz
  rw [intDecimal_natCast]
  exact fixed_eq_iff hn (by norm_num) (by norm_num)

/-- Half an item of a time bucket. -/
theorem faithful_ushort {s : Bytes} {m : ℕ} (h : stouh s = .ok m) (hlen : s.length ≤ 4) :
    Faithful (.ushort m) s := by
  obtain ⟨n, hn, rfl⟩ := map_eq_ok.mp h
  refine ⟨⟨n, hn, rfl⟩, fun z hz => ?_⟩
  obtain rfl := Option.some.inj hz
  rw [intDecimal_natCast]
  refine (fixed_eq_iff hn (by norm_num) (by norm_num)).trans ?_
  refine and_congr_right fun hdigits => ?_
  have hlt := numVal_lt_pow hdigits
  have hle : 10 ^ s.length ≤ 10 ^ 4 := Nat.pow_le_pow_right (by norm_num) hlen
  omega

theorem faithful_enum {type : EnumType} {s : Bytes} {m : ℕ} (h : stou s = .ok m)
    (hlen : s.length ≤ 1) : Faithful (.enum (.cast type m)) s := by
  obtain ⟨n, hn, hm⟩ := map_eq_ok.mp h
  match s, hlen with
  | [], _ => cases hn
  | [b], _ =>
      obtain ⟨hb, rfl⟩ := stoul_singleton hn
      have hdigits : AllDigits [b] := fun c hc => by rwa [List.mem_singleton.mp hc]
      have hlt := digitVal_lt hb
      have hval : numVal [b] = digitVal b := by simp [numVal]
      have hmod : toUnsigned (digitVal b) = digitVal b := Nat.mod_eq_of_lt (by omega)
      rw [← hm]
      refine ⟨⟨_, hn, by rw [EnumVal.cast]⟩, fun z hz => iff_of_true ?_ ⟨hdigits, by omega⟩⟩
      rw [hmod, enum_cast (by omega), Val.number?] at hz
      rw [← Option.some.inj hz, intDecimal_natCast, ← hval]
      exact fixed_numVal hdigits (List.cons_ne_nil _ _)

theorem Kind.decode_faithful {k : Kind} {s : Bytes} {v : Val} (h : k.decode s = .ok v)
    (hlen : ∀ type, k = .enum type → s.length ≤ 1) : Faithful v s := by
  cases k with
  | number =>
      obtain ⟨m, hm, rfl⟩ := map_eq_ok.mp h
      exact faithful_unsigned hm
  | enum type =>
      obtain ⟨m, hm, rfl⟩ := map_eq_ok.mp h
      exact faithful_enum hm (hlen type rfl)
  | flag =>
      obtain ⟨m, hm, rfl⟩ := map_eq_ok.mp h
      obtain ⟨n, hn, rfl⟩ := map_eq_ok.mp hm
      exact faithful_of_no_number ⟨n, hn, rfl⟩ rfl
  | char =>
      obtain rfl := Except.ok.inj h
      exact faithful_of_no_number trivial rfl
  | text =>
      obtain rfl := Except.ok.inj h
      exact faithful_of_no_number trivial rfl

/-! ### Lists -/

/-- The values of some items at the head of a list. -/
inductive DecodesItems : List Bytes → List Item → List (Member × Val) → Prop
  | nil (list : List Bytes) : DecodesItems list [] []
  | cons {item : Item} {items : List Item} {s : Bytes} {list : List Bytes} {v : Val}
      {ms : List (Member × Val)} (h : item.kind.decode s = .ok v)
      (hs : DecodesItems list items ms) :
      DecodesItems (s :: list) (item :: items) ((item.name, v) :: ms)

theorem DecodesItems.append {list : List Bytes} {a b : List Item} {ms ns : List (Member × Val)}
    (h : DecodesItems list a ms) (h' : DecodesItems (list.drop a.length) b ns) :
    DecodesItems list (a ++ b) (ms ++ ns) := by
  induction h with
  | nil list => exact h'
  | cons h _ ih => exact .cons h (ih h')

theorem unpackItems_eq_ret {list : List Bytes} {mem : Bytes} :
    ∀ {i : ℕ} {items : List Item} {ms : List (Member × Val)},
      (unpackItems list i items).run mem = .ret ms → DecodesItems (list.drop i) items ms
  | i, [], ms, h => by
      obtain rfl := Outcome.ret.inj h
      exact .nil _
  | i, item :: items, ms, h => by
      rw [unpackItems, elementAt] at h
      cases hs : list[i]? with
      | none => simp [hs] at h
      | some s =>
          obtain ⟨hi, rfl⟩ := List.getElem?_eq_some_iff.mp hs
          simp only [hs, Probe.pure_eq, Probe.ret_bind, Probe.run_bind, Probe.run_lift] at h
          obtain ⟨v, hv, h⟩ := Outcome.bind_eq_ret.mp h
          obtain ⟨ns, hns, h⟩ := Outcome.bind_eq_ret.mp h
          obtain rfl := Outcome.ret.inj h
          rw [List.drop_eq_getElem_cons hi]
          exact .cons (Outcome.lift_eq_ret.mp hv) (unpackItems_eq_ret hns)

/-- The items of a list that passed the checks. -/
theorem DecodesItems.checked {c : CommandType} {list : List Bytes} {items : List Item}
    {ms : List (Member × Val)} (h : DecodesItems list items ms) {ls : List FieldLength} {i : ℕ}
    (hcheck : checkItems c i (items.map Item.length ++ ls) list = .ok ()) :
    ∀ p ∈ list.zip (ms.map Prod.snd), ∃ item ∈ items, p.1.length ≤ item.length.max ∧
      item.kind.decode p.1 = .ok p.2 := by
  induction h generalizing i with
  | nil list => simp
  | @cons item items s list v ms h _ ih =>
      rw [List.map_cons, List.cons_append, checkItems] at hcheck
      split_ifs at hcheck with hlen
      rw [List.map_cons, List.zip_cons_cons]
      refine List.forall_mem_cons.mpr ⟨⟨item, List.mem_cons_self, (of_decide_eq_true hlen).2, h⟩,
        fun p hp => ?_⟩
      obtain ⟨item', hitem, hp⟩ := ih hcheck p hp
      exact ⟨item', List.mem_cons_of_mem _ hitem, hp⟩

/-! ### Answers -/

theorem enum_length_le : ∀ l ∈ [cpuVersion, ratedInformation, generalStatus, faultsAndWarnings,
    flagsAndStatuses, ratedDefaults, parallelRatedInformation, parallelGeneralStatus],
    ∀ item ∈ l.items, ∀ type, item.kind = .enum type → item.length.max ≤ 1 := by
  intro l hl item hitem type htype
  have hall : ∀ l ∈ [cpuVersion, ratedInformation, generalStatus, faultsAndWarnings,
      flagsAndStatuses, ratedDefaults, parallelRatedInformation, parallelGeneralStatus],
      ∀ item ∈ l.items, (match item.kind with | .enum _ => true | _ => false) = true →
        item.length.max ≤ 1 := by
    decide
  exact hall l hl item hitem (by rw [htype])

theorem DecodesItems.faithful {c : CommandType} {list : List Bytes} {items : List Item}
    {ms : List (Member × Val)} (h : DecodesItems list items ms) {ls : List FieldLength}
    (hcheck : checkItems c 0 (items.map Item.length ++ ls) list = .ok ())
    (henum : ∀ item ∈ items, ∀ type, item.kind = .enum type → item.length.max ≤ 1) :
    ∀ p ∈ list.zip (ms.map Prod.snd), Faithful p.2 p.1 := by
  intro p hp
  obtain ⟨item, hitem, hlen, hdecode⟩ := h.checked hcheck p hp
  exact Kind.decode_faithful hdecode fun type htype => hlen.trans (henum item hitem type htype)

section

variable {c : CommandType} {rawSize : ℕ} {mem : Bytes} {d : Decoded}

theorem getList_eq_ret {ls : List FieldLength} {k : ℕ} {list : List Bytes} (h5 : 5 ≤ rawSize)
    (hr : rawSize ≤ mem.length) (h : (getList c rawSize ls k).run mem = .ret list) :
    list = split (dataField mem 0 (rawSize - 5)) 0x2C ∧ checkList c ls k list = .ok () := by
  rw [getList, Probe.run_bind, Probe.run_range (by omega), Outcome.ret_bind, Probe.run_bind,
    Probe.run_lift] at h
  obtain ⟨u, hu, hl⟩ := Outcome.bind_eq_ret.mp h
  obtain rfl := Outcome.ret.inj hl
  exact ⟨rfl, Outcome.lift_eq_ret.mp hu⟩

theorem checkItems_of_checkList {ls : List FieldLength} {k : ℕ} {list : List Bytes}
    (hls : ls ≠ []) (h : checkList c ls k list = .ok ()) : checkItems c 0 ls list = .ok () := by
  rw [checkList, if_neg hls] at h
  split_ifs at h
  exact h

theorem unpackList_faithful {l : ListLayout} (h5 : 5 ≤ rawSize) (hr : rawSize ≤ mem.length)
    (hne : l.items ≠ [])
    (henum : ∀ item ∈ l.items, ∀ type, item.kind = .enum type → item.length.max ≤ 1)
    (h : (unpackList c rawSize l).run mem = .ret d) :
    ∀ p ∈ (split (dataField mem 0 (rawSize - 5)) 0x2C).zip d.vals, Faithful p.2 p.1 := by
  rw [unpackList_eq, Probe.run_bind] at h
  obtain ⟨list, hlist, h⟩ := Outcome.bind_eq_ret.mp h
  rw [Probe.run_bind] at h
  obtain ⟨ms, hms, h⟩ := Outcome.bind_eq_ret.mp h
  obtain rfl := Outcome.ret.inj h
  obtain ⟨rfl, hcheck⟩ := getList_eq_ret h5 hr hlist
  have hitems := checkItems_of_checkList (by simpa using hne) hcheck
  rw [← List.append_nil (l.items.map Item.length)] at hitems
  exact (unpackItems_eq_ret hms).faithful hitems henum

theorem mem_zip_cutSerialNumber {list : List Bytes} {ms : List (Member × Val)} {p : Bytes × Val}
    (h : p ∈ list.zip ((cutSerialNumber ms).map Prod.snd)) :
    p ∈ list.zip (ms.map Prod.snd) ∨ ∃ s, p.2 = .text s := by
  unfold cutSerialNumber at h
  split at h
  · match list with
    | [] => simp at h
    | [s] =>
        left
        simpa using h
    | [s, t] =>
        left
        simpa using h
    | s :: t :: u :: list =>
        simp only [List.map_cons, List.zip_cons_cons, List.mem_cons] at h ⊢
        rcases h with h | h | h | h
        · exact .inl (.inl h)
        · exact .inl (.inr (.inl h))
        · exact .inr ⟨_, by rw [h]⟩
        · exact .inl (.inr (.inr (.inr h)))
  · exact .inl h

theorem unpackParallelRatedInformation_faithful (h5 : 5 ≤ rawSize) (hr : rawSize ≤ mem.length)
    (h : (unpackParallelRatedInformation c rawSize).run mem = .ret d) :
    ∀ p ∈ (split (dataField mem 0 (rawSize - 5)) 0x2C).zip d.vals, Faithful p.2 p.1 := by
  rw [unpackParallelRatedInformation_eq, Probe.run_bind] at h
  obtain ⟨list, hlist, h⟩ := Outcome.bind_eq_ret.mp h
  rw [Probe.run_bind] at h
  obtain ⟨ms, hms, h⟩ := Outcome.bind_eq_ret.mp h
  obtain rfl := Outcome.ret.inj h
  obtain ⟨rfl, hcheck⟩ := getList_eq_ret h5 hr hlist
  have hitems := checkItems_of_checkList (by decide) hcheck
  rw [← List.append_nil (parallelRatedInformation.items.map Item.length)] at hitems
  intro p hp
  rcases mem_zip_cutSerialNumber hp with hp | ⟨s, hs⟩
  · exact (unpackItems_eq_ret hms).faithful hitems (enum_length_le _ (by simp)) p hp
  · rw [hs]
    exact faithful_of_no_number trivial rfl

theorem unpackParallelGeneralStatus_faithful (h5 : 5 ≤ rawSize) (hr : rawSize ≤ mem.length)
    (h : (unpackParallelGeneralStatus c rawSize).run mem = .ret d) :
    ∀ p ∈ (split (dataField mem 0 (rawSize - 5)) 0x2C).zip d.vals, Faithful p.2 p.1 := by
  have henum := enum_length_le parallelGeneralStatus (by simp)
  rw [unpackParallelGeneralStatus_eq, Probe.run_bind] at h
  obtain ⟨list, hlist, h⟩ := Outcome.bind_eq_ret.mp h
  rw [Probe.run_bind] at h
  obtain ⟨ms, hms, h⟩ := Outcome.bind_eq_ret.mp h
  obtain ⟨rfl, hcheck⟩ := getList_eq_ret h5 hr hlist
  have hitems := checkItems_of_checkList (by decide) hcheck
  have hfirst := unpackItems_eq_ret hms
  split_ifs at h with hlen
  · rw [Probe.run_bind] at h
    obtain ⟨max_temp, hmax, h⟩ := Outcome.bind_eq_ret.mp h
    obtain rfl := Outcome.ret.inj h
    have hall : DecodesItems _ parallelGeneralStatus.items _ :=
      hfirst.append (unpackItems_eq_ret hmax)
    rw [← List.append_nil (parallelGeneralStatus.items.map Item.length)] at hitems
    exact hall.faithful hitems henum
  · obtain rfl := Outcome.ret.inj h
    have hitems' : checkItems c 0 ((parallelGeneralStatus.items.take 28).map Item.length ++
        (parallelGeneralStatus.items.drop 28).map Item.length) _ = .ok () := hitems
    exact hfirst.faithful hitems' fun item hitem => henum item (List.mem_of_mem_take hitem)

theorem mapM_faithful {list : List Bytes} {ns : List ℕ} (h : list.mapM stou = .ok ns) :
    ∀ p ∈ list.zip (ns.map Val.unsigned), Faithful p.2 p.1 := by
  induction list generalizing ns with
  | nil => simp
  | cons s list ih =>
      rw [List.mapM_cons] at h
      obtain ⟨n, hn, h⟩ := bind_eq_ok.mp h
      obtain ⟨rest, hrest, h⟩ := bind_eq_ok.mp h
      obtain rfl := pure_eq_ok.mp h
      rw [List.map_cons, List.zip_cons_cons]
      exact List.forall_mem_cons.mpr ⟨faithful_unsigned hn, ih hrest⟩

theorem unpackAllowedChargeCurrents_faithful (h5 : 5 ≤ rawSize) (hr : rawSize ≤ mem.length)
    (h : (unpackAllowedChargeCurrents c rawSize).run mem = .ret d) :
    ∀ p ∈ (split (dataField mem 0 (rawSize - 5)) 0x2C).zip d.vals, Faithful p.2 p.1 := by
  rw [unpackAllowedChargeCurrents, Probe.run_bind] at h
  obtain ⟨list, hlist, h⟩ := Outcome.bind_eq_ret.mp h
  rw [Probe.run_bind, Probe.run_lift] at h
  obtain ⟨amps, hamps, h⟩ := Outcome.bind_eq_ret.mp h
  obtain rfl := Outcome.ret.inj h
  obtain ⟨rfl, -⟩ := getList_eq_ret h5 hr hlist
  exact mapM_faithful (Outcome.lift_eq_ret.mp hamps)

theorem bucketPart_eq_ret {list : List Bytes} {i pos n : ℕ}
    (h : (bucketPart list i pos).run mem = .ret n) :
    ∃ s, list[i]? = some s ∧ Faithful (.ushort n) ((s.drop pos).take 2) := by
  rw [bucketPart, elementAt] at h
  cases hs : list[i]? with
  | none => simp [hs] at h
  | some s =>
      simp only [hs, Probe.pure_eq, Probe.ret_bind, Probe.run_bind, Probe.run_lift] at h
      obtain ⟨part, hpart, h⟩ := Outcome.bind_eq_ret.mp h
      have hpart := Outcome.lift_eq_ret.mp hpart
      unfold substr at hpart
      split_ifs at hpart
      obtain rfl := Except.ok.inj hpart
      have hlen : ((s.drop pos).take 2).length ≤ 4 := by
        rw [List.length_take]
        omega
      exact ⟨s, rfl, faithful_ushort (Outcome.lift_eq_ret.mp h) hlen⟩

theorem unpackACChargeTimeBucket_faithful (h5 : 5 ≤ rawSize) (hr : rawSize ≤ mem.length)
    (h : (unpackACChargeTimeBucket c rawSize).run mem = .ret d) :
    ∀ p ∈ (sourceTexts .getACChargeTimeBucket
      (split (dataField mem 0 (rawSize - 5)) 0x2C)).zip d.vals, Faithful p.2 p.1 := by
  rw [unpackACChargeTimeBucket, Probe.run_bind] at h
  obtain ⟨list, hlist, h⟩ := Outcome.bind_eq_ret.mp h
  rw [Probe.run_bind] at h
  obtain ⟨start_h, hstart_h, h⟩ := Outcome.bind_eq_ret.mp h
  rw [Probe.run_bind] at h
  obtain ⟨start_m, hstart_m, h⟩ := Outcome.bind_eq_ret.mp h
  rw [Probe.run_bind] at h
  obtain ⟨end_h, hend_h, h⟩ := Outcome.bind_eq_ret.mp h
  rw [Probe.run_bind] at h
  obtain ⟨end_m, hend_m, h⟩ := Outcome.bind_eq_ret.mp h
  obtain rfl := Outcome.ret.inj h
  obtain ⟨rfl, -⟩ := getList_eq_ret h5 hr hlist
  obtain ⟨s, hs, h1⟩ := bucketPart_eq_ret hstart_h
  obtain ⟨_, hs', h2⟩ := bucketPart_eq_ret hstart_m
  obtain ⟨t, ht, h3⟩ := bucketPart_eq_ret hend_h
  obtain ⟨_, ht', h4⟩ := bucketPart_eq_ret hend_m
  obtain rfl := Option.some.inj (hs.symm.trans hs')
  obtain rfl := Option.some.inj (ht.symm.trans ht')
  have htexts : sourceTexts .getACChargeTimeBucket (split (dataField mem 0 (rawSize - 5)) 0x2C) =
      [s.take 2, (s.drop 2).take 2, t.take 2, (t.drop 2).take 2] := by
    obtain ⟨hlt, -⟩ := List.getElem?_eq_some_iff.mp ht
    obtain ⟨a, b, rest, hitems⟩ := exists_cons_cons hlt
    rw [hitems] at hs ht ⊢
    obtain rfl := Option.some.inj hs
    obtain rfl := Option.some.inj ht
    rfl
  rw [htexts]
  simp only [Decoded.vals, List.map_cons, List.map_nil, List.zip_cons_cons, List.zip_nil_right,
    List.forall_mem_cons]
  exact ⟨h1, h2, h3, h4, by simp⟩

/-- **What is stored as a number.**  For every answer that is split into a list and decoded: each
stored value is what `std::stoul` makes of its text, cut to the width of its type, and a stored
number in a field as long as its text is that text exactly when the text consists of digits and its
number is below `2 ^ 32`. -/
theorem numbers_read (hc : isList c = true) (hm : mem.length = 256) (hr : rawSize ≤ 256)
    (hv : (validate c rawSize).run mem = .ret true) (hu : (unpack c rawSize).run mem = .ret d) :
    ∀ p ∈ itemReadings c rawSize mem d, p.2.ReadFrom p.1 ∧ ∀ z, p.2.number? = some z →
      (zeroPad p.1.length (intDecimal z) = p.1 ↔ AllDigits p.1 ∧ numVal p.1 < 2 ^ 32) := by
  have hget : c.isSet = false := by
    cases c <;> first | rfl | cases hc
  have h5 := five_le_of_validate hget hv
  have hr : rawSize ≤ mem.length := by omega
  show ∀ p ∈ (sourceTexts c (split (dataField mem 0 (rawSize - 5)) 0x2C)).zip d.vals,
    Faithful p.2 p.1
  cases c
  case getCPUVersion | getRatedInformation | getGeneralStatus | getFaultsAndWarnings
      | getFlagsAndStatuses | getRatedDefaults =>
    exact unpackList_faithful h5 hr (by decide) (enum_length_le _ (by simp)) hu
  case getAllowedChargeCurrents | getAllowedACChargeCurrents =>
    exact unpackAllowedChargeCurrents_faithful h5 hr hu
  case getParallelRatedInformation => exact unpackParallelRatedInformation_faithful h5 hr hu
  case getParallelGeneralStatus => exact unpackParallelGeneralStatus_faithful h5 hr hu
  case getACChargeTimeBucket | getACSupplyTimeBucket =>
    exact unpackACChargeTimeBucket_faithful h5 hr hu
  all_goals cases hc

end

/-- Two allowed currents, the second one with a letter. -/
theorem numbers_read_currents : (Val.unsigned 2).ReadFrom (ascii "02A") ∧
    (zeroPad 3 (intDecimal 2) = ascii "02A" ↔
      AllDigits (ascii "02A") ∧ numVal (ascii "02A") < 2 ^ 32) := by
  have hvalid : (validate .getAllowedChargeCurrents 12).run
      (bufferWith (ascii "^D010010,02A") 0) = .ret true := by
    decide
  have hdecoded : (unpack .getAllowedChargeCurrents 12).run
      (bufferWith (ascii "^D010010,02A") 0) = .ret (.amps [10, 2]) := by
    decide
  have h := numbers_read rfl (by decide +kernel) (by omega) hvalid hdecoded
    (ascii "02A", .unsigned 2) (by decide)
  exact ⟨h.1, h.2 2 rfl⟩

/-- The fault code `1A` is accepted and stored as 1. -/
theorem numbers_not_text : ¬ ∀ (c : CommandType) (rawSize : ℕ) (mem : Bytes) (d : Decoded),
    isList c = true → mem.length = 256 → rawSize ≤ 256 →
    (validate c rawSize).run mem = .ret true → (unpack c rawSize).run mem = .ret d →
    ∀ p ∈ itemReadings c rawSize mem d, ∀ z, p.2.number? = some z →
      zeroPad p.1.length (intDecimal z) = p.1 := fun h => by
  have hitem := h .getFaultsAndWarnings 39
    (bufferWith (ascii "^D0371A,0,0,0,0,0,0,0,0,0,0,0,0,0,0,0,0") 0)
    (.members ((.faultCode, .unsigned 1) ::
      (faultsAndWarnings.items.drop 1).map fun item => (item.name, .bool false)))
    rfl (by decide +kernel) (by omega) (by decide +kernel) (by decide +kernel)
    (ascii "1A", .unsigned 1) (by decide) 1 rfl
  exact absurd hitem (by decide)

end InverterTools.P18
