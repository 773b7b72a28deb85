import InverterTools.Readback
import InverterTools.RoundTrip
import InverterTools.Voltages

/-! # The numbers that were typed and the numbers that are sent

`validate_input` reads an integer with `std::stoul` and casts it before it checks the range;
`packArguments` sends the cast number (time buckets), reads the text a second time with
`std::stoi`, or copies it.  All of them agree for the integers that the cast leaves as they are:
`timeBucket_kept_iff`, `numbers_kept_iff`. -/

namespace InverterTools.P18

/-! ### The two conversions -/

theorem stoi_intValue {s : Bytes} {z : ℤ} :
    stoi s = .ok z ↔ intValue s = some z ∧ -2 ^ 31 ≤ z ∧ z < 2 ^ 31 := by
  rw [stoi_eq_ok, strtol_eq_ok_iff]
  constructor
  · rintro ⟨⟨hz, -, -⟩, h1, h2⟩
    exact ⟨hz, h1, h2⟩
  · rintro ⟨hz, h1, h2⟩
    exact ⟨⟨hz, by omega, by omega⟩, h1, h2⟩

/-- The unsigned number is the integer of the text modulo `2 ^ 64`. -/
theorem stoul_intValue {s : Bytes} {n : ℕ} (h : stoul s = .ok n) :
    ∃ z, intValue s = some z ∧ (n : ℤ) = z % 2 ^ 64 := by
  obtain ⟨z, hz, -, hn⟩ := strtoul_eq_ok_iff.mp (stoul_eq_ok.mp h)
  exact ⟨z, hz, hn⟩

theorem stouh_eq_ok {s : Bytes} {n : ℕ} (h : stouh s = .ok n) :
    ∃ k, stoul s = .ok k ∧ n = k % 2 ^ 16 := by
  obtain ⟨k, hk, rfl⟩ := map_eq_ok.mp h
  exact ⟨k, hk, rfl⟩

/-! ### Time buckets -/

theorem packInt_decimal {w n : ℕ} (h : n < 2 ^ 31) : packInt w (decimal n) = .ok (fixed w n) := by
  rw [packInt, stoi_decimal h]
  exact congrArg (fun s => Except.ok (zeroPad w s)) (intDecimal_natCast n)

theorem packArguments_bucket {m : Machine} {c : CommandType}
    (hc : c = .setACChargeTimeBucket ∨ c = .setACSupplyTimeBucket) {h1 m1 h2 m2 : ℕ}
    (hh1 : h1 ≤ 23) (hm1 : m1 ≤ 59) (hh2 : h2 ≤ 23) (hm2 : m2 ≤ 59) :
    packArguments m c [decimal h1, decimal m1, decimal h2, decimal m2] =
      .ok (fixed 2 h1 ++ fixed 2 m1 ++ ascii "," ++ fixed 2 h2 ++ fixed 2 m2) := by
  have hpack : ∀ n ≤ 59, packInt 2 (decimal n) = .ok (fixed 2 n) := fun n hn =>
    packInt_decimal (by omega)
  rcases hc with rfl | rfl <;>
  · simp only [packArguments, List.getD_cons_zero, List.getD_cons_succ, hpack h1 (by omega),
      hpack m1 hm1, hpack h2 (by omega), hpack m2 hm2]
    rfl

/-- The time bucket means what was typed: there are two texts with an hour part and a minute part
each, the integers that `std::stoul` reads from the parts are in range, and unpacking an answer with
the packed argument as its data gives these integers. -/
def BucketKept (m : Machine) (c g : CommandType) (start stop : Bytes) (args : List Bytes) : Prop :=
  ∃ th tm th' tm' : Bytes, split start 0x3A = [th, tm] ∧ split stop 0x3A = [th', tm'] ∧
    ∃ h1 m1 h2 m2 : ℕ, (stoul th = .ok h1 ∧ stoul tm = .ok m1 ∧ stoul th' = .ok h2 ∧
      stoul tm' = .ok m2) ∧ (h1 ≤ 23 ∧ m1 ≤ 59 ∧ h2 ≤ 23 ∧ m2 ≤ 59) ∧
      ∃ data, packArguments m c args = .ok data ∧ ∀ rest : Bytes,
        (unpack g (data.length + 5)).run (dataPayload data ++ rest) =
          .ret (.members [(.startH, .ushort h1), (.startM, .ushort m1), (.endH, .ushort h2),
            (.endM, .ushort m2)])

theorem unpack_packed_bucket {g : CommandType}
    (hg : g = .getACChargeTimeBucket ∨ g = .getACSupplyTimeBucket) {h1 m1 h2 m2 : ℕ}
    (hh1 : h1 ≤ 23) (hm1 : m1 ≤ 59) (hh2 : h2 ≤ 23) (hm2 : m2 ≤ 59) {data : Bytes}
    (hdata : data = fixed 2 h1 ++ fixed 2 m1 ++ ascii "," ++ fixed 2 h2 ++ fixed 2 m2)
    (rest : Bytes) : (unpack g (data.length + 5)).run (dataPayload data ++ rest) =
      .ret (.members [(.startH, .ushort h1), (.startM, .ushort m1), (.endH, .ushort h2),
        (.endM, .ushort m2)]) := by
  have hlen : data.length = 9 := by
    have htwo : ∀ n ≤ 59, (fixed 2 n).length = 2 := fun n hn =>
      (fixed_spec (by norm_num) (by omega)).1
    simp only [hdata, List.length_append, htwo h1 (by omega), htwo m1 hm1, htwo h2 (by omega),
      htwo m2 hm2]
    rfl
  have henc : Encodes .getACChargeTimeBucket data (.members [(.startH, .ushort h1),
      (.startM, .ushort m1), (.endH, .ushort h2), (.endM, .ushort m2)]) := by
    refine ⟨h1, m1, h2, m2, by omega, by omega, by omega, by omega, ?_, rfl⟩
    rw [hdata]
    simp only [joined, List.intercalate_cons_cons, List.intercalate_singleton, List.append_assoc]
  rcases hg with rfl | rfl <;> exact unpackACChargeTimeBucket_run henc (by omega)

/-- **Time buckets mean what was typed** exactly when no part reads as 65536 or more, which the
cast to `unsigned short` would change before the check. -/
theorem timeBucket_kept_iff (m : Machine) (command start stop : Bytes) {c g : CommandType}
    (hc : c = .setACChargeTimeBucket ∨ c = .setACSupplyTimeBucket)
    (hg : g = .getACChargeTimeBucket ∨ g = .getACSupplyTimeBucket) {args : List Bytes}
    (hv : validateInput m (getArgs [start, stop]) command = .ok (c, args)) :
    BucketKept m c g start stop args ↔
      ∀ part ∈ split start 0x3A ++ split stop 0x3A, ∀ n, stoul part = .ok n → n < 2 ^ 16 := by
  obtain ⟨-, given, hgiven, hvalid⟩ := validateInput_eq_ok.mp hv
  have hbucket : bucketArgs start stop = .ok args := by
    rcases hc with rfl | rfl <;>
    · obtain rfl := (getArgs_length hgiven).2
      exact hvalid
  obtain ⟨th, tm, th', tm', hstart, hstop, h1, m1, h2, m2, ⟨eh1, em1, eh2, em2⟩,
    ⟨hh1, hm1, hh2, hm2⟩, rfl⟩ := bucketArgs_parts hbucket
  obtain ⟨k1, ek1, rfl⟩ := stouh_eq_ok eh1
  obtain ⟨k2, ek2, rfl⟩ := stouh_eq_ok em1
  obtain ⟨k3, ek3, rfl⟩ := stouh_eq_ok eh2
  obtain ⟨k4, ek4, rfl⟩ := stouh_eq_ok em2
  have hsmall : (∀ part ∈ split start 0x3A ++ split stop 0x3A, ∀ n, stoul part = .ok n →
      n < 2 ^ 16) ↔ k1 < 2 ^ 16 ∧ k2 < 2 ^ 16 ∧ k3 < 2 ^ 16 ∧ k4 < 2 ^ 16 := by
    rw [hstart, hstop]
    simp only [List.cons_append, List.nil_append, List.forall_mem_cons, List.not_mem_nil,
      IsEmpty.forall_iff, implies_true, and_true, ek1, ek2, ek3, ek4, Except.ok.injEq, forall_eq']
  rw [hsmall]
  constructor
  · -- the integers that were read are in range, so they are below `2 ^ 16`
    rintro ⟨uh, um, uh', um', hstart', hstop', n1, n2, n3, n4, ⟨e1, e2, e3, e4⟩,
      ⟨b1, b2, b3, b4⟩, -⟩
    obtain ⟨rfl, rfl, -⟩ : th = uh ∧ tm = um ∧ True := by simpa [hstart] using hstart'
    obtain ⟨rfl, rfl, -⟩ : th' = uh' ∧ tm' = um' ∧ True := by simpa [hstop] using hstop'
    obtain rfl := Except.ok.inj (ek1.symm.trans e1)
    obtain rfl := Except.ok.inj (ek2.symm.trans e2)
    obtain rfl := Except.ok.inj (ek3.symm.trans e3)
    obtain rfl := Except.ok.inj (ek4.symm.trans e4)
    omega
  · rintro ⟨b1, b2, b3, b4⟩
    have hk1 := Nat.mod_eq_of_lt b1
    have hk2 := Nat.mod_eq_of_lt b2
    have hk3 := Nat.mod_eq_of_lt b3
    have hk4 := Nat.mod_eq_of_lt b4
    simp only [hk1, hk2, hk3, hk4] at hh1 hm1 hh2 hm2 ⊢
    exact ⟨th, tm, th', tm', hstart, hstop, k1, k2, k3, k4, ⟨ek1, ek2, ek3, ek4⟩,
      ⟨hh1, hm1, hh2, hm2⟩, _, packArguments_bucket hc hh1 hm1 hh2 hm2,
      unpack_packed_bucket hg hh1 hm1 hh2 hm2 rfl⟩

/-- `set-ac-charge-time 1:05 23:59`. -/
theorem timeBucket_kept_charge_time :
    BucketKept x86 .setACChargeTimeBucket .getACChargeTimeBucket (ascii "1:05") (ascii "23:59")
        [ascii "1", ascii "5", ascii "23", ascii "59"] ↔
      ∀ part ∈ split (ascii "1:05") 0x3A ++ split (ascii "23:59") 0x3A, ∀ n,
        stoul part = .ok n → n < 2 ^ 16 :=
  timeBucket_kept_iff x86 (ascii "set-ac-charge-time") (ascii "1:05") (ascii "23:59") (.inl rfl)
    (.inl rfl) (by decide)

/-- `set-ac-charge-time 65537:00 2:00` is accepted, as 1:00. -/
theorem timeBucket_not_kept : ¬ ∀ (m : Machine) (command start stop : Bytes) (args : List Bytes),
    validateInput m (getArgs [start, stop]) command = .ok (.setACChargeTimeBucket, args) →
      BucketKept m .setACChargeTimeBucket .getACChargeTimeBucket start stop args := by
  intro h
  have hkept := h x86 (ascii "set-ac-charge-time") (ascii "65537:00") (ascii "2:00")
    [ascii "1", ascii "0", ascii "2", ascii "0"] (by decide)
  obtain ⟨th, tm, -, -, hstart, -, h1, -, -, -, ⟨eh1, -⟩, ⟨hh1, -⟩, -⟩ := hkept
  have hsplit : split (ascii "65537:00") 0x3A = [ascii "65537", ascii "00"] := by decide
  obtain ⟨rfl, -⟩ := List.cons.inj (hsplit.symm.trans hstart)
  have hread : stoul (ascii "65537") = .ok 65537 := by decide
  obtain rfl := Except.ok.inj (hread.symm.trans eh1)
  omega

/-! ### The integers of a request -/

/-- The parts of a date, with the days of the month. -/
def dateArgs (y m d : Bytes) : List (Bytes × Set ℤ) :=
  [(y, Set.Icc 2000 2099), (m, Set.Icc 1 12),
    (d, {day | isDateValid ((intValue y).getD 0) ((intValue m).getD 0) day = true})]

/-- The texts that `validate_input` takes for integers, with the integers it allows. -/
def intArgs (c : CommandType) (given : List Bytes) : List (Bytes × Set ℤ) :=
  let arg := fun i => given.getD i []
  match c with
  | .getYearGenerated => [(arg 0, Set.Icc 2000 2099)]
  | .getMonthGenerated => [(arg 0, Set.Icc 2000 2099), (arg 1, Set.Icc 1 12)]
  | .getDayGenerated => dateArgs (arg 0) (arg 1) (arg 2)
  | .getParallelRatedInformation | .getParallelGeneralStatus => [(arg 0, Set.Icc 0 9)]
  | .setBatteryMaxChargeCurrent | .setBatteryMaxACChargeCurrent =>
      [(arg 0, Set.Icc 0 6), (arg 1, Set.Icc 0 999)]
  | .setACOutputVoltage => [(arg 0, {z | ∃ v ∈ acOutputVoltages, z = (v : ℤ)})]
  | .setChargeSourcePriority | .setOutputMode => [(arg 0, Set.Icc 0 6)]
  | .setDateTime => dateArgs (arg 0) (arg 1) (arg 2) ++
      [(arg 3, Set.Icc 0 23), (arg 4, Set.Icc 0 59), (arg 5, Set.Icc 0 59)]
  | .setACChargeTimeBucket | .setACSupplyTimeBucket =>
      let start := split (arg 0) 0x3A
      let stop := split (arg 1) 0x3A
      [(start.getD 0 [], Set.Icc 0 23), (start.getD 1 [], Set.Icc 0 59),
        (stop.getD 0 [], Set.Icc 0 23), (stop.getD 1 [], Set.Icc 0 59)]
  | _ => []

/-- The integer of a parameter. -/
def Param.number : Param → Option ℤ
  | .int z => some z
  | .text _ => none

/-- The same integers as they stand in an argument field; a machine id is the number the text before
the comma begins with. -/
def encodedInts (c : CommandType) (fields : Bytes) : List ℤ :=
  match c with
  | .setBatteryMaxChargeCurrent | .setBatteryMaxACChargeCurrent =>
      [(intValue (fields.take (fields.length - 4))).getD 0,
        fieldInt (fields.drop (fields.length - 3))]
  | .setChargeSourcePriority | .setOutputMode =>
      [(intValue (fields.take (fields.length - 2))).getD 0]
  | .getYearGenerated | .getMonthGenerated | .getDayGenerated | .getParallelRatedInformation
  | .getParallelGeneralStatus | .setACOutputVoltage | .setDateTime | .setACChargeTimeBucket
  | .setACSupplyTimeBucket => (readFields c fields).filterMap Param.number
  | _ => []

/-- The width of the type an integer is cast to before it is checked. -/
def castWidth : CommandType → ℕ
  | .setACChargeTimeBucket | .setACSupplyTimeBucket => 16
  | _ => 32

/-- The integer is the one that the text denotes, and it is allowed. -/
def Allowed (a : Bytes × Set ℤ) (z : ℤ) : Prop := intValue a.1 = some z ∧ z ∈ a.2

/-- Nothing is thrown, and the integers in the argument field are those that the texts denote, and
in range. -/
def NumbersKept (m : Machine) (c : CommandType) (given args : List Bytes) : Prop :=
  ∃ fields, packArguments m c args = .ok fields ∧
    List.Forall₂ Allowed (intArgs c given) (encodedInts c fields)

/-- The cast leaves the integers as they are. -/
def CastKeeps (c : CommandType) (given : List Bytes) : Prop :=
  ∀ a ∈ intArgs c given, ∀ z, intValue a.1 = some z → 0 ≤ z ∧ z < 2 ^ castWidth c

theorem isDateValid_day {y m d : ℤ} (h : isDateValid y m d = true) : 1 ≤ d ∧ d ≤ 31 := by
  unfold isDateValid at h
  split_ifs at h
  omega

theorem intArgs_subset {c : CommandType} {given : List Bytes} :
    ∀ a ∈ intArgs c given, a.2 ⊆ Set.Icc 0 2099 := by
  have hday (y m : ℤ) : {day | isDateValid y m day = true} ⊆ Set.Icc 0 2099 := fun z hz => by
    have := isDateValid_day hz
    exact ⟨by omega, by omega⟩
  have hvolt : {z | ∃ v ∈ acOutputVoltages, z = (v : ℤ)} ⊆ Set.Icc 0 2099 := by
    rintro z ⟨v, hv, rfl⟩
    have : v ≤ 240 := (show ∀ v ∈ acOutputVoltages, v ≤ 240 by decide) v hv
    exact ⟨by omega, by omega⟩
  cases c <;> simp (disch := norm_num) only [intArgs, dateArgs, List.cons_append, List.nil_append,
    List.forall_mem_cons, List.not_mem_nil, false_imp_iff, implies_true, Set.Icc_subset_Icc, hday,
    hvolt, and_self]

/-- The cast keeps every allowed integer. -/
theorem castKeeps_of_kept {m : Machine} {c : CommandType} {given args : List Bytes}
    (h : NumbersKept m c given args) : CastKeeps c given := by
  obtain ⟨fields, -, hall⟩ := h
  have hallowed : ∀ a ∈ intArgs c given, ∃ z, Allowed a z := by
    have h' := hall.imp (S := fun a _ => (∃ z, Allowed a z) ∧ True) fun a z hz => ⟨⟨z, hz⟩, trivial⟩
    exact ((List.forall₂_and_left _ _).mp h').1
  intro a ha z hz
  obtain ⟨z', hz', hmem⟩ := hallowed a ha
  obtain rfl := Option.some.inj (hz.symm.trans hz')
  obtain ⟨h0, hle⟩ := intArgs_subset a ha hmem
  have hwidth : (2 : ℤ) ^ 16 ≤ 2 ^ castWidth c :=
    pow_le_pow_right₀ (by norm_num) (by cases c <;> decide)
  omega

/-! ### Texts that are read twice -/

theorem packInt_ok {w : ℕ} {s : Bytes} {z : ℤ} (h : stoi s = .ok z) :
    packInt w s = .ok (fixedInt w z) := by
  rw [packInt, h]
  rfl

theorem packDatePart_ok {i : ℕ} {s : Bytes} {z : ℤ} (h : stoi s = .ok z) :
    ∃ f, packDatePart i s = .ok f := by
  rw [packDatePart, h]
  exact ⟨_, rfl⟩

/-- An argument that `std::stoi` reads as an allowed integer. -/
def ReadAllowed (a : Bytes × Set ℤ) (s : Bytes) : Prop := ∃ z, stoi s = .ok z ∧ Allowed a z

theorem readAllowed_of_stoi {s : Bytes} {S : Set ℤ} {z : ℤ} (h : stoi s = .ok z) (hz : z ∈ S) :
    ReadAllowed (s, S) s :=
  ⟨z, h, (stoi_intValue.mp h).1, hz⟩

/-- Where the arguments are read back one by one. -/
theorem kept_of_read {m : Machine} {c : CommandType} {given args : List Bytes} {fields : Bytes}
    (hp : packArguments m c args = .ok fields)
    (henc : encodedInts c fields = (readFields c fields).filterMap Param.number)
    (hread : readFields c fields = args.map intParam)
    (hall : List.Forall₂ ReadAllowed (intArgs c given) args) : NumbersKept m c given args := by
  refine ⟨fields, hp, ?_⟩
  have hnumbers : encodedInts c fields = args.map fun s => (stoi s).toOption.getD 0 := by
    rw [henc, hread, List.filterMap_map]
    exact congrFun (List.filterMap_eq_map) args
  rw [hnumbers, List.forall₂_map_right_iff]
  refine hall.imp fun a s hs => ?_
  obtain ⟨z, hz, hallowed⟩ := hs
  rwa [hz]

section

variable {m : Machine} {args : List Bytes}

theorem date_read {y mo d : Bytes} {u : Unit}
    (h : validateDateArgs y (some mo) (some d) = .ok u) :
    (∃ zy, stoi y = .ok zy) ∧ (∃ zm, stoi mo = .ok zm) ∧ (∃ zd, stoi d = .ok zd) ∧
      List.Forall₂ ReadAllowed (dateArgs y mo d) [y, mo, d] := by
  simp only [validateDateArgs, bind_eq_ok, check_eq_ok, decide_eq_true_eq] at h
  obtain ⟨-, -, zy, hy, -, hyear, zm, hm, zd, hd, hvalid⟩ := h
  obtain ⟨hm, hm1, hm12⟩ := twoDigits_eq_ok hm
  obtain ⟨hd, hd1, -⟩ := twoDigits_eq_ok hd
  rw [if_pos (by omega), check_eq_ok] at hvalid
  have hday : isDateValid ((intValue y).getD 0) ((intValue mo).getD 0) zd = true := by
    rw [(stoi_intValue.mp hy).1, (stoi_intValue.mp hm).1]
    exact hvalid
  exact ⟨⟨zy, hy⟩, ⟨zm, hm⟩, ⟨zd, hd⟩, .cons (readAllowed_of_stoi hy hyear)
    (.cons (readAllowed_of_stoi hm ⟨hm1, hm12⟩) (.cons (readAllowed_of_stoi hd hday) .nil))⟩

theorem clock_read {s : Bytes} {hi : ℕ} {err : String} {u : Unit}
    (h : validateClockArg s hi err = .ok u) :
    (∃ z, stoi s = .ok z) ∧ ReadAllowed (s, Set.Icc 0 (hi : ℤ)) s := by
  obtain ⟨n, hn, -, hle⟩ := validateClockArg_eq_ok h
  exact ⟨⟨n, hn⟩, readAllowed_of_stoi hn ⟨by omega, by omega⟩⟩

theorem getYearGenerated_kept {y : Bytes} (hv : validateArgs m .getYearGenerated [y] = .ok args) :
    NumbersKept m .getYearGenerated [y] args := by
  have hread := fun f (hp : packArguments m .getYearGenerated args = .ok f) =>
    getYearGenerated_read hv hp
  obtain ⟨hdate, rfl⟩ := getYearGenerated_accepted hv
  obtain ⟨-, ⟨z, hz, hrange⟩, -⟩ := validateDateArgs_eq_ok hdate
  exact kept_of_read rfl rfl (hread _ rfl) (.cons (readAllowed_of_stoi hz hrange) .nil)

theorem getMonthGenerated_kept {y mo : Bytes}
    (hv : validateArgs m .getMonthGenerated [y, mo] = .ok args) :
    NumbersKept m .getMonthGenerated [y, mo] args := by
  have hread := fun f (hp : packArguments m .getMonthGenerated args = .ok f) =>
    getMonthGenerated_read hv hp
  obtain ⟨hdate, rfl⟩ := getMonthGenerated_accepted hv
  obtain ⟨-, ⟨zy, hy, hyear⟩, ⟨zm, hm⟩, -⟩ := validateDateArgs_eq_ok hdate
  obtain ⟨hm, hmonth⟩ := twoDigits_eq_ok hm
  have hp : packArguments m .getMonthGenerated [y, mo] = .ok (y ++ fixedInt 2 zm) := by
    simp only [packArguments, List.getD_cons_zero, List.getD_cons_succ, packInt_ok hm]
    rfl
  exact kept_of_read hp rfl (hread _ hp)
    (.cons (readAllowed_of_stoi hy hyear) (.cons (readAllowed_of_stoi hm hmonth) .nil))

theorem getDayGenerated_kept {y mo d : Bytes}
    (hv : validateArgs m .getDayGenerated [y, mo, d] = .ok args) :
    NumbersKept m .getDayGenerated [y, mo, d] args := by
  have hread := fun f (hp : packArguments m .getDayGenerated args = .ok f) =>
    getDayGenerated_read hv hp
  obtain ⟨hdate, rfl⟩ := getDayGenerated_accepted hv
  obtain ⟨-, ⟨zm, hm⟩, ⟨zd, hd⟩, hall⟩ := date_read hdate
  have hp : packArguments m .getDayGenerated [y, mo, d] =
      .ok (y ++ fixedInt 2 zm ++ fixedInt 2 zd) := by
    simp only [packArguments, List.getD_cons_zero, List.getD_cons_succ, packInt_ok hm,
      packInt_ok hd]
    rfl
  exact kept_of_read hp rfl (hread _ hp) hall

theorem setDateTime_kept {y mo d h mi s : Bytes}
    (hv : validateArgs m .setDateTime [y, mo, d, h, mi, s] = .ok args) :
    NumbersKept m .setDateTime [y, mo, d, h, mi, s] args := by
  have hread := fun f (hp : packArguments m .setDateTime args = .ok f) => setDateTime_read hv hp
  obtain ⟨hdate, hh, hmi, hs, rfl⟩ := setDateTime_accepted hv
  obtain ⟨⟨zy, hy⟩, ⟨zm, hm⟩, ⟨zd, hd⟩, hdates⟩ := date_read hdate
  obtain ⟨⟨zh, hzh⟩, hhour⟩ := clock_read hh
  obtain ⟨⟨zmi, hzmi⟩, hminute⟩ := clock_read hmi
  obtain ⟨⟨zs, hzs⟩, hsecond⟩ := clock_read hs
  obtain ⟨f1, h1⟩ := packDatePart_ok (i := 0) hy
  obtain ⟨f2, h2⟩ := packDatePart_ok (i := 1) hm
  obtain ⟨f3, h3⟩ := packDatePart_ok (i := 2) hd
  obtain ⟨f4, h4⟩ := packDatePart_ok (i := 3) hzh
  obtain ⟨f5, h5⟩ := packDatePart_ok (i := 4) hzmi
  obtain ⟨f6, h6⟩ := packDatePart_ok (i := 5) hzs
  have hp : packArguments m .setDateTime [y, mo, d, h, mi, s] =
      .ok (f1 ++ f2 ++ f3 ++ f4 ++ f5 ++ f6) :=
    setDateTime_packed.mpr ⟨f1, f2, f3, f4, f5, f6, h1, h2, h3, h4, h5, h6, rfl⟩
  exact kept_of_read hp rfl (hread _ hp)
    (List.rel_append hdates (.cons hhour (.cons hminute (.cons hsecond .nil))))

theorem getParallel_kept {c : CommandType}
    (hc : c = .getParallelRatedInformation ∨ c = .getParallelGeneralStatus) {a : Bytes}
    (hv : validateArgs m c [a] = .ok args) : NumbersKept m c [a] args := by
  have hread := fun f (hp : packArguments m c args = .ok f) => getParallel_read hc hv hp
  obtain ⟨hnum, hlen, rfl⟩ := getParallel_accepted hc hv
  obtain ⟨hz, hlt⟩ := stoi_of_isNumeric hnum hlen (by norm_num)
  have hp : packArguments m c [a] = .ok (intDecimal (numVal a)) := by
    rcases hc with rfl | rfl <;>
    · simp only [packArguments, List.getD_cons_zero, hz]
      rfl
  have hall : ReadAllowed (a, Set.Icc 0 9) a := readAllowed_of_stoi hz ⟨by omega, by omega⟩
  rcases hc with rfl | rfl <;> exact kept_of_read hp rfl (hread _ hp) (.cons hall .nil)

/-- A text whose integer survives the cast to `unsigned`: the cast number is the integer. -/
theorem intValue_of_stou {s : Bytes} {n : ℕ} (h : stou s = .ok n)
    (hkeep : ∀ z, intValue s = some z → 0 ≤ z ∧ z < 2 ^ 32) : intValue s = some (n : ℤ) := by
  obtain ⟨k, hk, rfl⟩ := map_eq_ok.mp h
  obtain ⟨z, hz, hkz⟩ := stoul_intValue hk
  have := hkeep z hz
  rw [hz, toUnsigned, Option.some.injEq]
  omega

theorem setBatteryMaxCurrent_kept {c : CommandType}
    (hc : c = .setBatteryMaxChargeCurrent ∨ c = .setBatteryMaxACChargeCurrent) {a b : Bytes}
    (hv : validateArgs m c [a, b] = .ok args) (hkeep : CastKeeps c [a, b]) :
    NumbersKept m c [a, b] args := by
  obtain ⟨id, amps, hid, hamps, hid6, hamps999, rfl⟩ := setBatteryMaxCurrent_accepted hc hv
  have hkeep' : (∀ z, intValue a = some z → 0 ≤ z ∧ z < 2 ^ 32) ∧
      ∀ z, intValue b = some z → 0 ≤ z ∧ z < 2 ^ 32 := by
    rcases hc with rfl | rfl <;>
    · have h := List.forall_mem_cons.mp hkeep
      exact ⟨h.1, (List.forall_mem_cons.mp h.2).1⟩
  have hida := intValue_of_stou hid hkeep'.1
  have hampsb := intValue_of_stou hamps hkeep'.2
  have hstoi : stoi b = .ok (amps : ℤ) := stoi_intValue.mpr ⟨hampsb, by omega, by omega⟩
  have hp : packArguments m c [a, b] = .ok (a ++ ascii "," ++ fixedInt 3 amps) := by
    rcases hc with rfl | rfl <;>
    · simp only [packArguments, List.getD_cons_zero, List.getD_cons_succ, packInt_ok hstoi]
      rfl
  have hmatch : (Field.num 3 999).Matches (fixedInt 3 amps) :=
    packInt_matches (by norm_num) hstoi (packInt_ok hstoi) (by omega) (by omega)
      (by exact_mod_cast hamps999)
  have hlen : (fixedInt 3 amps).length = 3 := hmatch.1
  obtain ⟨hfirst, hlast⟩ := id_comma_read (a := a) hlen (show 4 = 3 + 1 from rfl)
  have henc : encodedInts c (a ++ ascii "," ++ fixedInt 3 amps) = [(id : ℤ), (amps : ℤ)] := by
    rcases hc with rfl | rfl <;> simp only [encodedInts] <;>
      rw [hfirst, hlast, hida, fixedInt, fieldInt_zeroPad, Option.getD_some]
  refine ⟨_, hp, ?_⟩
  rw [henc]
  have hid' : Allowed (a, Set.Icc 0 6) id := ⟨hida, by omega, by exact_mod_cast hid6⟩
  have hamps' : Allowed (b, Set.Icc 0 999) amps := ⟨hampsb, by omega, by exact_mod_cast hamps999⟩
  rcases hc with rfl | rfl <;> exact .cons hid' (.cons hamps' .nil)

theorem id_index_kept {c : CommandType} (hc : c = .setChargeSourcePriority ∨ c = .setOutputMode)
    {a b index : Bytes} {id : ℕ} {allowed : List String} {err : String} (hid : stou a = .ok id)
    (hle : id ≤ 6) (hindex : chooseIndex allowed b err = .ok index) (hlen : allowed.length ≤ 10)
    (hkeep : CastKeeps c [a, b]) : NumbersKept m c [a, b] [a, index] := by
  have hkeep' : ∀ z, intValue a = some z → 0 ≤ z ∧ z < 2 ^ 32 := by
    rcases hc with rfl | rfl <;> exact (List.forall_mem_cons.mp hkeep).1
  have hida := intValue_of_stou hid hkeep'
  have hmatch : (Field.num 1 9).Matches index :=
    chooseIndex_matches hindex (by omega) (by norm_num)
  have hlen1 : index.length = 1 := hmatch.1
  have hp : packArguments m c [a, index] = .ok (a ++ ascii "," ++ index) := by
    rcases hc with rfl | rfl <;> rfl
  have henc : encodedInts c (a ++ ascii "," ++ index) = [(id : ℤ)] := by
    rcases hc with rfl | rfl <;> simp only [encodedInts] <;>
      rw [(id_comma_read (a := a) hlen1 (show 2 = 1 + 1 from rfl)).1, hida, Option.getD_some]
  refine ⟨_, hp, ?_⟩
  rw [henc]
  have hid' : Allowed (a, Set.Icc 0 6) id := ⟨hida, by omega, by exact_mod_cast hle⟩
  rcases hc with rfl | rfl <;> exact .cons hid' .nil

theorem setChargeSourcePriority_kept {a b : Bytes}
    (hv : validateArgs m .setChargeSourcePriority [a, b] = .ok args)
    (hkeep : CastKeeps .setChargeSourcePriority [a, b]) :
    NumbersKept m .setChargeSourcePriority [a, b] args := by
  obtain ⟨id, index, hid, hle, hindex, rfl⟩ := setChargeSourcePriority_accepted hv
  exact id_index_kept (.inl rfl) hid hle hindex (by decide) hkeep

theorem setOutputMode_kept {a b : Bytes} (hv : validateArgs m .setOutputMode [a, b] = .ok args)
    (hkeep : CastKeeps .setOutputMode [a, b]) : NumbersKept m .setOutputMode [a, b] args := by
  obtain ⟨id, index, hid, hle, hindex, rfl⟩ := setOutputMode_accepted hv
  exact id_index_kept (.inr rfl) hid hle hindex (by decide) hkeep

theorem setACOutputVoltage_kept {a : Bytes} (hv : validateArgs m .setACOutputVoltage [a] = .ok args)
    (hkeep : CastKeeps .setACOutputVoltage [a]) : NumbersKept m .setACOutputVoltage [a] args := by
  have hread := fun f (hp : packArguments m .setACOutputVoltage args = .ok f) =>
    setACOutputVoltage_read hv hp
  obtain ⟨n, hmem, hn, rfl⟩ := setACOutputVoltage_accepted hv
  have hle : n ≤ 240 := (show ∀ v ∈ acOutputVoltages, v ≤ 240 by decide) n hmem
  have hvalue := intValue_of_stou hn (List.forall_mem_cons.mp hkeep).1
  have hstoi : stoi a = .ok (n : ℤ) := stoi_intValue.mpr ⟨hvalue, by omega, by omega⟩
  have hp : packArguments m .setACOutputVoltage [a] = .ok (fixedInt 4 ((n : ℤ) * 10)) := by
    simp only [packArguments, List.getD_cons_zero, hstoi]
    rfl
  exact kept_of_read hp rfl (hread _ hp) (.cons (readAllowed_of_stoi hstoi ⟨n, hmem, rfl⟩) .nil)

theorem part_read {t : Bytes} {n hi : ℕ} (h : stouh t = .ok n) (hle : n ≤ hi) (hhi : hi ≤ 59)
    (hkeep : ∀ z, intValue t = some z → 0 ≤ z ∧ z < 2 ^ 16) :
    ReadAllowed (t, Set.Icc 0 (hi : ℤ)) (decimal n) := by
  obtain ⟨k, hk, rfl⟩ := stouh_eq_ok h
  obtain ⟨z, hz, hkz⟩ := stoul_intValue hk
  have := hkeep z hz
  refine ⟨_, stoi_decimal (by omega), ?_, by omega, by omega⟩
  rw [hz, Option.some.injEq]
  omega

theorem timeBucket_kept {c : CommandType}
    (hc : c = .setACChargeTimeBucket ∨ c = .setACSupplyTimeBucket) {start stop : Bytes}
    (hv : validateArgs m c [start, stop] = .ok args) (hkeep : CastKeeps c [start, stop]) :
    NumbersKept m c [start, stop] args := by
  have hread := fun f (hp : packArguments m c args = .ok f) => timeBucket_read hc hv hp
  have hv' : bucketArgs start stop = .ok args := by
    rcases hc with rfl | rfl <;> exact hv
  obtain ⟨th, tm, th', tm', hstart, hstop, h1, m1, h2, m2, ⟨eh1, em1, eh2, em2⟩,
    ⟨hh1, hm1, hh2, hm2⟩, rfl⟩ := bucketArgs_parts hv'
  have hints : intArgs c [start, stop] = [(th, Set.Icc 0 23), (tm, Set.Icc 0 59),
      (th', Set.Icc 0 23), (tm', Set.Icc 0 59)] := by
    rcases hc with rfl | rfl <;>
      simp only [intArgs, List.getD_cons_zero, List.getD_cons_succ, hstart, hstop]
  have hwidth : castWidth c = 16 := by
    rcases hc with rfl | rfl <;> rfl
  simp only [CastKeeps, hints, hwidth, List.forall_mem_cons] at hkeep
  obtain ⟨k1, k2, k3, k4, -⟩ := hkeep
  have hall : List.Forall₂ ReadAllowed (intArgs c [start, stop])
      [decimal h1, decimal m1, decimal h2, decimal m2] := by
    rw [hints]
    exact .cons (part_read eh1 hh1 (by norm_num) k1) (.cons (part_read em1 hm1 le_rfl k2)
      (.cons (part_read eh2 hh2 (by norm_num) k3) (.cons (part_read em2 hm2 le_rfl k4) .nil)))
  have hp := packArguments_bucket (m := m) hc hh1 hm1 hh2 hm2
  rcases hc with rfl | rfl <;> exact kept_of_read hp rfl (hread _ hp) hall

theorem kept_of_packed {c : CommandType} {given : List Bytes}
    (hp : ∃ fields, packArguments m c args = .ok fields) (hints : intArgs c given = [])
    (henc : ∀ fields, encodedInts c fields = []) : NumbersKept m c given args := by
  obtain ⟨fields, hp⟩ := hp
  refine ⟨fields, hp, ?_⟩
  rw [hints, henc]
  exact .nil

theorem voltages_packed {c : CommandType} (hc : c = .setBatteryMaxChargeVoltage ∨
      c = .setBatteryCutOffVoltage ∨ c = .setBatteryChargeThresholds) {given : List Bytes}
    (hcount : ∀ n, argCount c = some n → given.length = n)
    (hv : validateArgs m c given = .ok args) : ∃ fields, packArguments m c args = .ok fields := by
  rcases hc with rfl | rfl | rfl
  · obtain ⟨a, b, rfl⟩ := List.length_eq_two.mp (hcount 2 rfl)
    obtain ⟨x, y, hax, hby, hx, hy, rfl⟩ := setBatteryMaxChargeVoltage_accepted hv
    obtain ⟨f, hf, -⟩ := chargeVoltage_field_iff (m := m) (s := a) hax hx
    obtain ⟨g, hg, -⟩ := chargeVoltage_field_iff (m := m) (s := b) hby hy
    exact ⟨_, (twoVoltages_packed (.inl rfl)).mpr ⟨f, g, hf, hg, rfl⟩⟩
  · obtain ⟨a, rfl⟩ := List.length_eq_one_iff.mp (hcount 1 rfl)
    obtain ⟨x, hax, hx, rfl⟩ := setBatteryCutOffVoltage_accepted hv
    obtain ⟨f, hf, -⟩ := cutOffVoltage_field_iff (m := m) (s := a) hax hx
    exact ⟨f, hf⟩
  · obtain ⟨a, b, rfl⟩ := List.length_eq_two.mp (hcount 2 rfl)
    obtain ⟨x, y, hax, hby, hx, hy, rfl⟩ := setBatteryChargeThresholds_accepted hv
    obtain ⟨n, -, hf⟩ := packVoltage_listed (m := m) (s := a) tables_pinned.1 hax hx
    obtain ⟨k, -, hg⟩ := packVoltage_listed (m := m) (s := b) tables_pinned.2 hby hy
    exact ⟨_, (twoVoltages_packed (.inr rfl)).mpr ⟨_, _, hf, hg, rfl⟩⟩

theorem setACOutputFreq_packed {a : Bytes} (hv : validateArgs m .setACOutputFreq [a] = .ok args) :
    ∃ fields, packArguments m .setACOutputFreq args = .ok fields := by
  obtain ⟨⟨t, ht, rfl⟩, rfl⟩ := setACOutputFreq_accepted hv
  simp only [List.mem_cons, List.not_mem_nil, or_false] at ht
  rcases ht with rfl | rfl <;> exact ⟨_, rfl⟩

theorem kept_of_castKeeps {c : CommandType} {given : List Bytes}
    (hcount : ∀ n, argCount c = some n → given.length = n)
    (hv : validateArgs m c given = .ok args) (hkeep : CastKeeps c given) :
    NumbersKept m c given args := by
  cases c
  case getYearGenerated =>
    obtain ⟨y, rfl⟩ := List.length_eq_one_iff.mp (hcount 1 rfl)
    exact getYearGenerated_kept hv
  case getMonthGenerated =>
    obtain ⟨y, mo, rfl⟩ := List.length_eq_two.mp (hcount 2 rfl)
    exact getMonthGenerated_kept hv
  case getDayGenerated =>
    obtain ⟨y, mo, d, rfl⟩ := List.length_eq_three.mp (hcount 3 rfl)
    exact getDayGenerated_kept hv
  case getParallelRatedInformation =>
    obtain ⟨a, rfl⟩ := List.length_eq_one_iff.mp (hcount 1 rfl)
    exact getParallel_kept (.inl rfl) hv
  case getParallelGeneralStatus =>
    obtain ⟨a, rfl⟩ := List.length_eq_one_iff.mp (hcount 1 rfl)
    exact getParallel_kept (.inr rfl) hv
  case setBatteryMaxChargeCurrent =>
    obtain ⟨a, b, rfl⟩ := List.length_eq_two.mp (hcount 2 rfl)
    exact setBatteryMaxCurrent_kept (.inl rfl) hv hkeep
  case setBatteryMaxACChargeCurrent =>
    obtain ⟨a, b, rfl⟩ := List.length_eq_two.mp (hcount 2 rfl)
    exact setBatteryMaxCurrent_kept (.inr rfl) hv hkeep
  case setACOutputVoltage =>
    obtain ⟨a, rfl⟩ := List.length_eq_one_iff.mp (hcount 1 rfl)
    exact setACOutputVoltage_kept hv hkeep
  case setChargeSourcePriority =>
    obtain ⟨a, b, rfl⟩ := List.length_eq_two.mp (hcount 2 rfl)
    exact setChargeSourcePriority_kept hv hkeep
  case setOutputMode =>
    obtain ⟨a, b, rfl⟩ := List.length_eq_two.mp (hcount 2 rfl)
    exact setOutputMode_kept hv hkeep
  case setDateTime =>
    obtain ⟨y, mo, d, h, mi, s, rfl⟩ := exists_of_length_six (hcount 6 rfl)
    exact setDateTime_kept hv
  case setACChargeTimeBucket =>
    obtain ⟨a, b, rfl⟩ := List.length_eq_two.mp (hcount 2 rfl)
    exact timeBucket_kept (.inl rfl) hv hkeep
  case setACSupplyTimeBucket =>
    obtain ⟨a, b, rfl⟩ := List.length_eq_two.mp (hcount 2 rfl)
    exact timeBucket_kept (.inr rfl) hv hkeep
  case setBatteryMaxChargeVoltage =>
    exact kept_of_packed (voltages_packed (.inl rfl) hcount hv) rfl fun _ => rfl
  case setBatteryCutOffVoltage =>
    exact kept_of_packed (voltages_packed (.inr (.inl rfl)) hcount hv) rfl fun _ => rfl
  case setBatteryChargeThresholds =>
    exact kept_of_packed (voltages_packed (.inr (.inr rfl)) hcount hv) rfl fun _ => rfl
  case setACOutputFreq =>
    obtain ⟨a, rfl⟩ := List.length_eq_one_iff.mp (hcount 1 rfl)
    exact kept_of_packed (setACOutputFreq_packed hv) rfl fun _ => rfl
  -- what is left is copied, or takes no arguments
  all_goals exact kept_of_packed ⟨_, rfl⟩ rfl fun _ => rfl

end

theorem valid_of_input {m : Machine} {command : Bytes} {argv : List Bytes} {c : CommandType}
    {args : List Bytes} (hv : validateInput m (getArgs argv) command = .ok (c, args)) :
    validateArgs m c (argv.take ((argCount c).getD 0)) = .ok args ∧
      (∀ n, argCount c = some n → (argv.take ((argCount c).getD 0)).length = n) ∧
      (argCount c = none → argv.take ((argCount c).getD 0) = []) := by
  obtain ⟨-, given, hgiven, hvalid⟩ := validateInput_eq_ok.mp hv
  unfold givenArgs at hgiven
  cases hn : argCount c with
  | none =>
      rw [hn] at hgiven
      obtain rfl := pure_eq_ok.mp hgiven
      exact ⟨hvalid, (by rintro n ⟨⟩), fun _ => rfl⟩
  | some n =>
      rw [hn] at hgiven
      obtain ⟨hlen, rfl⟩ := getArgs_length hgiven
      exact ⟨hvalid, fun k h => hlen.trans (Option.some.inj h), fun h => by cases h⟩

/-- **The validator and the encoder read the same numbers** exactly when the integers survive the
cast before the check: nothing is thrown, and every integer in the argument field is the one the
text denotes and in its range. -/
theorem numbers_kept_iff (m : Machine) (command : Bytes) (argv : List Bytes) {c : CommandType}
    {args : List Bytes} (hv : validateInput m (getArgs argv) command = .ok (c, args)) :
    NumbersKept m c (argv.take ((argCount c).getD 0)) args ↔
      CastKeeps c (argv.take ((argCount c).getD 0)) := by
  obtain ⟨hvalid, hcount, -⟩ := valid_of_input hv
  exact ⟨castKeeps_of_kept, kept_of_castKeeps hcount hvalid⟩

/-- `set-max-charge-current 1 30`. -/
theorem numbers_kept_current :
    NumbersKept x86 .setBatteryMaxChargeCurrent [ascii "1", ascii "30"]
        [ascii "1", ascii "30"] ↔
      CastKeeps .setBatteryMaxChargeCurrent [ascii "1", ascii "30"] :=
  numbers_kept_iff x86 (ascii "set-max-charge-current") [ascii "1", ascii "30"]
    (show _ = Except.ok (CommandType.setBatteryMaxChargeCurrent, _) by decide)

/-- `set-max-charge-current 0 4294967306` is accepted as ten ampere, and then `std::stoi` throws. -/
theorem numbers_not_kept : ¬ ∀ (m : Machine) (command : Bytes) (argv args : List Bytes),
    validateInput m (getArgs argv) command = .ok (.setBatteryMaxChargeCurrent, args) →
      NumbersKept m .setBatteryMaxChargeCurrent argv args := by
  intro h
  obtain ⟨fields, hp, -⟩ := h x86 (ascii "set-max-charge-current")
    [ascii "0", ascii "4294967306"] [ascii "0", ascii "4294967306"] (by decide)
  have hthrown : packArguments x86 .setBatteryMaxChargeCurrent [ascii "0", ascii "4294967306"] =
      .error ⟨.outOfRange, ascii "stoi"⟩ := by
    decide
  cases hthrown.symm.trans hp

end InverterTools.P18
