import InverterTools.TypedNumbers
import InverterTools.VoltageRounding

/-! # The parameters that were typed

`parameters` takes the words of a command as they are typed: integers by value, voltages in tenths
of a volt, the words of a choice and the number of a solar panel as texts.  What is sent is
`sentParameters`.  The two differ where the code loses something: the parts of a time bucket are
cast to `unsigned short`, and a voltage is rounded twice (`sentParameters_eq_iff`).  Requests that
differ in nothing else are sent as one frame (`requests_unambiguous_iff`). -/

namespace InverterTools.P18

open Voltronic (Device Flags)

/-! ### What was typed -/

/-- The words that are the arguments of a command. -/
def typed (c : CommandType) (argv : List Bytes) : List Bytes := argv.take ((argCount c).getD 0)

/-- The integer that a word begins with. -/
def typedInt (s : Bytes) : Param :=
  match intValue s with
  | some z => .int z
  | none => .text s

/-- The tenths of a volt that are nearest to a word, halves away from zero. -/
def typedVoltage (s : Bytes) : Param :=
  match scanFloat s with
  | some (.num neg v) => .int (CFloat.roundAway (10 * if neg then -v else v))
  | some .nan => .text (ascii "nan")
  | _ => .text s

/-- The hour and minute parts of times. -/
def timeParts (words : List Bytes) : List Bytes := words.flatMap fun s => split s 0x3A

/-- The parameters of a command, from its words. -/
def parameters (c : CommandType) (words : List Bytes) : List Param :=
  let word := fun i => words.getD i []
  match c with
  | .setFlag => [.text (word 0), typedInt (word 1)]
  | .setChargeSourcePriority | .setOutputMode => [typedInt (word 0), .text (word 1)]
  | .setOutputSourcePriority | .setSolarPowerPriority | .setACInputVoltageRange | .setBatteryType
  | .setSolarConfig => [.text (word 0)]
  | .setBatteryMaxChargeVoltage | .setBatteryChargeThresholds | .setBatteryCutOffVoltage =>
      words.map typedVoltage
  | .setACChargeTimeBucket | .setACSupplyTimeBucket => (timeParts words).map typedInt
  | _ => words.map typedInt

/-- At least `n` tenths of a volt are sent for a word: a NaN is sent as the `int` that the processor
makes of it. -/
def Reaches (m : Machine) (n : ℤ) (s : Bytes) : Prop :=
  match scanFloat s with
  | some (.num neg v) => ReadsUp n (if neg then -v else v)
  | _ => n ≤ m.castInt .nan

/-- Two parts of times begin with integers that are congruent. -/
def CongruentParts (s t : Bytes) : Prop :=
  ∃ y z, intValue s = some y ∧ intValue t = some z ∧ y % 2 ^ 16 = z % 2 ^ 16

/-- The words of two requests of one command go out alike, though they may mean different
parameters: times that agree modulo 65536, or voltages that are rounded to the same tenth. -/
def SentAlike (m : Machine) (c : CommandType) (words words' : List Bytes) : Prop :=
  match c with
  | .setACChargeTimeBucket | .setACSupplyTimeBucket =>
      List.Forall₂ CongruentParts (timeParts words) (timeParts words')
  | .setBatteryMaxChargeVoltage | .setBatteryCutOffVoltage =>
      List.Forall₂ (fun s t => ∀ n, Reaches m n s ↔ Reaches m n t) words words'
  | _ => False

/-- Nothing is lost on the way: the parts of times survive the cast, and voltages are numbers that
do not slip. -/
def Kept (c : CommandType) (words : List Bytes) : Prop :=
  match c with
  | .setACChargeTimeBucket | .setACSupplyTimeBucket =>
      ∀ s ∈ timeParts words, ∀ z, intValue s = some z → 0 ≤ z ∧ z < 2 ^ 16
  | .setBatteryMaxChargeVoltage | .setBatteryCutOffVoltage =>
      ∀ s ∈ words, ∃ v, ReadsAs s v ∧ ¬ Slips v
  | _ => True

/-! ### Integers and words -/

theorem typedInt_of_intValue {s : Bytes} {z : ℤ} (h : intValue s = some z) :
    typedInt s = .int z := by
  rw [typedInt, h]

theorem typedInt_of_stoi {s : Bytes} {z : ℤ} (h : stoi s = .ok z) : intParam s = typedInt s := by
  rw [intParam_eq h, typedInt_of_intValue (stoi_intValue.mp h).1]

theorem typedInt_of_stou {s : Bytes} {n : ℕ} (h : stou s = .ok n) : idParam s = typedInt s := by
  obtain ⟨k, hk, -⟩ := map_eq_ok.mp h
  obtain ⟨z, hz, -⟩ := stoul_intValue hk
  rw [idParam, hz, typedInt_of_intValue hz, Option.getD_some]

theorem typedInt_of_packInt {w : ℕ} {s f : Bytes} (h : packInt w s = .ok f) :
    intParam s = typedInt s := by
  obtain ⟨z, hz, -⟩ := map_eq_ok.mp h
  exact typedInt_of_stoi hz

theorem wordParam_of_chosen {c : CommandType} {s index : Bytes} {err : String}
    (h : chooseIndex (choices c) s err = .ok index) (hlen : (choices c).length ≤ 10) :
    wordParam c (intParam index) = .text s := by
  unfold chooseIndex at h
  cases hi : indexOf (fun a b => ascii a == b) (choices c) s with
  | none => simp [hi] at h
  | some i =>
      simp only [hi] at h
      obtain rfl := Except.ok.inj h
      obtain ⟨hlt, hword, -⟩ := List.findIdx?_eq_some_iff_getElem.mp hi
      rw [intParam_eq (stoi_decimal (by omega)), wordParam, Int.toNat_natCast,
        List.getD_eq_getElem?_getD, List.getElem?_eq_getElem hlt, Option.getD_some,
        beq_iff_eq.mp hword]

theorem flagParam_of_mem {f : Flag} (h : f ∈ flags) :
    flagParam [UInt8.ofNat f.letter.toNat] = .text (ascii f.flag) := by
  have hall : ∀ f ∈ flags, flagParam [UInt8.ofNat f.letter.toNat] = .text (ascii f.flag) := by
    decide +kernel
  exact hall f h

/-! ### The commands that lose nothing -/

/-- The commands whose words are cast or rounded. -/
def Lossy (c : CommandType) : Prop :=
  c = .setACChargeTimeBucket ∨ c = .setACSupplyTimeBucket ∨ c = .setBatteryMaxChargeVoltage ∨
    c = .setBatteryCutOffVoltage

section

variable {m : Machine} {args : List Bytes} {fields : Bytes}

theorem map_typedInt {words : List Bytes} (h : ∀ s ∈ words, ∃ z, stoi s = .ok z) :
    words.map intParam = words.map typedInt := by
  apply List.map_congr_left
  intro s hs
  obtain ⟨z, hz⟩ := h s hs
  exact typedInt_of_stoi hz

theorem date_typed {y : Bytes} {mo d : Option Bytes} {u : Unit}
    (h : validateDateArgs y mo d = .ok u) :
    ∀ s ∈ y :: (mo.toList ++ d.toList), ∃ z, stoi s = .ok z := by
  obtain ⟨-, ⟨zy, hy, -⟩, ⟨zm, hm⟩, zd, hd⟩ := validateDateArgs_eq_ok h
  have hpart {lo hi z : ℤ} {err : String} : ∀ part : Option Bytes,
      twoDigits lo hi err part = .ok z → ∀ s ∈ part.toList, ∃ z, stoi s = .ok z
    | none, _, s, hs => absurd hs List.not_mem_nil
    | some t, hz, s, hs => by
        obtain rfl := List.mem_singleton.mp hs
        exact ⟨z, (twoDigits_eq_ok hz).1⟩
  rw [List.forall_mem_cons, List.forall_mem_append]
  exact ⟨⟨zy, hy⟩, hpart mo hm, hpart d hd⟩

theorem clock_typed {s : Bytes} {hi : ℕ} {err : String} {u : Unit}
    (h : validateClockArg s hi err = .ok u) : ∃ z, stoi s = .ok z := (clock_read h).1

theorem listed_typed {s : Bytes} {v : CFloat} {tables : List (List CFloat)} {ns : List ℕ}
    {err : String} {u : Unit} (hT : ∀ t ∈ tables, ∀ x ∈ t, (ns.any fun n => pins n x) = true)
    (hs : stof m s = .ok v) (hv : voltageListed v tables err = .ok u) :
    sentVoltage m s = typedVoltage s := by
  obtain ⟨n, -, hpin⟩ := pins_of_listed hT hv
  have hsent : sentVoltage m s = .int n := by
    rw [← sentVoltage_of_packVoltage (packVoltage_of_pins hpin hs), fixedInt, fieldInt_zeroPad]
  rw [hsent, typedVoltage]
  obtain ⟨rfl, rfl⟩ | ⟨q, hq, hlo, hhi, -⟩ := denotes_of_pins hpin hs
  · obtain ⟨neg, hscan⟩ := scanFloat_of_strtod_zero (stof_eq_ok.mp hs)
    rw [hscan]
    dsimp only
    rw [neg_zero, ite_self, mul_zero, roundAway_of_nonneg le_rfl]
    norm_num
  · rw [hq.scan]
    dsimp only
    rw [if_neg (by simp), roundAway_of_nonneg (mul_nonneg (by norm_num) hq.nonneg), eq_comm,
      Param.int.injEq, Int.floor_eq_iff, Int.cast_natCast]
    constructor <;> linarith

theorem id_word_typed {c : CommandType} {a b index : Bytes} {id : ℕ} {err : String}
    (hid : stou a = .ok id) (hindex : chooseIndex (choices c) b err = .ok index)
    (hlen : (choices c).length ≤ 10) :
    [idParam a, wordParam c (intParam index)] = [typedInt a, .text b] := by
  rw [typedInt_of_stou hid, wordParam_of_chosen hindex hlen]

theorem chosen_typed {c : CommandType} {a : Bytes} {err : String}
    (hv : (chooseIndex (choices c) a err >>= fun index => pure ([a].set 0 index)) = .ok args)
    (hlen : (choices c).length ≤ 10) : [wordParam c (intParam (args.getD 0 []))] = [.text a] := by
  obtain ⟨index, hindex, hargs⟩ := bind_eq_ok.mp hv
  obtain rfl := pure_eq_ok.mp hargs
  exact congrArg (fun p => [p]) (wordParam_of_chosen hindex hlen)

/-- **Most words are sent as they are typed.** -/
theorem sentParameters_eq {c : CommandType} {words : List Bytes} (hc : ¬ Lossy c)
    (hcount : ∀ n, argCount c = some n → words.length = n) (hnone : argCount c = none → words = [])
    (hv : validateArgs m c words = .ok args) (hp : packArguments m c args = .ok fields) :
    sentParameters m c args = parameters c words := by
  cases c
  case getYearGenerated =>
    obtain ⟨y, rfl⟩ := List.length_eq_one_iff.mp (hcount 1 rfl)
    obtain ⟨hdate, rfl⟩ := getYearGenerated_accepted hv
    exact map_typedInt (date_typed hdate)
  case getMonthGenerated =>
    obtain ⟨y, mo, rfl⟩ := List.length_eq_two.mp (hcount 2 rfl)
    obtain ⟨hdate, rfl⟩ := getMonthGenerated_accepted hv
    exact map_typedInt (date_typed hdate)
  case getDayGenerated =>
    obtain ⟨y, mo, d, rfl⟩ := List.length_eq_three.mp (hcount 3 rfl)
    obtain ⟨hdate, rfl⟩ := getDayGenerated_accepted hv
    exact map_typedInt (date_typed hdate)
  case getParallelRatedInformation | getParallelGeneralStatus =>
    obtain ⟨a, rfl⟩ := List.length_eq_one_iff.mp (hcount 1 rfl)
    obtain ⟨hnum, hlen, rfl⟩ := getParallel_accepted (by simp) hv
    obtain ⟨hz, -⟩ := stoi_of_isNumeric hnum hlen (by norm_num)
    exact congrArg (fun p => [p]) (typedInt_of_stoi hz)
  case setACSupply =>
    obtain ⟨a, rfl⟩ := List.length_eq_one_iff.mp (hcount 1 rfl)
    obtain ⟨⟨t, ht, rfl⟩, rfl⟩ := setACSupply_accepted hv
    simp only [List.mem_cons, List.not_mem_nil, or_false] at ht
    rcases ht with rfl | rfl <;> rfl
  case setFlag =>
    obtain ⟨a, b, rfl⟩ := List.length_eq_two.mp (hcount 2 rfl)
    obtain ⟨f, hf, rfl, ⟨t, ht, rfl⟩, rfl⟩ := setFlag_accepted hv
    have hstate : intParam (ascii t) = typedInt (ascii t) := by
      simp only [List.mem_cons, List.not_mem_nil, or_false] at ht
      rcases ht with rfl | rfl <;> rfl
    exact congrArg₂ (fun p q => [p, q]) (flagParam_of_mem hf) hstate
  case setBatteryMaxChargeCurrent | setBatteryMaxACChargeCurrent =>
    obtain ⟨a, b, rfl⟩ := List.length_eq_two.mp (hcount 2 rfl)
    obtain ⟨id, amps, hid, -, -, -, rfl⟩ := setBatteryMaxCurrent_accepted (by simp) hv
    obtain ⟨f, hf, -⟩ := setBatteryMaxCurrent_packed (by simp) hp
    exact congrArg₂ (fun p q => [p, q]) (typedInt_of_stou hid) (typedInt_of_packInt hf)
  case setACOutputFreq =>
    obtain ⟨a, rfl⟩ := List.length_eq_one_iff.mp (hcount 1 rfl)
    obtain ⟨-, rfl⟩ := setACOutputFreq_accepted hv
    exact congrArg (fun p => [p]) (typedInt_of_packInt hp)
  case setACOutputVoltage =>
    obtain ⟨a, rfl⟩ := List.length_eq_one_iff.mp (hcount 1 rfl)
    obtain ⟨-, -, -, rfl⟩ := setACOutputVoltage_accepted hv
    obtain ⟨z, hz, -⟩ := map_eq_ok.mp hp
    exact congrArg (fun p => [p]) (typedInt_of_stoi hz)
  case setOutputSourcePriority | setSolarPowerPriority | setACInputVoltageRange | setBatteryType =>
    obtain ⟨a, rfl⟩ := List.length_eq_one_iff.mp (hcount 1 rfl)
    exact chosen_typed hv (by decide)
  case setBatteryChargeThresholds =>
    obtain ⟨a, b, rfl⟩ := List.length_eq_two.mp (hcount 2 rfl)
    obtain ⟨x, y, hax, hby, hx, hy, rfl⟩ := setBatteryChargeThresholds_accepted hv
    exact congrArg₂ (fun p q => [p, q]) (listed_typed tables_pinned.1 hax hx)
      (listed_typed tables_pinned.2 hby hy)
  case setChargeSourcePriority =>
    obtain ⟨a, b, rfl⟩ := List.length_eq_two.mp (hcount 2 rfl)
    obtain ⟨id, index, hid, -, hindex, rfl⟩ := setChargeSourcePriority_accepted hv
    exact id_word_typed hid hindex (by decide)
  case setOutputMode =>
    obtain ⟨a, b, rfl⟩ := List.length_eq_two.mp (hcount 2 rfl)
    obtain ⟨id, index, hid, -, hindex, rfl⟩ := setOutputMode_accepted hv
    exact id_word_typed hid hindex (by decide)
  case setSolarConfig =>
    obtain ⟨a, rfl⟩ := List.length_eq_one_iff.mp (hcount 1 rfl)
    obtain ⟨-, -, rfl⟩ := setSolarConfig_accepted hv
    rfl
  case setDateTime =>
    obtain ⟨y, mo, d, h, mi, s, rfl⟩ := exists_of_length_six (hcount 6 rfl)
    obtain ⟨hdate, hh, hmi, hs, rfl⟩ := setDateTime_accepted hv
    apply map_typedInt
    exact List.forall_mem_append.mpr ⟨date_typed hdate, List.forall_mem_cons.mpr ⟨clock_typed hh,
      List.forall_mem_cons.mpr ⟨clock_typed hmi, List.forall_mem_singleton.mpr (clock_typed hs)⟩⟩⟩
  case setACChargeTimeBucket => exact absurd (.inl rfl) hc
  case setACSupplyTimeBucket => exact absurd (.inr (.inl rfl)) hc
  case setBatteryMaxChargeVoltage => exact absurd (.inr (.inr (.inl rfl))) hc
  case setBatteryCutOffVoltage => exact absurd (.inr (.inr (.inr rfl))) hc
  -- the commands without arguments
  all_goals
    obtain rfl := hnone rfl
    obtain rfl := pure_eq_ok.mp hv
    rfl

/-! ### The parts of times -/

/-- The number that is sent for a part of a time. -/
def PartSent (s : Bytes) (n : ℕ) : Prop := ∃ z, intValue s = some z ∧ (n : ℤ) = z % 2 ^ 16

theorem partSent_of_stouh {s : Bytes} {n : ℕ} (h : stouh s = .ok n) : PartSent s n := by
  obtain ⟨k, hk, rfl⟩ := stouh_eq_ok h
  obtain ⟨z, hz, hkz⟩ := stoul_intValue hk
  exact ⟨z, hz, by omega⟩

theorem bucket_sent {c : CommandType}
    (hc : c = .setACChargeTimeBucket ∨ c = .setACSupplyTimeBucket) {words : List Bytes}
    (hlen : words.length = 2) (hv : validateArgs m c words = .ok args) :
    ∃ ns, List.Forall₂ PartSent (timeParts words) ns ∧ args = ns.map decimal ∧
      sentParameters m c args = ns.map fun n => .int (n : ℕ) := by
  obtain ⟨start, stop, rfl⟩ := List.length_eq_two.mp hlen
  have hbucket : bucketArgs start stop = .ok args := by
    rcases hc with rfl | rfl <;> exact hv
  obtain ⟨th, tm, th', tm', hstart, hstop, h1, m1, h2, m2, ⟨eh1, em1, eh2, em2⟩,
    ⟨hh1, hm1, hh2, hm2⟩, rfl⟩ := bucketArgs_parts hbucket
  have hparts : timeParts [start, stop] = [th, tm, th', tm'] := by
    simp only [timeParts, List.flatMap_cons, List.flatMap_nil, hstart, hstop, List.append_nil,
      List.cons_append, List.nil_append]
  have hread {n : ℕ} (h : n ≤ 59) : intParam (decimal n) = .int n :=
    intParam_eq (stoi_decimal (by omega))
  refine ⟨[h1, m1, h2, m2], ?_, rfl, ?_⟩
  · rw [hparts]
    exact .cons (partSent_of_stouh eh1) (.cons (partSent_of_stouh em1)
      (.cons (partSent_of_stouh eh2) (.cons (partSent_of_stouh em2) .nil)))
  · have hall : sentParameters m c [decimal h1, decimal m1, decimal h2, decimal m2] =
        [decimal h1, decimal m1, decimal h2, decimal m2].map intParam := by
      rcases hc with rfl | rfl <;> rfl
    simp only [hall, List.map_cons, List.map_nil, hread (show h1 ≤ 59 by omega), hread hm1,
      hread (show h2 ≤ 59 by omega), hread hm2]

/-- The same numbers are sent for parts that are congruent, and only for them. -/
theorem congruentParts_iff {ss ts : List Bytes} {ns ks : List ℕ} (hs : List.Forall₂ PartSent ss ns)
    (ht : List.Forall₂ PartSent ts ks) : List.Forall₂ CongruentParts ss ts ↔ ns = ks := by
  induction hs generalizing ts ks with
  | nil =>
      cases ht with
      | nil => exact iff_of_true .nil rfl
      | cons => exact iff_of_false (fun h => by cases h) (fun h => by cases h)
  | cons hpart hs ih =>
      cases ht with
      | nil => exact iff_of_false (fun h => by cases h) (fun h => by cases h)
      | cons hpart' ht =>
          obtain ⟨y, hy, hn⟩ := hpart
          obtain ⟨z, hz, hk⟩ := hpart'
          rw [List.forall₂_cons, ih ht, List.cons.injEq]
          refine and_congr_left fun _ => ⟨?_, fun h => ⟨y, z, hy, hz, by omega⟩⟩
          rintro ⟨y', z', hy', hz', hmod⟩
          obtain rfl := Option.some.inj (hy.symm.trans hy')
          obtain rfl := Option.some.inj (hz.symm.trans hz')
          omega

/-- The numbers of the parts are sent when the cast keeps them. -/
theorem partsKept_iff {ss : List Bytes} {ns : List ℕ} (hs : List.Forall₂ PartSent ss ns) :
    (ns.map fun n => Param.int (n : ℕ)) = ss.map typedInt ↔
      ∀ s ∈ ss, ∀ z, intValue s = some z → 0 ≤ z ∧ z < 2 ^ 16 := by
  induction hs with
  | nil => exact iff_of_true rfl fun s hs => absurd hs List.not_mem_nil
  | cons hpart hs ih =>
      obtain ⟨z, hz, hn⟩ := hpart
      rw [List.map_cons, List.map_cons, List.cons.injEq, ih, List.forall_mem_cons,
        typedInt_of_intValue hz, Param.int.injEq]
      refine and_congr_left fun _ => ?_
      simp only [hz, Option.some.injEq, forall_eq']
      omega

/-! ### Voltages that passed a range check -/

/-- A NaN, or a number from 32 to 59. -/
def NanOrDenotes (s : Bytes) : Prop :=
  scanFloat s = some .nan ∨ ∃ v, Denotes s v ∧ 32 ≤ v

theorem nanOrDenotes_of_voltageIn {s : Bytes} {x : CFloat} {lo hi l h : ℚ} {err : String}
    {u : Unit} (hs : stof m s = .ok x) (hv : voltageIn x lo hi err = .ok u)
    (hlo : binary64.round lo = .fin l) (hhi : binary64.round hi = .fin h) (hl : 33 ≤ l)
    (hh : h < 59) : NanOrDenotes s := by
  obtain rfl | ⟨r, rfl, h1, h2⟩ := voltageIn_eq_ok hlo hhi hv
  · exact .inl (strtod_eq_ok_nan_iff.mp (stof_eq_ok.mp hs))
  · obtain ⟨q, hscan, rfl, hq1, hq59⟩ := scanFloat_of_stof hs (by linarith) (by linarith)
    obtain ⟨-, hnear⟩ := float_near (q := q) (by linarith) (by linarith)
    exact .inr ⟨q, ⟨hscan, .inr hq1, hq59⟩, by linarith⟩

theorem sent_of_nanOrDenotes {s : Bytes} (h : NanOrDenotes s) :
    ∃ z, packVoltage m s = .ok (fixedInt 3 z) ∧ sentVoltage m s = .int z ∧
      ∀ n, Reaches m n s ↔ n ≤ z := by
  obtain hnan | ⟨v, hv, h32⟩ := h
  · have hd : stod m s = .ok .nan := stod_eq_ok.mpr (strtod_eq_ok_nan_iff.mpr hnan)
    refine ⟨m.castInt .nan, ?_, ?_, fun n => ?_⟩
    · rw [packVoltage, hd]
      rfl
    · rw [sentVoltage, hd]
      rfl
    · rw [Reaches, hnan]
  · have hp := hv.packVoltage_eq m
    refine ⟨tenths v, hp, ?_, fun n => ?_⟩
    · rw [← sentVoltage_of_packVoltage hp, fixedInt, fieldInt_zeroPad]
    · rw [Reaches, hv.scan, le_tenths_iff h32 hv.le]
      dsimp only
      rw [if_neg (by simp)]

theorem voltageKept_iff {s : Bytes} (h : NanOrDenotes s) :
    sentVoltage m s = typedVoltage s ↔ ∃ v, ReadsAs s v ∧ ¬ Slips v := by
  obtain ⟨z, -, hsent, hreach⟩ := sent_of_nanOrDenotes (m := m) h
  rw [hsent, typedVoltage]
  obtain hnan | ⟨v, hv, h32⟩ := h
  · rw [hnan]
    refine iff_of_false (fun h => by cases h) ?_
    rintro ⟨v, ⟨neg, q, hq, -⟩, -⟩
    rw [hnan] at hq
    cases hq
  · have hz : z = tenths v := by
      rw [← sentVoltage_of_packVoltage (hv.packVoltage_eq m), fixedInt, fieldInt_zeroPad] at hsent
      exact (Param.int.inj hsent).symm
    have hreads (w : ℚ) : ReadsAs s w ↔ w = v := by
      constructor
      · rintro ⟨neg, q, hq, rfl⟩
        rw [hv.scan] at hq
        cases hq
        exact if_neg (by simp)
      · rintro rfl
        exact ⟨false, w, hv.scan, (if_neg (by simp)).symm⟩
    rw [hv.scan]
    dsimp only
    rw [if_neg (by simp), roundAway_of_nonneg (mul_nonneg (by norm_num) hv.nonneg), hz,
      Param.int.injEq, tenths_eq_iff h32 hv.le]
    simp only [hreads, exists_eq_left]

/-- Two voltages go out alike when the same tenths are sent. -/
theorem reaches_iff {s t : Bytes} (hs : NanOrDenotes s) (ht : NanOrDenotes t) :
    (∀ n, Reaches m n s ↔ Reaches m n t) ↔ sentVoltage m s = sentVoltage m t := by
  obtain ⟨z, -, hz, hreach⟩ := sent_of_nanOrDenotes (m := m) hs
  obtain ⟨k, -, hk, hreach'⟩ := sent_of_nanOrDenotes (m := m) ht
  rw [hz, hk, Param.int.injEq]
  constructor
  · intro h
    have h1 := (hreach' z).mp ((h z).mp ((hreach z).mpr le_rfl))
    have h2 := (hreach k).mp ((h k).mpr ((hreach' k).mpr le_rfl))
    exact le_antisymm h1 h2
  · rintro rfl n
    rw [hreach, hreach']

theorem packVoltage_congr {s t : Bytes} (hs : NanOrDenotes s) (ht : NanOrDenotes t)
    (h : sentVoltage m s = sentVoltage m t) : packVoltage m s = packVoltage m t := by
  obtain ⟨z, hp, hz, -⟩ := sent_of_nanOrDenotes (m := m) hs
  obtain ⟨k, hp', hk, -⟩ := sent_of_nanOrDenotes (m := m) ht
  rw [hz, hk] at h
  rw [hp, hp', Param.int.inj h]

theorem chargeVoltage_sent {words : List Bytes} (hlen : words.length = 2)
    (hv : validateArgs m .setBatteryMaxChargeVoltage words = .ok args) :
    args = words ∧ ∃ a b, words = [a, b] ∧ NanOrDenotes a ∧ NanOrDenotes b := by
  obtain ⟨a, b, rfl⟩ := List.length_eq_two.mp hlen
  obtain ⟨x, y, hax, hby, hx, hy, rfl⟩ := setBatteryMaxChargeVoltage_accepted hv
  obtain ⟨-, h48, h58⟩ := round_bounds
  exact ⟨rfl, a, b, rfl,
    nanOrDenotes_of_voltageIn hax hx h48 h58 (by norm_num) (by norm_num),
    nanOrDenotes_of_voltageIn hby hy h48 h58 (by norm_num) (by norm_num)⟩

theorem cutOffVoltage_sent {words : List Bytes} (hlen : words.length = 1)
    (hv : validateArgs m .setBatteryCutOffVoltage words = .ok args) :
    args = words ∧ ∃ a, words = [a] ∧ NanOrDenotes a := by
  obtain ⟨a, rfl⟩ := List.length_eq_one_iff.mp hlen
  obtain ⟨x, hax, hx, rfl⟩ := setBatteryCutOffVoltage_accepted hv
  obtain ⟨h40, h48, -⟩ := round_bounds
  exact ⟨rfl, a, rfl, nanOrDenotes_of_voltageIn hax hx h40 h48 (by norm_num) (by norm_num)⟩

/-! ### The commands that lose something -/

/-- What goes out alike, and nothing else, is sent as the same parameters and packed the same. -/
theorem sentAlike_iff {c : CommandType} (hc : Lossy c) {words words' args' : List Bytes}
    (hcount : ∀ n, argCount c = some n → words.length = n ∧ words'.length = n)
    (hv : validateArgs m c words = .ok args) (hv' : validateArgs m c words' = .ok args') :
    (SentAlike m c words words' ↔ sentParameters m c args = sentParameters m c args') ∧
      (sentParameters m c args = sentParameters m c args' →
        packArguments m c args = packArguments m c args') := by
  have htimes (hbucket : c = .setACChargeTimeBucket ∨ c = .setACSupplyTimeBucket)
      (hlen : words.length = 2 ∧ words'.length = 2) :
      (List.Forall₂ CongruentParts (timeParts words) (timeParts words') ↔
          sentParameters m c args = sentParameters m c args') ∧
        (sentParameters m c args = sentParameters m c args' →
          packArguments m c args = packArguments m c args') := by
    obtain ⟨ns, hparts, rfl, hsent⟩ := bucket_sent hbucket hlen.1 hv
    obtain ⟨ks, hparts', rfl, hsent'⟩ := bucket_sent hbucket hlen.2 hv'
    have hinj : Function.Injective fun n : ℕ => Param.int n := fun n k h =>
      Int.ofNat_inj.mp (Param.int.inj h)
    rw [congruentParts_iff hparts hparts', hsent, hsent', (List.map_injective_iff.mpr hinj).eq_iff]
    exact ⟨Iff.rfl, fun h => by rw [h]⟩
  obtain rfl | rfl | rfl | rfl := hc
  · exact htimes (.inl rfl) (hcount 2 rfl)
  · exact htimes (.inr rfl) (hcount 2 rfl)
  · obtain ⟨rfl, a, b, rfl, ha, hb⟩ := chargeVoltage_sent (hcount 2 rfl).1 hv
    obtain ⟨rfl, a', b', rfl, ha', hb'⟩ := chargeVoltage_sent (hcount 2 rfl).2 hv'
    have hsent : sentParameters m .setBatteryMaxChargeVoltage [a, b] =
          sentParameters m .setBatteryMaxChargeVoltage [a', b'] ↔
        sentVoltage m a = sentVoltage m a' ∧ sentVoltage m b = sentVoltage m b' := by
      show [sentVoltage m a, sentVoltage m b] = [sentVoltage m a', sentVoltage m b'] ↔ _
      simp only [List.cons.injEq, and_true]
    rw [hsent]
    constructor
    · show List.Forall₂ _ [a, b] [a', b'] ↔ _
      rw [List.forall₂_cons, List.forall₂_cons, reaches_iff ha ha', reaches_iff hb hb']
      simp only [List.Forall₂.nil, and_true]
    · rintro ⟨h1, h2⟩
      simp only [packArguments, List.getD_cons_zero, List.getD_cons_succ,
        packVoltage_congr ha ha' h1, packVoltage_congr hb hb' h2]
  · obtain ⟨rfl, a, rfl, ha⟩ := cutOffVoltage_sent (hcount 1 rfl).1 hv
    obtain ⟨rfl, a', rfl, ha'⟩ := cutOffVoltage_sent (hcount 1 rfl).2 hv'
    have hsent : sentParameters m .setBatteryCutOffVoltage [a] =
          sentParameters m .setBatteryCutOffVoltage [a'] ↔ sentVoltage m a = sentVoltage m a' := by
      show [sentVoltage m a] = [sentVoltage m a'] ↔ _
      simp only [List.cons.injEq, and_true]
    rw [hsent]
    constructor
    · show List.Forall₂ _ [a] [a'] ↔ _
      rw [List.forall₂_cons, reaches_iff ha ha']
      simp only [List.Forall₂.nil, and_true]
    · exact fun h => packVoltage_congr ha ha' h

/-- **What is typed is sent**, for every command, exactly when nothing is lost. -/
theorem sentParameters_eq_iff {command : Bytes} {argv : List Bytes} {c : CommandType}
    (hv : validateInput m (getArgs argv) command = .ok (c, args))
    (hp : packArguments m c args = .ok fields) :
    sentParameters m c args = parameters c (typed c argv) ↔ Kept c (typed c argv) := by
  obtain ⟨hvalid, hcount, hnone⟩ := valid_of_input hv
  have htimes (hbucket : c = .setACChargeTimeBucket ∨ c = .setACSupplyTimeBucket)
      (hlen : (typed c argv).length = 2) :
      sentParameters m c args = (timeParts (typed c argv)).map typedInt ↔
        ∀ s ∈ timeParts (typed c argv), ∀ z, intValue s = some z → 0 ≤ z ∧ z < 2 ^ 16 := by
    obtain ⟨ns, hparts, -, hsent⟩ := bucket_sent hbucket hlen hvalid
    rw [hsent]
    exact partsKept_iff hparts
  by_cases hc : Lossy c
  · obtain rfl | rfl | rfl | rfl := hc
    · exact htimes (.inl rfl) (hcount 2 rfl)
    · exact htimes (.inr rfl) (hcount 2 rfl)
    · obtain ⟨rfl, a, b, hwords, ha, hb⟩ := chargeVoltage_sent (hcount 2 rfl) hvalid
      have htyped : typed .setBatteryMaxChargeVoltage argv = [a, b] := hwords
      rw [htyped, hwords]
      show [sentVoltage m a, sentVoltage m b] = [typedVoltage a, typedVoltage b] ↔
        ∀ s ∈ [a, b], ∃ v, ReadsAs s v ∧ ¬ Slips v
      simp only [List.cons.injEq, and_true, List.forall_mem_cons, List.not_mem_nil, false_imp_iff,
        implies_true, voltageKept_iff ha, voltageKept_iff hb]
    · obtain ⟨rfl, a, hwords, ha⟩ := cutOffVoltage_sent (hcount 1 rfl) hvalid
      have htyped : typed .setBatteryCutOffVoltage argv = [a] := hwords
      rw [htyped, hwords]
      show [sentVoltage m a] = [typedVoltage a] ↔ ∀ s ∈ [a], ∃ v, ReadsAs s v ∧ ¬ Slips v
      simp only [List.cons.injEq, and_true, List.forall_mem_cons, List.not_mem_nil, false_imp_iff,
        implies_true, voltageKept_iff ha]
  · have hkept : Kept c (typed c argv) := by
      unfold Kept
      split
      · exact absurd (.inl rfl) hc
      · exact absurd (.inr (.inl rfl)) hc
      · exact absurd (.inr (.inr (.inl rfl))) hc
      · exact absurd (.inr (.inr (.inr rfl))) hc
      · trivial
    exact iff_of_true (sentParameters_eq hc hcount hnone hvalid hp) hkept

end

/-! ### Requests that give the same frame -/

theorem packRequest_congr {m : Machine} {c : CommandType} {args args' : List Bytes}
    (h : packArguments m c args = packArguments m c args') :
    packRequest m c args = packRequest m c args' := by
  unfold packRequest
  rw [h]

/-- **Requests are unambiguous** up to what is lost: equal frames are for the same command with the
same parameters, unless the two requests go out alike though other parameters were typed. -/
theorem requests_unambiguous_iff (m : Machine) (flags : Flags) (command command' : Bytes)
    (argv argv' : List Bytes) {c c' : CommandType} {args args' : List Bytes}
    {packed packed' : Bytes} (hv : validateInput m (getArgs argv) command = .ok (c, args))
    (hp : packRequest m c args = .ok packed)
    (hv' : validateInput m (getArgs argv') command' = .ok (c', args'))
    (hp' : packRequest m c' args' = .ok packed') :
    (Device.frame flags packed = Device.frame flags packed' →
        c = c' ∧ parameters c (typed c argv) = parameters c' (typed c' argv')) ↔
      ¬ (c = c' ∧ SentAlike m c (typed c argv) (typed c' argv') ∧
        parameters c (typed c argv) ≠ parameters c' (typed c' argv')) := by
  obtain ⟨hvalid, hcount, hnone⟩ := valid_of_input hv
  obtain ⟨hvalid', hcount', hnone'⟩ := valid_of_input hv'
  constructor
  · rintro h ⟨rfl, halike, hne⟩
    have hlossy : Lossy c := by
      unfold SentAlike at halike
      split at halike
      · exact .inl rfl
      · exact .inr (.inl rfl)
      · exact .inr (.inr (.inl rfl))
      · exact .inr (.inr (.inr rfl))
      · exact halike.elim
    obtain ⟨hiff, hpacked⟩ := sentAlike_iff hlossy (fun n hn => ⟨hcount n hn, hcount' n hn⟩)
      hvalid hvalid'
    rw [packRequest_congr (hpacked (hiff.mp halike)), hp'] at hp
    obtain rfl := Except.ok.inj hp
    exact hne (h rfl).2
  · intro h hframe
    have hread := readRequest_packed hv hp
    rw [frame_inj hframe, readRequest_packed hv' hp'] at hread
    obtain ⟨rfl, hsent⟩ := Prod.mk.inj (Option.some.inj hread)
    refine ⟨rfl, by_contra fun hne => h ⟨rfl, ?_, hne⟩⟩
    by_cases hlossy : Lossy c'
    · exact (sentAlike_iff hlossy (fun n hn => ⟨hcount n hn, hcount' n hn⟩) hvalid hvalid').1.mpr
        hsent.symm
    · obtain ⟨-, fields, -, hfields, -⟩ := packRequest_eq_ok.mp hp
      obtain ⟨-, fields', -, hfields', -⟩ := packRequest_eq_ok.mp hp'
      have hwords := sentParameters_eq hlossy hcount hnone hvalid hfields
      have hwords' := sentParameters_eq hlossy hcount' hnone' hvalid' hfields'
      exact absurd (hwords.symm.trans (hsent.symm.trans hwords')) hne

/-- `set-charge-thresholds 51.0 58` and `set-charge-thresholds 51 58.0` give one frame. -/
theorem requests_unambiguous_thresholds :
    parameters .setBatteryChargeThresholds [ascii "51.0", ascii "58"] =
      parameters .setBatteryChargeThresholds [ascii "51", ascii "58.0"] :=
  ((requests_unambiguous_iff x86 Voltronic.defaultFlags (ascii "set-charge-thresholds")
    (ascii "set-charge-thresholds") [ascii "51.0", ascii "58"] [ascii "51", ascii "58.0"]
    (show _ = Except.ok (CommandType.setBatteryChargeThresholds, [ascii "51.0", ascii "58"]) by
      decide +kernel)
    (show _ = Except.ok (ascii "^S014BUCD510,580") by decide +kernel)
    (show _ = Except.ok (CommandType.setBatteryChargeThresholds, [ascii "51", ascii "58.0"]) by
      decide +kernel)
    (show _ = Except.ok (ascii "^S014BUCD510,580") by decide +kernel)).mpr
      (fun h => h.2.1) rfl).2

/-- `set-ac-charge-time 65537:00 2:00` gives the frame of `set-ac-charge-time 1:00 2:00`. -/
theorem requests_ambiguous : ¬ ∀ (m : Machine) (flags : Flags) (command command' : Bytes)
    (argv argv' : List Bytes) (c c' : CommandType) (args args' : List Bytes)
    (packed packed' : Bytes), validateInput m (getArgs argv) command = .ok (c, args) →
      packRequest m c args = .ok packed →
      validateInput m (getArgs argv') command' = .ok (c', args') →
      packRequest m c' args' = .ok packed' →
      Device.frame flags packed = Device.frame flags packed' →
        c = c' ∧ parameters c (typed c argv) = parameters c' (typed c' argv') := by
  intro h
  obtain ⟨-, hsame⟩ := h x86 Voltronic.defaultFlags (ascii "set-ac-charge-time")
    (ascii "set-ac-charge-time") [ascii "65537:00", ascii "2:00"] [ascii "1:00", ascii "2:00"]
    .setACChargeTimeBucket .setACChargeTimeBucket [ascii "1", ascii "0", ascii "2", ascii "0"]
    [ascii "1", ascii "0", ascii "2", ascii "0"] _ _ (by decide) rfl (by decide) rfl rfl
  exact absurd hsame (by decide)

end InverterTools.P18
