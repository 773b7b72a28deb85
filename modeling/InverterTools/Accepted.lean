import InverterTools.Packing

/-! # Accepted arguments

What `validate_input` says about the arguments of a command that it accepts, and what
`packArguments` makes of them, case by case.  The `switch`es over the commands are looked into here
only; whatever else is said about accepted arguments follows from these lemmas. -/

namespace InverterTools.P18

theorem exists_of_length_six {l : List Bytes} (h : l.length = 6) :
    ∃ y mo d h mi s, l = [y, mo, d, h, mi, s] := by
  match l, h with
  | [y, mo, d, h, mi, s], _ => exact ⟨y, mo, d, h, mi, s, rfl⟩

/-! ### Numbers that were read -/

theorem stoi_of_isNumeric {s : Bytes} {w : ℕ} (h : isNumeric s = true) (hlen : s.length ≤ w)
    (hw : w ≤ 9) : stoi s = .ok (numVal s) ∧ numVal s < 10 ^ w := by
  obtain ⟨hne, hdigits⟩ := isNumeric_iff.mp h
  have hlt := numVal_lt_pow hdigits
  have hle : 10 ^ s.length ≤ 10 ^ w := Nat.pow_le_pow_right (by norm_num) hlen
  have hle9 : 10 ^ w ≤ 10 ^ 9 := Nat.pow_le_pow_right (by norm_num) hw
  exact ⟨stoi_allDigits hdigits hne (by omega), by omega⟩

theorem stoi_decimal {n : ℕ} (h : n < 2 ^ 31) : stoi (decimal n) = .ok n := by
  have hne : decimal n ≠ [] := List.ne_nil_of_length_pos (decimal_length_pos n)
  rw [stoi_allDigits (allDigits_decimal n) hne (by rwa [numVal_decimal]), numVal_decimal]

/-- The second reading of a number that was checked as `unsigned` gives the same number. -/
theorem stoi_of_stou {s : Bytes} {n : ℕ} {z : ℤ} (hu : stou s = .ok n) (hi : stoi s = .ok z)
    (hn : n < 2 ^ 31) : z = n := by
  obtain ⟨k, hk, rfl⟩ := map_eq_ok.mp hu
  exact stoi_of_toUnsigned hk hi hn

theorem twoDigits_eq_ok {lo hi z : ℤ} {err : String} {s : Bytes}
    (h : twoDigits lo hi err (some s) = .ok z) : stoi s = .ok z ∧ lo ≤ z ∧ z ≤ hi := by
  simp only [twoDigits, bind_eq_ok, pure_eq_ok, check_eq_ok, decide_eq_true_eq] at h
  obtain ⟨-, -, n, hn, -, hrange, rfl⟩ := h
  exact ⟨hn, hrange⟩

theorem validateDateArgs_eq_ok {ys : Bytes} {ms ds : Option Bytes} {u : Unit}
    (h : validateDateArgs ys ms ds = .ok u) :
    (isNumeric ys = true ∧ ys.length = 4) ∧ (∃ y, stoi ys = .ok y ∧ 2000 ≤ y ∧ y ≤ 2099) ∧
      (∃ mo, twoDigits 1 12 "invalid month" ms = .ok mo) ∧
      ∃ d, twoDigits 1 31 "invalid day" ds = .ok d := by
  simp only [validateDateArgs, bind_eq_ok, check_eq_ok, Bool.and_eq_true, decide_eq_true_eq] at h
  obtain ⟨-, hys, y, hy, -, hrange, mo, hmo, d, hd, -⟩ := h
  exact ⟨hys, ⟨y, hy, hrange⟩, ⟨mo, hmo⟩, d, hd⟩

theorem validateClockArg_eq_ok {s : Bytes} {hi : ℕ} {err : String} {u : Unit}
    (h : validateClockArg s hi err = .ok u) : ∃ n : ℕ, stoi s = .ok n ∧ n < 10 ^ 2 ∧ n ≤ hi := by
  simp only [validateClockArg, bind_eq_ok, check_eq_ok, Bool.and_eq_true, decide_eq_true_eq] at h
  obtain ⟨-, ⟨hnum, hlen⟩, n, hn, hle⟩ := h
  obtain ⟨hi', hlt⟩ := stoi_of_isNumeric hnum hlen (by norm_num)
  obtain ⟨hne, hdigits⟩ := isNumeric_iff.mp hnum
  rw [stoul_allDigits hdigits hne (by omega)] at hn
  obtain rfl := Except.ok.inj hn
  rw [toUnsigned, Nat.mod_eq_of_lt (by omega)] at hle
  exact ⟨numVal s, hi', hlt, hle⟩

theorem oneOf_eq_ok {allowed : List String} {a : Bytes} {err : String} {u : Unit}
    (h : oneOf allowed a err = .ok u) : ∃ t ∈ allowed, a = ascii t := by
  simp only [oneOf, check_eq_ok, List.any_eq_true, beq_iff_eq] at h
  obtain ⟨t, ht, heq⟩ := h
  exact ⟨t, ht, heq.symm⟩

section

variable {m : Machine} {args : List Bytes}

/-- A time bucket: the texts of its four numbers, and the numbers as they were cast. -/
theorem bucketArgs_parts {start stop : Bytes} (h : bucketArgs start stop = .ok args) :
    ∃ th tm th' tm' : Bytes, split start 0x3A = [th, tm] ∧ split stop 0x3A = [th', tm'] ∧
      ∃ h1 m1 h2 m2 : ℕ, (stouh th = .ok h1 ∧ stouh tm = .ok m1 ∧ stouh th' = .ok h2 ∧
        stouh tm' = .ok m2) ∧ (h1 ≤ 23 ∧ m1 ≤ 59 ∧ h2 ≤ 23 ∧ m2 ≤ 59) ∧
        args = [decimal h1, decimal m1, decimal h2, decimal m2] := by
  simp only [bucketArgs, bind_eq_ok, pure_eq_ok, check_eq_ok, decide_eq_true_eq] at h
  obtain ⟨-, hstart, -, hstop, h1, eh1, m1, em1, -, ⟨hh1, hm1⟩, h2, eh2, m2, em2, -, ⟨hh2, hm2⟩,
    rfl⟩ := h
  obtain ⟨th, tm, hs⟩ := List.length_eq_two.mp hstart
  obtain ⟨th', tm', hs'⟩ := List.length_eq_two.mp hstop
  rw [hs] at eh1 em1
  rw [hs'] at eh2 em2
  exact ⟨th, tm, th', tm', hs, hs', h1, m1, h2, m2, ⟨eh1, em1, eh2, em2⟩, ⟨hh1, hm1, hh2, hm2⟩, rfl⟩

theorem bucketArgs_eq_ok {start stop : Bytes} (h : bucketArgs start stop = .ok args) :
    ∃ h1 m1 h2 m2 : ℕ, h1 ≤ 23 ∧ m1 ≤ 59 ∧ h2 ≤ 23 ∧ m2 ≤ 59 ∧
      args = [decimal h1, decimal m1, decimal h2, decimal m2] := by
  obtain ⟨-, -, -, -, -, -, h1, m1, h2, m2, -, ⟨hh1, hm1, hh2, hm2⟩, hargs⟩ := bucketArgs_parts h
  exact ⟨h1, m1, h2, m2, hh1, hm1, hh2, hm2, hargs⟩

/-! ### The arguments of each command -/

theorem getYearGenerated_accepted {y : Bytes}
    (h : validateArgs m .getYearGenerated [y] = .ok args) :
    validateDateArgs y none none = .ok () ∧ args = [y] := by
  unfold validateArgs at h
  simp only [bind_eq_ok, pure_eq_ok, List.getD_cons_zero] at h
  obtain ⟨_, hdate, rfl⟩ := h
  exact ⟨hdate, rfl⟩

theorem getMonthGenerated_accepted {y mo : Bytes}
    (h : validateArgs m .getMonthGenerated [y, mo] = .ok args) :
    validateDateArgs y (some mo) none = .ok () ∧ args = [y, mo] := by
  unfold validateArgs at h
  simp only [bind_eq_ok, pure_eq_ok, List.getD_cons_zero, List.getD_cons_succ] at h
  obtain ⟨_, hdate, rfl⟩ := h
  exact ⟨hdate, rfl⟩

theorem getDayGenerated_accepted {y mo d : Bytes}
    (h : validateArgs m .getDayGenerated [y, mo, d] = .ok args) :
    validateDateArgs y (some mo) (some d) = .ok () ∧ args = [y, mo, d] := by
  unfold validateArgs at h
  simp only [bind_eq_ok, pure_eq_ok, List.getD_cons_zero, List.getD_cons_succ] at h
  obtain ⟨_, hdate, rfl⟩ := h
  exact ⟨hdate, rfl⟩

theorem getParallel_accepted {c : CommandType}
    (hc : c = .getParallelRatedInformation ∨ c = .getParallelGeneralStatus) {a : Bytes}
    (h : validateArgs m c [a] = .ok args) :
    isNumeric a = true ∧ a.length ≤ 1 ∧ args = [a] := by
  rcases hc with rfl | rfl <;>
  · unfold validateArgs at h
    simp only [bind_eq_ok, pure_eq_ok, check_eq_ok, Bool.and_eq_true, decide_eq_true_eq,
      List.getD_cons_zero] at h
    obtain ⟨_, ⟨hnum, hlen⟩, rfl⟩ := h
    exact ⟨hnum, hlen, rfl⟩

theorem setACSupply_accepted {a : Bytes} (h : validateArgs m .setACSupply [a] = .ok args) :
    (∃ t ∈ ["0", "1"], a = ascii t) ∧ args = [a] := by
  unfold validateArgs at h
  simp only [bind_eq_ok, pure_eq_ok, List.getD_cons_zero] at h
  obtain ⟨_, hone, rfl⟩ := h
  exact ⟨oneOf_eq_ok hone, rfl⟩

theorem setFlag_accepted {a b : Bytes} (h : validateArgs m .setFlag [a, b] = .ok args) :
    ∃ f ∈ flags, ascii f.flag = a ∧ (∃ t ∈ ["0", "1"], b = ascii t) ∧
      args = [[UInt8.ofNat f.letter.toNat], b] := by
  unfold validateArgs at h
  simp only at h
  split at h
  · cases h
  · next f hf =>
      simp only [bind_eq_ok, pure_eq_ok] at h
      obtain ⟨_, hone, rfl⟩ := h
      have hname : (ascii f.flag == a) = true := (List.find?_eq_some_iff_append.mp hf).1
      exact ⟨f, List.mem_of_find?_eq_some hf, beq_iff_eq.mp hname, oneOf_eq_ok hone, rfl⟩

theorem setBatteryMaxCurrent_accepted {c : CommandType}
    (hc : c = .setBatteryMaxChargeCurrent ∨ c = .setBatteryMaxACChargeCurrent) {a b : Bytes}
    (h : validateArgs m c [a, b] = .ok args) :
    ∃ id amps, stou a = .ok id ∧ stou b = .ok amps ∧ id ≤ 6 ∧ amps ≤ 999 ∧ args = [a, b] := by
  rcases hc with rfl | rfl <;>
  · unfold validateArgs at h
    simp only [bind_eq_ok, pure_eq_ok, check_eq_ok, decide_eq_true_eq, isValidParallelId,
      List.getD_cons_zero, List.getD_cons_succ] at h
    obtain ⟨id, hid, amps, hamps, _, hle, _, hle', rfl⟩ := h
    exact ⟨id, amps, hid, hamps, hle, hle', rfl⟩

theorem setACOutputFreq_accepted {a : Bytes} (h : validateArgs m .setACOutputFreq [a] = .ok args) :
    (∃ t ∈ ["50", "60"], a = ascii t) ∧ args = [a] := by
  unfold validateArgs at h
  simp only [bind_eq_ok, pure_eq_ok, List.getD_cons_zero] at h
  obtain ⟨_, hone, rfl⟩ := h
  exact ⟨oneOf_eq_ok hone, rfl⟩

theorem setBatteryMaxChargeVoltage_accepted {a b : Bytes}
    (h : validateArgs m .setBatteryMaxChargeVoltage [a, b] = .ok args) :
    ∃ v w, stof m a = .ok v ∧ stof m b = .ok w ∧ voltageIn v 48.0 58.4 "invalid CV" = .ok () ∧
      voltageIn w 48.0 58.4 "invalid FV" = .ok () ∧ args = [a, b] := by
  unfold validateArgs at h
  simp only [bind_eq_ok, pure_eq_ok, List.getD_cons_zero, List.getD_cons_succ] at h
  obtain ⟨v, hv, w, hw, _, hcv, _, hfv, rfl⟩ := h
  exact ⟨v, w, hv, hw, hcv, hfv, rfl⟩

theorem setACOutputVoltage_accepted {a : Bytes}
    (h : validateArgs m .setACOutputVoltage [a] = .ok args) :
    ∃ v ∈ acOutputVoltages, stou a = .ok v ∧ args = [a] := by
  unfold validateArgs at h
  simp only [bind_eq_ok, pure_eq_ok, check_eq_ok, List.contains_iff_mem, List.getD_cons_zero] at h
  obtain ⟨v, hv, _, hmem, rfl⟩ := h
  exact ⟨v, hmem, hv, rfl⟩

theorem setBatteryChargeThresholds_accepted {a b : Bytes}
    (h : validateArgs m .setBatteryChargeThresholds [a, b] = .ok args) :
    ∃ v w, stof m a = .ok v ∧ stof m b = .ok w ∧
      voltageListed v [batACRechargeVoltages12V, batACRechargeVoltages24V,
        batACRechargeVoltages48V] "invalid CV" = .ok () ∧
      voltageListed w [batACRedischargeVoltages12V, batACRedischargeVoltages24V,
        batACRedischargeVoltages48V] "invalid DV" = .ok () ∧ args = [a, b] := by
  unfold validateArgs at h
  simp only [bind_eq_ok, pure_eq_ok, List.getD_cons_zero, List.getD_cons_succ] at h
  obtain ⟨v, hv, w, hw, _, hcv, _, hdv, rfl⟩ := h
  exact ⟨v, w, hv, hw, hcv, hdv, rfl⟩

theorem setChargeSourcePriority_accepted {a b : Bytes}
    (h : validateArgs m .setChargeSourcePriority [a, b] = .ok args) :
    ∃ id index, stou a = .ok id ∧ id ≤ 6 ∧
      chooseIndex ["SF", "SU", "S"] b "invalid argument" = .ok index ∧ args = [a, index] := by
  unfold validateArgs at h
  simp only [bind_eq_ok, pure_eq_ok, check_eq_ok, decide_eq_true_eq, isValidParallelId,
    List.getD_cons_zero, List.getD_cons_succ] at h
  obtain ⟨id, hid, _, hle, index, hindex, rfl⟩ := h
  exact ⟨id, index, hid, hle, hindex, rfl⟩

theorem setOutputMode_accepted {a b : Bytes}
    (h : validateArgs m .setOutputMode [a, b] = .ok args) :
    ∃ id index, stou a = .ok id ∧ id ≤ 6 ∧
      chooseIndex ["S", "P", "1", "2", "3"] b "invalid model" = .ok index ∧
      args = [a, index] := by
  unfold validateArgs at h
  simp only [bind_eq_ok, pure_eq_ok, check_eq_ok, decide_eq_true_eq, isValidParallelId,
    List.getD_cons_zero, List.getD_cons_succ] at h
  obtain ⟨id, hid, _, hle, index, hindex, rfl⟩ := h
  exact ⟨id, index, hid, hle, hindex, rfl⟩

theorem setBatteryCutOffVoltage_accepted {a : Bytes}
    (h : validateArgs m .setBatteryCutOffVoltage [a] = .ok args) :
    ∃ v, stof m a = .ok v ∧ voltageIn v 40.0 48.0 "invalid voltage" = .ok () ∧ args = [a] := by
  unfold validateArgs at h
  simp only [bind_eq_ok, pure_eq_ok, List.getD_cons_zero] at h
  obtain ⟨v, hv, _, hcheck, rfl⟩ := h
  exact ⟨v, hv, hcheck, rfl⟩

theorem setSolarConfig_accepted {a : Bytes} (h : validateArgs m .setSolarConfig [a] = .ok args) :
    isNumeric a = true ∧ a.length ≤ 20 ∧ args = [a] := by
  unfold validateArgs at h
  simp only [bind_eq_ok, pure_eq_ok, check_eq_ok, Bool.and_eq_true, decide_eq_true_eq,
    List.getD_cons_zero] at h
  obtain ⟨_, ⟨hnum, hlen⟩, rfl⟩ := h
  exact ⟨hnum, hlen, rfl⟩

theorem setDateTime_accepted {y mo d h mi s : Bytes}
    (hv : validateArgs m .setDateTime [y, mo, d, h, mi, s] = .ok args) :
    validateDateArgs y (some mo) (some d) = .ok () ∧ validateClockArg h 23 "invalid hour" = .ok () ∧
      validateClockArg mi 59 "invalid minute" = .ok () ∧
      validateClockArg s 59 "invalid second" = .ok () ∧ args = [y, mo, d, h, mi, s] := by
  unfold validateArgs at hv
  simp only [bind_eq_ok, pure_eq_ok, validateTimeArgs, List.getD_cons_zero, List.getD_cons_succ]
    at hv
  obtain ⟨_, hdate, _, ⟨_, hh, _, hmi, hs⟩, rfl⟩ := hv
  exact ⟨hdate, hh, hmi, hs, rfl⟩

end

/-! ### The argument field of each command -/

section

variable {m : Machine} {fields : Bytes}

theorem getMonthGenerated_packed {y mo : Bytes}
    (h : packArguments m .getMonthGenerated [y, mo] = .ok fields) :
    ∃ month, packInt 2 mo = .ok month ∧ fields = y ++ month := by
  unfold packArguments at h
  simp only [bind_eq_ok, pure_eq_ok, List.getD_cons_zero, List.getD_cons_succ] at h
  obtain ⟨month, hmonth, rfl⟩ := h
  exact ⟨month, hmonth, rfl⟩

theorem getDayGenerated_packed {y mo d : Bytes}
    (h : packArguments m .getDayGenerated [y, mo, d] = .ok fields) :
    ∃ month day, packInt 2 mo = .ok month ∧ packInt 2 d = .ok day ∧
      fields = y ++ month ++ day := by
  unfold packArguments at h
  simp only [bind_eq_ok, pure_eq_ok, List.getD_cons_zero, List.getD_cons_succ] at h
  obtain ⟨month, hmonth, day, hday, rfl⟩ := h
  exact ⟨month, day, hmonth, hday, rfl⟩

theorem setBatteryMaxCurrent_packed {c : CommandType}
    (hc : c = .setBatteryMaxChargeCurrent ∨ c = .setBatteryMaxACChargeCurrent) {a b : Bytes}
    (h : packArguments m c [a, b] = .ok fields) :
    ∃ f, packInt 3 b = .ok f ∧ fields = a ++ ascii "," ++ f := by
  rcases hc with rfl | rfl <;>
  · unfold packArguments at h
    simp only [bind_eq_ok, pure_eq_ok, List.getD_cons_zero, List.getD_cons_succ] at h
    obtain ⟨f, hf, rfl⟩ := h
    exact ⟨f, hf, rfl⟩

theorem twoVoltages_packed {c : CommandType} {a b : Bytes}
    (hc : c = .setBatteryMaxChargeVoltage ∨ c = .setBatteryChargeThresholds) :
    packArguments m c [a, b] = .ok fields ↔ ∃ f g, packVoltage m a = .ok f ∧
      packVoltage m b = .ok g ∧ fields = f ++ ascii "," ++ g := by
  rcases hc with rfl | rfl <;>
  · unfold packArguments
    simp only [bind_eq_ok, pure_eq_ok, List.getD_cons_zero, List.getD_cons_succ]
    constructor
    · rintro ⟨f, hf, g, hg, rfl⟩
      exact ⟨f, g, hf, hg, rfl⟩
    · rintro ⟨f, g, hf, hg, rfl⟩
      exact ⟨f, hf, g, hg, rfl⟩

theorem setDateTime_packed {y mo d h mi s : Bytes} :
    packArguments m .setDateTime [y, mo, d, h, mi, s] = .ok fields ↔
      ∃ year month day hour minute second, packDatePart 0 y = .ok year ∧
        packDatePart 1 mo = .ok month ∧ packDatePart 2 d = .ok day ∧ packDatePart 3 h = .ok hour ∧
        packDatePart 4 mi = .ok minute ∧ packDatePart 5 s = .ok second ∧
        fields = year ++ month ++ day ++ hour ++ minute ++ second := by
  unfold packArguments
  simp only [bind_eq_ok, pure_eq_ok, List.getD_cons_zero, List.getD_cons_succ]
  constructor
  · rintro ⟨f1, h1, f2, h2, f3, h3, f4, h4, f5, h5, f6, h6, rfl⟩
    exact ⟨f1, f2, f3, f4, f5, f6, h1, h2, h3, h4, h5, h6, rfl⟩
  · rintro ⟨f1, f2, f3, f4, f5, f6, h1, h2, h3, h4, h5, h6, rfl⟩
    exact ⟨f1, h1, f2, h2, f3, h3, f4, h4, f5, h5, f6, h6, rfl⟩

/-- The four numbers of an accepted time bucket are printed with a comma in the middle. -/
theorem timeBucket_packed {c : CommandType}
    (hc : c = .setACChargeTimeBucket ∨ c = .setACSupplyTimeBucket) {start stop : Bytes}
    {args : List Bytes} (hv : validateArgs m c [start, stop] = .ok args)
    (hp : packArguments m c args = .ok fields) :
    ∃ h1 m1 h2 m2 : ℕ, (h1 ≤ 23 ∧ m1 ≤ 59 ∧ h2 ≤ 23 ∧ m2 ≤ 59) ∧
      args = [decimal h1, decimal m1, decimal h2, decimal m2] ∧
      ∃ f1 f2 f3 f4, packInt 2 (decimal h1) = .ok f1 ∧ packInt 2 (decimal m1) = .ok f2 ∧
        packInt 2 (decimal h2) = .ok f3 ∧ packInt 2 (decimal m2) = .ok f4 ∧
        fields = f1 ++ f2 ++ ascii "," ++ f3 ++ f4 := by
  have hv' : bucketArgs start stop = .ok args := by
    rcases hc with rfl | rfl <;> exact hv
  obtain ⟨h1, m1, h2, m2, hh1, hm1, hh2, hm2, rfl⟩ := bucketArgs_eq_ok hv'
  refine ⟨h1, m1, h2, m2, ⟨hh1, hm1, hh2, hm2⟩, rfl, ?_⟩
  rcases hc with rfl | rfl <;>
  · unfold packArguments at hp
    simp only [bind_eq_ok, pure_eq_ok, List.getD_cons_zero, List.getD_cons_succ] at hp
    obtain ⟨f1, hf1, f2, hf2, f3, hf3, f4, hf4, rfl⟩ := hp
    exact ⟨f1, f2, f3, f4, hf1, hf2, hf3, hf4, rfl⟩

end

end InverterTools.P18
