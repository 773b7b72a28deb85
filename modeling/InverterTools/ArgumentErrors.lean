import InverterTools.Encoding
import InverterTools.Inverterctl

/-! # Which exceptions leave `validate_input`

`inverterctl` catches `std::invalid_argument` around the reading of the command line.  Dates and
clock times are checked for digits and length before they are read, but charge currents, machine
ids, voltages and time buckets are given to `std::stoul` and `std::stof` as they were typed, and
these also raise `std::out_of_range`.  `NumbersFit` says of the texts, in the order in which they
are read, that no number is too large; `validateInput_invalid_iff` that this is the exact
condition, for both front ends. -/

namespace InverterTools

/-- The exceptions a handler of `std::invalid_argument` takes. -/
def Exn.Invalid (e : Exn) : Prop := e.cls = .invalidArgument

/-! ### Conversions -/

section

variable {σ α β : Type} {scan : Bytes → Option σ} {fits : σ → Prop}

/-- A conversion of a text: without a number it raises `std::invalid_argument`, and a number that
does not fit raises something else. -/
def Converts (scan : Bytes → Option σ) (fits : σ → Prop) (s : Bytes) (x : Except Exn α) : Prop :=
  (scan s = none ∧ ∃ e, x = .error e ∧ e.Invalid) ∨
    ∃ n, scan s = some n ∧
      ((fits n ∧ ∃ a, x = .ok a) ∨ (¬ fits n ∧ ∃ e, x = .error e ∧ ¬ e.Invalid))

/-- The numbers at the heads of the texts fit, up to the first text without one. -/
def AllFit (scan : Bytes → Option σ) (fits : σ → Prop) : List Bytes → Prop
  | [] => True
  | s :: rest => ∀ n, scan s = some n → fits n ∧ AllFit scan fits rest

theorem Converts.map {s : Bytes} {x : Except Exn α} (h : Converts scan fits s x) (k : α → β) :
    Converts scan fits s (k <$> x) := by
  rcases h with ⟨hs, e, rfl, he⟩ | ⟨n, hs, ⟨hfit, a, rfl⟩ | ⟨hfit, e, rfl, he⟩⟩
  · exact .inl ⟨hs, e, rfl, he⟩
  · exact .inr ⟨n, hs, .inl ⟨hfit, k a, rfl⟩⟩
  · exact .inr ⟨n, hs, .inr ⟨hfit, e, rfl, he⟩⟩

/-- A text that is read first: what follows counts when the text has a number. -/
theorem Converts.bind_invalid_iff {s : Bytes} {x : Except Exn α} {f : α → Except Exn β}
    {Q : σ → Prop} (h : Converts scan fits s x)
    (hf : ∀ n a, scan s = some n → x = .ok a → (Raises Exn.Invalid (f a) ↔ Q n)) :
    Raises Exn.Invalid (x >>= f) ↔ ∀ n, scan s = some n → fits n ∧ Q n := by
  rcases h with ⟨hs, e, rfl, he⟩ | ⟨n, hs, ⟨hfit, a, rfl⟩ | ⟨hfit, e, rfl, he⟩⟩
  · refine iff_of_true (raises_error.mpr he) fun n hn => ?_
    rw [hs] at hn
    cases hn
  · refine (hf n a hs rfl).trans ⟨fun hrest m hm => ?_, fun hall => (hall n hs).2⟩
    obtain rfl := Option.some.inj (hs.symm.trans hm)
    exact ⟨hfit, hrest⟩
  · exact iff_of_false (fun hraises => he (raises_error.mp hraises)) fun hall =>
      hfit (hall n hs).1

theorem Converts.bind_allFit_iff {s : Bytes} {rest : List Bytes} {x : Except Exn α}
    {f : α → Except Exn β} (h : Converts scan fits s x)
    (hf : ∀ a, Raises Exn.Invalid (f a) ↔ AllFit scan fits rest) :
    Raises Exn.Invalid (x >>= f) ↔ AllFit scan fits (s :: rest) :=
  h.bind_invalid_iff fun _ a _ _ => hf a

end

/-- The integers at the heads of the texts fit `unsigned long`. -/
abbrev IntsFit : List Bytes → Prop := AllFit intValue FitsULong

/-- A number fits `float`: it does not overflow, and it is not tiny or it is exact. -/
def FloatText.Fits (m : P18.Machine) : FloatText → Prop
  | .num _ q => binary32.roundPos q < 2 ^ (binary32.emax + 1) ∧
      (¬ binary32.Tiny m.tinyAfterRounding q ∨ binary32.roundPos q = q)
  | _ => True

/-- The numbers at the heads of the texts fit `float`. -/
abbrev FloatsFit (m : P18.Machine) : List Bytes → Prop := AllFit scanFloat (FloatText.Fits m)

theorem not_invalid_outOfRange (name : Bytes) : ¬ Exn.Invalid ⟨.outOfRange, name⟩ := by
  intro h
  cases h

theorem strtoul_converts (name : String) (s : Bytes) :
    Converts intValue FitsULong s ((strtoul s).toExcept name) := by
  rw [strtoul_eq]
  cases hs : intValue s with
  | none => exact .inl ⟨hs, _, rfl, rfl⟩
  | some z =>
      refine .inr ⟨z, hs, ?_⟩
      dsimp only
      by_cases hz : FitsULong z
      · rw [if_pos hz]
        exact .inl ⟨hz, _, rfl⟩
      · rw [if_neg hz]
        exact .inr ⟨hz, _, rfl, not_invalid_outOfRange _⟩

theorem stoul_converts (s : Bytes) : Converts intValue FitsULong s (stoul s) :=
  strtoul_converts "stoul" s

theorem stof_converts (m : P18.Machine) (s : Bytes) :
    Converts scanFloat (FloatText.Fits m) s (stof m s) := by
  unfold stof strtod
  cases hs : scanFloat s with
  | none => exact .inl ⟨hs, _, rfl, rfl⟩
  | some x =>
      refine .inr ⟨x, hs, ?_⟩
      cases x with
      | nan => exact .inl ⟨trivial, _, rfl⟩
      | inf neg => exact .inl ⟨trivial, _, rfl⟩
      | num neg q =>
          dsimp only
          by_cases hover : (2 : ℚ) ^ (binary32.emax + 1) ≤ binary32.roundPos q
          · rw [if_pos hover]
            exact .inr ⟨fun h => absurd hover (not_le.mpr h.1), _, rfl, not_invalid_outOfRange _⟩
          rw [if_neg hover]
          by_cases hunder : binary32.Tiny m.tinyAfterRounding q ∧ binary32.roundPos q ≠ q
          · rw [if_pos hunder]
            refine .inr ⟨fun h => ?_, _, rfl, not_invalid_outOfRange _⟩
            rcases h.2 with hnormal | heq
            · exact hnormal hunder.1
            · exact hunder.2 heq
          · rw [if_neg hunder]
            refine .inl ⟨⟨not_le.mp hover, ?_⟩, _, rfl⟩
            by_contra hnot
            rw [not_or, not_not] at hnot
            exact hunder hnot

theorem stou_converts (s : Bytes) : Converts intValue FitsULong s (stou s) :=
  (stoul_converts s).map toUnsigned

theorem stouh_converts (s : Bytes) : Converts intValue FitsULong s (stouh s) :=
  (stoul_converts s).map toUShort

namespace P18

/-! ### The helpers of `validate_input` -/

theorem check_invalid (ok : Bool) (err : String) : Raises Exn.Invalid (check ok err) := by
  unfold check
  split_ifs
  · exact raises_ok ()
  · exact raises_error.mpr rfl

theorem check_bind_invalid_iff {α : Type} {ok : Bool} {err : String} {f : Unit → Except Exn α} :
    Raises Exn.Invalid (check ok err >>= f) ↔ (ok = true → Raises Exn.Invalid (f ())) := by
  rw [raises_bind_iff]
  simp only [check_invalid, true_and, check_eq_ok]
  exact ⟨fun h => h (), fun h _ => h⟩

theorem stoi_invalid {s : Bytes} {w : ℕ} (h : isNumeric s = true) (hlen : s.length ≤ w)
    (hw : w ≤ 9) : Raises Exn.Invalid (stoi s) := by
  rw [(stoi_of_isNumeric h hlen hw).1]
  exact raises_ok _

theorem twoDigits_invalid (lo hi : ℤ) (err : String) :
    ∀ s : Option Bytes, Raises Exn.Invalid (twoDigits lo hi err s)
  | none => raises_pure 0
  | some s => by
      unfold twoDigits
      apply check_bind_invalid_iff.mpr
      intro hs
      obtain ⟨hnum, hlen⟩ := (Bool.and_eq_true ..).mp hs
      apply raises_bind (stoi_invalid hnum (of_decide_eq_true hlen) (by norm_num))
      intro n
      apply check_bind_invalid_iff.mpr
      intro _
      exact raises_pure n

theorem validateDateArgs_invalid (ys : Bytes) (ms ds : Option Bytes) :
    Raises Exn.Invalid (validateDateArgs ys ms ds) := by
  unfold validateDateArgs
  apply check_bind_invalid_iff.mpr
  intro hs
  obtain ⟨hnum, hlen⟩ := (Bool.and_eq_true ..).mp hs
  apply raises_bind (stoi_invalid hnum (of_decide_eq_true hlen).le (by norm_num))
  intro y
  apply check_bind_invalid_iff.mpr
  intro _
  apply raises_bind (twoDigits_invalid 1 12 _ ms)
  intro m
  apply raises_bind (twoDigits_invalid 1 31 _ ds)
  intro d
  split_ifs
  · exact check_invalid _ _
  · exact raises_pure ()

theorem validateClockArg_invalid (s : Bytes) (hi : ℕ) (err : String) :
    Raises Exn.Invalid (validateClockArg s hi err) := by
  unfold validateClockArg
  apply check_bind_invalid_iff.mpr
  intro hs
  obtain ⟨hnum, hlen⟩ := (Bool.and_eq_true ..).mp hs
  obtain ⟨hne, hdigits⟩ := isNumeric_iff.mp hnum
  have hlt := (stoi_of_isNumeric hnum (of_decide_eq_true hlen) (by norm_num)).2
  rw [stoul_allDigits hdigits hne (by omega)]
  exact check_invalid _ _

theorem validateTimeArgs_invalid (hs ms ss : Bytes) :
    Raises Exn.Invalid (validateTimeArgs hs ms ss) := by
  unfold validateTimeArgs
  apply raises_bind (validateClockArg_invalid hs 23 _)
  intro _
  apply raises_bind (validateClockArg_invalid ms 59 _)
  intro _
  exact validateClockArg_invalid ss 59 _

theorem chooseIndex_invalid (allowed : List String) (arg : Bytes) (err : String) :
    Raises Exn.Invalid (chooseIndex allowed arg err) := by
  unfold chooseIndex
  cases indexOf (fun a b => ascii a == b) allowed arg with
  | none => exact raises_error.mpr rfl
  | some i => exact raises_ok _

theorem then_pure_invalid {α β : Type} {x : Except Exn α} (hx : Raises Exn.Invalid x) (f : α → β) :
    Raises Exn.Invalid (x >>= fun a => pure (f a)) :=
  raises_bind hx fun a => raises_pure (f a)

/-! ### Time buckets -/

/-- Both times are in two parts, the start is read and then checked as it was cast, and only then
the end is read. -/
def BucketFits (start stop : List Bytes) : Prop :=
  start.length = 2 → stop.length = 2 →
    ∀ h, intValue (start.getD 0 []) = some h → FitsULong h ∧
      ∀ m, intValue (start.getD 1 []) = some m → FitsULong m ∧
        (h % 2 ^ 16 ≤ 23 ∧ m % 2 ^ 16 ≤ 59 → IntsFit [stop.getD 0 [], stop.getD 1 []])

theorem stouh_intValue {s : Bytes} {z : ℤ} {n : ℕ} (hs : intValue s = some z)
    (hn : stouh s = .ok n) : (n : ℤ) = z % 2 ^ 16 := by
  obtain ⟨k, hk, rfl⟩ := map_eq_ok.mp hn
  obtain ⟨z', hz', -, hmod⟩ := strtoul_eq_ok_iff.mp (stoul_eq_ok.mp hk)
  obtain rfl := Option.some.inj (hs.symm.trans hz')
  unfold toUShort
  omega

theorem bucketArgs_invalid_iff (start stop : Bytes) : Raises Exn.Invalid (bucketArgs start stop) ↔
    BucketFits (split start 0x3A) (split stop 0x3A) := by
  unfold bucketArgs BucketFits
  rw [check_bind_invalid_iff, decide_eq_true_iff]
  refine imp_congr_right fun _ => ?_
  rw [check_bind_invalid_iff, decide_eq_true_iff]
  refine imp_congr_right fun _ => ?_
  refine (stouh_converts _).bind_invalid_iff fun h startHour hh hstartHour => ?_
  refine (stouh_converts _).bind_invalid_iff fun m startMinute hm hstartMinute => ?_
  have hhour := stouh_intValue hh hstartHour
  have hminute := stouh_intValue hm hstartMinute
  have hstart : startHour ≤ 23 ∧ startMinute ≤ 59 ↔ h % 2 ^ 16 ≤ 23 ∧ m % 2 ^ 16 ≤ 59 := by omega
  rw [check_bind_invalid_iff, decide_eq_true_iff, hstart]
  refine imp_congr_right fun _ => ?_
  refine (stouh_converts _).bind_allFit_iff fun endHour => ?_
  refine (stouh_converts _).bind_allFit_iff fun endMinute => ?_
  refine iff_of_true (check_bind_invalid_iff.mpr fun _ => ?_) trivial
  exact raises_pure _

/-! ### All commands -/

/-- Every number that `validate_input` comes to read among the arguments of a command fits. -/
def NumbersFit (m : Machine) (c : CommandType) (args : List Bytes) : Prop :=
  let arg := fun i => args.getD i []
  match c with
  | .setBatteryMaxChargeCurrent | .setBatteryMaxACChargeCurrent => IntsFit [arg 0, arg 1]
  | .setACOutputVoltage | .setChargeSourcePriority | .setOutputMode => IntsFit [arg 0]
  | .setBatteryMaxChargeVoltage | .setBatteryChargeThresholds => FloatsFit m [arg 0, arg 1]
  | .setBatteryCutOffVoltage => FloatsFit m [arg 0]
  | .setACChargeTimeBucket | .setACSupplyTimeBucket =>
      BucketFits (split (arg 0) 0x3A) (split (arg 1) 0x3A)
  | _ => True

section

variable {m : Machine}

theorem maxChargeCurrent_invalid_iff {args : List Bytes} :
    Raises Exn.Invalid (validateArgs m .setBatteryMaxChargeCurrent args) ↔
      IntsFit [args.getD 0 [], args.getD 1 []] := by
  refine (stou_converts _).bind_allFit_iff fun id => ?_
  refine (stou_converts _).bind_allFit_iff fun amps => ?_
  refine iff_of_true (check_bind_invalid_iff.mpr fun _ => ?_) trivial
  exact then_pure_invalid (check_invalid _ _) _

theorem voltages_invalid_iff {s t : Bytes} {check₁ check₂ : CFloat → Except Exn Unit}
    {args : List Bytes} (h₁ : ∀ v, Raises Exn.Invalid (check₁ v))
    (h₂ : ∀ v, Raises Exn.Invalid (check₂ v)) :
    Raises Exn.Invalid (do
      let v ← stof m s
      let w ← stof m t
      check₁ v
      check₂ w
      pure args) ↔ FloatsFit m [s, t] := by
  refine (stof_converts m _).bind_allFit_iff fun v => ?_
  refine (stof_converts m _).bind_allFit_iff fun w => ?_
  refine iff_of_true (raises_bind (h₁ v) fun _ => ?_) trivial
  exact then_pure_invalid (h₂ w) _

theorem idAndChoice_invalid_iff {s arg : Bytes} {allowed : List String} {err₁ err₂ : String}
    {f : Bytes → List Bytes} :
    Raises Exn.Invalid (do
      let id ← parallelId s
      check (isValidParallelId id) err₁
      let index ← chooseIndex allowed arg err₂
      pure (f index)) ↔ IntsFit [s] := by
  refine (stou_converts _).bind_allFit_iff fun id => ?_
  refine iff_of_true (check_bind_invalid_iff.mpr fun _ => ?_) trivial
  exact then_pure_invalid (chooseIndex_invalid _ _ _) _

theorem validateArgs_invalid_iff (c : CommandType) (args : List Bytes) :
    Raises Exn.Invalid (validateArgs m c args) ↔ NumbersFit m c args := by
  cases c with
  | getYearGenerated =>
      exact iff_of_true (then_pure_invalid (validateDateArgs_invalid _ _ _) _) trivial
  | getMonthGenerated =>
      exact iff_of_true (then_pure_invalid (validateDateArgs_invalid _ _ _) _) trivial
  | getDayGenerated =>
      exact iff_of_true (then_pure_invalid (validateDateArgs_invalid _ _ _) _) trivial
  | getParallelRatedInformation =>
      exact iff_of_true (then_pure_invalid (check_invalid _ _) _) trivial
  | getParallelGeneralStatus =>
      exact iff_of_true (then_pure_invalid (check_invalid _ _) _) trivial
  | setACSupply => exact iff_of_true (then_pure_invalid (check_invalid _ _) _) trivial
  | setFlag =>
      refine iff_of_true ?_ trivial
      unfold validateArgs
      dsimp only
      cases flags.find? (fun f => ascii f.flag == args.getD 0 []) with
      | none => exact raises_error.mpr rfl
      | some f => exact then_pure_invalid (check_invalid _ _) _
  | setBatteryMaxChargeCurrent => exact maxChargeCurrent_invalid_iff
  | setBatteryMaxACChargeCurrent => exact maxChargeCurrent_invalid_iff (m := m)
  | setACOutputFreq => exact iff_of_true (then_pure_invalid (check_invalid _ _) _) trivial
  | setBatteryMaxChargeVoltage =>
      exact voltages_invalid_iff (fun _ => check_invalid _ _) fun _ => check_invalid _ _
  | setACOutputVoltage =>
      refine (stou_converts _).bind_allFit_iff fun v => ?_
      exact iff_of_true (then_pure_invalid (check_invalid _ _) _) trivial
  | setOutputSourcePriority =>
      exact iff_of_true (then_pure_invalid (chooseIndex_invalid _ _ _) _) trivial
  | setBatteryChargeThresholds =>
      exact voltages_invalid_iff (fun _ => check_invalid _ _) fun _ => check_invalid _ _
  | setChargeSourcePriority => exact idAndChoice_invalid_iff
  | setSolarPowerPriority =>
      exact iff_of_true (then_pure_invalid (chooseIndex_invalid _ _ _) _) trivial
  | setACInputVoltageRange =>
      exact iff_of_true (then_pure_invalid (chooseIndex_invalid _ _ _) _) trivial
  | setBatteryType =>
      exact iff_of_true (then_pure_invalid (chooseIndex_invalid _ _ _) _) trivial
  | setOutputMode => exact idAndChoice_invalid_iff
  | setBatteryCutOffVoltage =>
      refine (stof_converts m _).bind_allFit_iff fun v => ?_
      exact iff_of_true (then_pure_invalid (check_invalid _ _) _) trivial
  | setSolarConfig => exact iff_of_true (then_pure_invalid (check_invalid _ _) _) trivial
  | setDateTime =>
      refine iff_of_true (raises_bind (validateDateArgs_invalid _ _ _) fun _ => ?_) trivial
      exact then_pure_invalid (validateTimeArgs_invalid _ _ _) _
  | setACChargeTimeBucket => exact bucketArgs_invalid_iff _ _
  | setACSupplyTimeBucket => exact bucketArgs_invalid_iff _ _
  | _ => exact iff_of_true (raises_pure args) trivial

/-- Over any source of arguments that itself raises `std::invalid_argument` only. -/
theorem validateInput_invalid_iff_of {getArgs : ℕ → Except Exn (List Bytes)}
    (hget : ∀ n, Raises Exn.Invalid (getArgs n)) (command : Bytes) :
    Raises Exn.Invalid (validateInput m getArgs command) ↔
      ∀ c given, clientCommand command = some c → givenArgs getArgs c = .ok given →
        NumbersFit m c given := by
  unfold validateInput
  cases clientCommand command with
  | none => exact iff_of_true (raises_error.mpr rfl) (by simp)
  | some c =>
      have hgiven : Raises Exn.Invalid (givenArgs getArgs c) := by
        unfold givenArgs
        cases argCount c with
        | none => exact raises_pure []
        | some n => exact hget n
      simp only [Option.some.injEq]
      rw [raises_bind_iff]
      constructor
      · rintro ⟨-, hargs⟩ d given rfl hd
        exact (validateArgs_invalid_iff _ given).mp (raises_bind_iff.mp (hargs given hd)).1
      · intro h
        refine ⟨hgiven, fun given hd => ?_⟩
        exact then_pure_invalid ((validateArgs_invalid_iff c given).mpr (h c given rfl hd)) _

end

theorem getArgs_invalid (argv : List Bytes) (count : ℕ) :
    Raises Exn.Invalid (getArgs argv count) := by
  unfold getArgs
  by_cases hlt : argv.length < count
  · rw [if_pos hlt]
    exact raises_error.mpr rfl
  · rw [if_neg hlt]
    exact raises_ok _

theorem takeArgs_invalid (count : ℕ) : ∀ (n : ℕ) (arguments argv : List Bytes),
    Raises Exn.Invalid (Inverterctl.takeArgs count n arguments argv)
  | 0, _, _ => raises_ok _
  | _ + 1, _, [] => raises_error.mpr rfl
  | n + 1, arguments, word :: argv => by
      unfold Inverterctl.takeArgs
      by_cases hword : Inverterctl.isArgument word = true
      · rw [if_pos hword]
        exact takeArgs_invalid count n _ argv
      · rw [if_neg hword]
        exact raises_error.mpr rfl

/-- **The exceptions of `validate_input`**, in the daemon and in `inverterctl`: whatever the
command and its arguments, it returns or raises `std::invalid_argument`, exactly when every number
that it comes to read fits its type. -/
theorem validateInput_invalid_iff (m : Machine) (command : Bytes) (argv : List Bytes) :
    (Raises Exn.Invalid (validateInput m (getArgs argv) command) ↔
      ∀ c given, clientCommand command = some c → givenArgs (getArgs argv) c = .ok given →
        NumbersFit m c given) ∧
    (Raises Exn.Invalid
        (validateInput m (fun count => Prod.fst <$> Inverterctl.takeArgs count count [] argv)
          command) ↔
      ∀ c given, clientCommand command = some c →
        givenArgs (fun count => Prod.fst <$> Inverterctl.takeArgs count count [] argv) c =
          .ok given → NumbersFit m c given) := by
  constructor
  · exact validateInput_invalid_iff_of (getArgs_invalid argv) command
  · refine validateInput_invalid_iff_of (fun count => ?_) command
    exact raises_map.mpr (takeArgs_invalid count count [] argv)

/-- `set-max-charge-current 18446744073709551616 10`: `std::stoul` raises `std::out_of_range`. -/
theorem validateInput_outOfRange :
    ¬ Raises Exn.Invalid
        (validateInput x86 (getArgs [ascii "18446744073709551616", ascii "10"])
          (ascii "set-max-charge-current")) ∧
      ¬ Raises Exn.Invalid
        (validateInput x86 (fun count => Prod.fst <$> Inverterctl.takeArgs count count []
          [ascii "18446744073709551616", ascii "10"]) (ascii "set-max-charge-current")) := by
  have hdaemon : validateInput x86 (getArgs [ascii "18446744073709551616", ascii "10"])
      (ascii "set-max-charge-current") = .error ⟨.outOfRange, ascii "stoul"⟩ := by
    decide
  have hctl : validateInput x86 (fun count => Prod.fst <$> Inverterctl.takeArgs count count []
      [ascii "18446744073709551616", ascii "10"]) (ascii "set-max-charge-current") =
        .error ⟨.outOfRange, ascii "stoul"⟩ := by
    decide
  rw [hdaemon, hctl]
  exact ⟨fun h => not_invalid_outOfRange _ (raises_error.mp h),
    fun h => not_invalid_outOfRange _ (raises_error.mp h)⟩

end P18

end InverterTools
