import InverterTools.Server
import InverterTools.Lib.Json

/-! # The texts of exceptions

Every exception that starts behind the first token of a request has a text of blanks and visible
ASCII characters: the checks of arguments, the number parsers, the packing, the device, the decoding
and the command server put only literals and numerals into their texts.  The proofs follow the
code, with one lemma for each function that can throw. -/

namespace InverterTools

/-- The text of the exception is ASCII. -/
def Exn.Ascii (e : Exn) : Prop := isAscii e.what = true

/-- The text of the exception has blanks and visible ASCII characters only. -/
def Exn.Printable (e : Exn) : Prop := isPrintable e.what = true

instance (e : Exn) : Decidable e.Ascii := inferInstanceAs (Decidable (_ = true))

instance (e : Exn) : Decidable e.Printable := inferInstanceAs (Decidable (_ = true))

theorem Exn.Printable.ascii {e : Exn} (h : e.Printable) : e.Ascii := isAscii_of_isPrintable h

/-! ### Number parsing -/

theorem toExcept_raises {α : Type} {name : String} (hname : isPrintable (ascii name) = true)
    (c : Conv α) : Raises Exn.Printable (c.toExcept name) := by
  cases c with
  | noConversion => exact raises_error.mpr hname
  | outOfRange => exact raises_error.mpr hname
  | ok a => exact raises_ok a

theorem stoul_raises (s : Bytes) : Raises Exn.Printable (stoul s) := toExcept_raises (by decide) _

theorem stof_raises (m : P18.Machine) (s : Bytes) : Raises Exn.Printable (stof m s) :=
  toExcept_raises (by decide) _

theorem stod_raises (m : P18.Machine) (s : Bytes) : Raises Exn.Printable (stod m s) :=
  toExcept_raises (by decide) _

theorem stoi_raises (s : Bytes) : Raises Exn.Printable (stoi s) := by
  unfold stoi
  cases strtol s with
  | noConversion => exact raises_error.mpr (by decide)
  | outOfRange => exact raises_error.mpr (by decide)
  | ok z =>
      dsimp only
      split_ifs
      · exact raises_error.mpr (by decide)
      · exact raises_ok z

theorem stou_raises (s : Bytes) : Raises Exn.Printable (stou s) := raises_map.mpr (stoul_raises s)

theorem stouh_raises (s : Bytes) : Raises Exn.Printable (stouh s) := raises_map.mpr (stoul_raises s)

/-! ### Arguments -/

namespace P18

theorem check_raises (ok : Bool) {err : String} (herr : isPrintable (ascii err) = true) :
    Raises Exn.Printable (check ok err) := by
  unfold check
  split_ifs
  · exact raises_ok ()
  · exact raises_error.mpr herr

theorem oneOf_raises (allowed : List String) (arg : Bytes) {err : String}
    (herr : isPrintable (ascii err) = true) : Raises Exn.Printable (oneOf allowed arg err) :=
  check_raises _ herr

theorem twoDigits_raises (lo hi : ℤ) {err : String} (herr : isPrintable (ascii err) = true) :
    ∀ s : Option Bytes, Raises Exn.Printable (twoDigits lo hi err s)
  | none => raises_pure 0
  | some s => by
      unfold twoDigits
      refine raises_bind (check_raises _ herr) ?_
      intro _
      refine raises_bind (stoi_raises s) ?_
      intro n
      refine raises_bind (check_raises _ herr) ?_
      intro _
      exact raises_pure n

theorem validateDateArgs_raises (ys : Bytes) (ms ds : Option Bytes) :
    Raises Exn.Printable (validateDateArgs ys ms ds) := by
  unfold validateDateArgs
  refine raises_bind (check_raises _ (by decide)) ?_
  intro _
  refine raises_bind (stoi_raises ys) ?_
  intro y
  refine raises_bind (check_raises _ (by decide)) ?_
  intro _
  refine raises_bind (twoDigits_raises 1 12 (by decide) ms) ?_
  intro m
  refine raises_bind (twoDigits_raises 1 31 (by decide) ds) ?_
  intro d
  split_ifs
  · exact check_raises _ (by decide)
  · exact raises_pure ()

theorem validateClockArg_raises (s : Bytes) (hi : ℕ) {err : String}
    (herr : isPrintable (ascii err) = true) : Raises Exn.Printable (validateClockArg s hi err) := by
  unfold validateClockArg
  refine raises_bind (check_raises _ herr) ?_
  intro _
  refine raises_bind (stoul_raises s) ?_
  intro n
  exact check_raises _ herr

theorem validateTimeArgs_raises (hs ms ss : Bytes) :
    Raises Exn.Printable (validateTimeArgs hs ms ss) := by
  unfold validateTimeArgs
  refine raises_bind (validateClockArg_raises hs 23 (by decide)) ?_
  intro _
  refine raises_bind (validateClockArg_raises ms 59 (by decide)) ?_
  intro _
  exact validateClockArg_raises ss 59 (by decide)

theorem chooseIndex_raises (allowed : List String) (arg : Bytes) {err : String}
    (herr : isPrintable (ascii err) = true) :
    Raises Exn.Printable (chooseIndex allowed arg err) := by
  unfold chooseIndex
  cases indexOf (fun a b => ascii a == b) allowed arg with
  | none => exact raises_error.mpr herr
  | some i => exact raises_ok _

theorem bucketArgs_raises (start stop : Bytes) : Raises Exn.Printable (bucketArgs start stop) := by
  unfold bucketArgs
  refine raises_bind (check_raises _ (by decide)) ?_
  intro _
  refine raises_bind (check_raises _ (by decide)) ?_
  intro _
  refine raises_bind (stouh_raises _) ?_
  intro startHour
  refine raises_bind (stouh_raises _) ?_
  intro startMinute
  refine raises_bind (check_raises _ (by decide)) ?_
  intro _
  refine raises_bind (stouh_raises _) ?_
  intro endHour
  refine raises_bind (stouh_raises _) ?_
  intro endMinute
  refine raises_bind (check_raises _ (by decide)) ?_
  intro _
  exact raises_pure _

theorem then_pure_raises {α β : Type} {x : Except Exn α} (hx : Raises Exn.Printable x) (f : α → β) :
    Raises Exn.Printable (x >>= fun a => pure (f a)) :=
  raises_bind hx fun a => raises_pure (f a)

theorem validateArgs_raises (m : Machine) (c : CommandType) (args : List Bytes) :
    Raises Exn.Printable (validateArgs m c args) := by
  cases c with
  | getYearGenerated => exact then_pure_raises (validateDateArgs_raises _ _ _) _
  | getMonthGenerated => exact then_pure_raises (validateDateArgs_raises _ _ _) _
  | getDayGenerated => exact then_pure_raises (validateDateArgs_raises _ _ _) _
  | getParallelRatedInformation => exact then_pure_raises (check_raises _ (by decide)) _
  | getParallelGeneralStatus => exact then_pure_raises (check_raises _ (by decide)) _
  | setACSupply => exact then_pure_raises (oneOf_raises _ _ (by decide)) _
  | setFlag =>
      unfold validateArgs
      dsimp only
      cases flags.find? (fun f => ascii f.flag == args.getD 0 []) with
      | none => exact raises_error.mpr (by decide)
      | some f => exact then_pure_raises (oneOf_raises _ _ (by decide)) _
  | setBatteryMaxChargeCurrent =>
      exact raises_bind (raises_map.mpr (stoul_raises _)) fun _ =>
        raises_bind (stou_raises _) fun _ =>
        raises_bind (check_raises _ (by decide)) fun _ =>
        then_pure_raises (check_raises _ (by decide)) _
  | setBatteryMaxACChargeCurrent =>
      exact raises_bind (raises_map.mpr (stoul_raises _)) fun _ =>
        raises_bind (stou_raises _) fun _ =>
        raises_bind (check_raises _ (by decide)) fun _ =>
        then_pure_raises (check_raises _ (by decide)) _
  | setACOutputFreq => exact then_pure_raises (oneOf_raises _ _ (by decide)) _
  | setBatteryMaxChargeVoltage =>
      exact raises_bind (stof_raises m _) fun _ =>
        raises_bind (stof_raises m _) fun _ =>
        raises_bind (check_raises _ (by decide)) fun _ =>
        then_pure_raises (check_raises _ (by decide)) _
  | setACOutputVoltage =>
      exact raises_bind (stou_raises _) fun _ => then_pure_raises (check_raises _ (by decide)) _
  | setOutputSourcePriority => exact then_pure_raises (chooseIndex_raises _ _ (by decide)) _
  | setBatteryChargeThresholds =>
      exact raises_bind (stof_raises m _) fun _ =>
        raises_bind (stof_raises m _) fun _ =>
        raises_bind (check_raises _ (by decide)) fun _ =>
        then_pure_raises (check_raises _ (by decide)) _
  | setChargeSourcePriority =>
      exact raises_bind (raises_map.mpr (stoul_raises _)) fun _ =>
        raises_bind (check_raises _ (by decide)) fun _ =>
        then_pure_raises (chooseIndex_raises _ _ (by decide)) _
  | setSolarPowerPriority => exact then_pure_raises (chooseIndex_raises _ _ (by decide)) _
  | setACInputVoltageRange => exact then_pure_raises (chooseIndex_raises _ _ (by decide)) _
  | setBatteryType => exact then_pure_raises (chooseIndex_raises _ _ (by decide)) _
  | setOutputMode =>
      exact raises_bind (raises_map.mpr (stoul_raises _)) fun _ =>
        raises_bind (check_raises _ (by decide)) fun _ =>
        then_pure_raises (chooseIndex_raises _ _ (by decide)) _
  | setBatteryCutOffVoltage =>
      exact raises_bind (stof_raises m _) fun _ => then_pure_raises (check_raises _ (by decide)) _
  | setSolarConfig => exact then_pure_raises (check_raises _ (by decide)) _
  | setDateTime =>
      exact raises_bind (validateDateArgs_raises _ _ _) fun _ =>
        then_pure_raises (validateTimeArgs_raises _ _ _) _
  | setACChargeTimeBucket => exact bucketArgs_raises _ _
  | setACSupplyTimeBucket => exact bucketArgs_raises _ _
  | _ => exact raises_pure args

theorem getArgs_raises (argv : List Bytes) (count : ℕ) :
    Raises Exn.Printable (getArgs argv count) := by
  unfold getArgs
  split_ifs
  · refine raises_error.mpr ?_
    simp only [Exn.Printable, isPrintable_append, isPrintable_decimal]
    decide
  · refine raises_error.mpr ?_
    simp only [Exn.Printable, isPrintable_append, isPrintable_decimal]
    decide
  · exact raises_ok _

/-- Whatever `validate_input` throws is printable, when the errors of `get_args` are. -/
theorem validateInput_raises_of {m : Machine} {getArgs : ℕ → Except Exn (List Bytes)}
    (hget : ∀ n, Raises Exn.Printable (getArgs n)) (command : Bytes) :
    Raises Exn.Printable (validateInput m getArgs command) := by
  unfold validateInput
  cases clientCommand command with
  | none => exact raises_error.mpr (by decide)
  | some c =>
      have hgiven : Raises Exn.Printable (givenArgs getArgs c) := by
        unfold givenArgs
        cases argCount c with
        | none => exact raises_pure []
        | some n => exact hget n
      exact raises_bind hgiven fun given =>
        raises_bind (validateArgs_raises m c given) fun args => raises_pure (c, args)

theorem validateInput_raises {m : Machine} (argv : List Bytes) (command : Bytes) :
    Raises Exn.Printable (validateInput m (getArgs argv) command) :=
  validateInput_raises_of (getArgs_raises argv) command

/-! ### Packing -/

theorem packDatePart_raises (i : ℕ) (arg : Bytes) : Raises Exn.Printable (packDatePart i arg) :=
  raises_map.mpr (stoi_raises arg)

theorem packInt_raises (w : ℕ) (arg : Bytes) : Raises Exn.Printable (packInt w arg) :=
  raises_map.mpr (stoi_raises arg)

theorem packVoltage_raises (m : Machine) (arg : Bytes) : Raises Exn.Printable (packVoltage m arg) :=
  raises_map.mpr (stod_raises m arg)

theorem packArguments_raises (m : Machine) (c : CommandType) (args : List Bytes) :
    Raises Exn.Printable (packArguments m c args) := by
  cases c with
  | getMonthGenerated => exact then_pure_raises (packInt_raises _ _) _
  | getDayGenerated =>
      exact raises_bind (packInt_raises _ _) fun _ => then_pure_raises (packInt_raises _ _) _
  | getParallelGeneralStatus => exact raises_map.mpr (stoi_raises _)
  | getParallelRatedInformation => exact raises_map.mpr (stoi_raises _)
  | setBatteryMaxChargeCurrent => exact then_pure_raises (packInt_raises _ _) _
  | setBatteryMaxACChargeCurrent => exact then_pure_raises (packInt_raises _ _) _
  | setACOutputFreq => exact packInt_raises _ _
  | setBatteryMaxChargeVoltage =>
      exact raises_bind (packVoltage_raises m _) fun _ =>
        then_pure_raises (packVoltage_raises m _) _
  | setBatteryChargeThresholds =>
      exact raises_bind (packVoltage_raises m _) fun _ =>
        then_pure_raises (packVoltage_raises m _) _
  | setACOutputVoltage => exact raises_map.mpr (stoi_raises _)
  | setBatteryCutOffVoltage => exact packVoltage_raises m _
  | setDateTime =>
      exact raises_bind (packDatePart_raises 0 _) fun _ =>
        raises_bind (packDatePart_raises 1 _) fun _ =>
        raises_bind (packDatePart_raises 2 _) fun _ =>
        raises_bind (packDatePart_raises 3 _) fun _ =>
        raises_bind (packDatePart_raises 4 _) fun _ =>
        then_pure_raises (packDatePart_raises 5 _) _
  | setACChargeTimeBucket =>
      exact raises_bind (packInt_raises 2 _) fun _ =>
        raises_bind (packInt_raises 2 _) fun _ =>
        raises_bind (packInt_raises 2 _) fun _ => then_pure_raises (packInt_raises 2 _) _
  | setACSupplyTimeBucket =>
      exact raises_bind (packInt_raises 2 _) fun _ =>
        raises_bind (packInt_raises 2 _) fun _ =>
        raises_bind (packInt_raises 2 _) fun _ => then_pure_raises (packInt_raises 2 _) _
  | _ => exact raises_pure _

theorem packRequest_raises (m : Machine) (c : CommandType) (args : List Bytes) :
    Raises Exn.Printable (packRequest m c args) := by
  obtain ⟨raw, hraw, -⟩ := exists_rawCommand c
  unfold packRequest
  rw [hraw]
  exact then_pure_raises (packArguments_raises m c args) _

end P18

/-! ### The device -/

namespace Voltronic.Device

variable (dev : Device) (started : UInt64)

theorem timeoutError_printable {step : String} (hstep : isPrintable (ascii step) = true)
    (late : UInt64) : (timeoutError step started late).Printable := by
  simp only [Exn.Printable, timeoutError, isPrintable_append, isPrintable_decimal, hstep]
  decide

theorem readLoop_throws (es : List ReadEvent) (s : ReadState) :
    (dev.readLoop started es s).outcome.Throws Exn.Printable := by
  induction es generalizing s with
  | nil => exact Outcome.throws_pending
  | cons e es ih =>
      unfold readLoop
      cases hr : dev.driver.read e.code with
      | error x => exact Outcome.throws_throw.mpr (dev.driver.read_raises _ (by decide) x hr)
      | ok n =>
          dsimp only
          cases scanBytes n { s with mem := splice s.mem s.pos e.data } with
          | outside => exact Outcome.throws_fault
          | found size => exact Outcome.throws_ret size
          | more s' =>
              dsimp only
              split_ifs
              · exact Outcome.throws_throw.mpr (timeoutError_printable started (by decide) e.late)
              · exact Outcome.throws_throw.mpr (by decide)
              · exact ih s'

theorem checkResponse_raises (flags : Flags) (buf : Bytes) (bytesRead : ℕ) :
    Raises Exn.Printable (checkResponse flags buf bytesRead) := by
  unfold checkResponse
  dsimp only
  split_ifs
  · exact raises_error.mpr (by decide)
  · exact raises_ok _
  · refine raises_error.mpr ?_
    simp only [Exn.Printable, isPrintable_append, isPrintable_hexNumeral]
    decide
  · exact raises_error.mpr (by decide)
  · exact raises_ok _

theorem run_throws (env : Script) (inbuf outbuf : Bytes) :
    (dev.run env inbuf outbuf).outcome.Throws Exn.Printable := by
  unfold run
  cases hs : (dev.send env.started inbuf env.writes).outcome with
  | throw x =>
      simp only [hs]
      have hsend : (dev.send env.started inbuf env.writes).outcome.Throws Exn.Printable :=
        dev.writeLoop_throws env.started (by decide)
          (timeoutError_printable env.started (by decide)) _ _ _ _ _
      exact Outcome.throws_throw.mpr (hsend x hs)
  | fault =>
      simp only [hs]
      exact Outcome.throws_fault
  | pending =>
      simp only [hs]
      exact Outcome.throws_pending
  | ret u =>
      simp only [hs]
      split_ifs
      · refine Outcome.throws_throw.mpr ?_
        exact timeoutError_printable env.started (by decide) env.sentLate
      · refine Outcome.throws_bind (readLoop_throws dev _ _ _) ?_
        intro n
        exact Outcome.throws_lift.mpr (checkResponse_raises _ _ n)

end Voltronic.Device

/-! ### Decoding -/

namespace P18

theorem isPrintable_typeName (c : CommandType) : isPrintable (ascii (typeName c)) = true := by
  cases c <;> decide

theorem parseError_printable (c : CommandType) {text : Bytes} (h : isPrintable text = true) :
    (parseError c text).Printable := by
  simp only [Exn.Printable, parseError, isPrintable_append, isPrintable_typeName, h]
  decide

theorem isPrintable_fieldLength (l : FieldLength) : isPrintable l.put = true := by
  unfold FieldLength.put
  split_ifs
  · exact isPrintable_decimal _
  · simp only [isPrintable_append, isPrintable_decimal]
    decide

theorem checkItems_raises (c : CommandType) (ls : List FieldLength) :
    ∀ (i : ℕ) (list : List Bytes), Raises Exn.Printable (checkItems c i ls list) := by
  induction ls with
  | nil =>
      intro i list
      exact raises_ok ()
  | cons l ls ih =>
      intro i list
      cases list with
      | nil => exact raises_ok ()
      | cons s list =>
          unfold checkItems
          split_ifs
          · exact ih (i + 1) list
          · refine raises_error.mpr (parseError_printable c ?_)
            simp only [isPrintable_append, isPrintable_decimal, isPrintable_fieldLength]
            decide

theorem checkList_raises (c : CommandType) (ls : List FieldLength) (k : ℕ) (list : List Bytes) :
    Raises Exn.Printable (checkList c ls k list) := by
  unfold checkList
  split_ifs
  · exact raises_ok ()
  · refine raises_error.mpr (parseError_printable c ?_)
    simp only [isPrintable_append, isPrintable_decimal]
    decide
  · exact checkItems_raises c ls 0 list

theorem getList_throws (c : CommandType) (rawSize : ℕ) (ls : List FieldLength) (k : ℕ) :
    (getList c rawSize ls k).Throws Exn.Printable :=
  Probe.throws_bind (Probe.throws_range _ _) fun buf =>
    Probe.throws_bind (Probe.throws_lift.mpr (checkList_raises c ls k (split buf 0x2C))) fun _ =>
    Probe.throws_pure _

theorem elementAt_throws (list : List Bytes) (i : ℕ) : (elementAt list i).Throws Exn.Printable := by
  unfold elementAt
  cases list[i]? with
  | none => exact Probe.throws_fault
  | some s => exact Probe.throws_pure s

theorem decode_raises (k : Kind) (s : Bytes) : Raises Exn.Printable (k.decode s) := by
  cases k with
  | number => exact raises_map.mpr (stou_raises s)
  | enum type => exact raises_map.mpr (stou_raises s)
  | flag => exact raises_map.mpr (stou_raises s)
  | char => exact raises_ok _
  | text => exact raises_ok _

theorem unpackItems_throws (list : List Bytes) (items : List Item) (i : ℕ) :
    (unpackItems list i items).Throws Exn.Printable := by
  induction items generalizing i with
  | nil => exact Probe.throws_pure []
  | cons item items ih =>
      exact Probe.throws_bind (elementAt_throws list i) fun s =>
        Probe.throws_bind (Probe.throws_lift.mpr (decode_raises item.kind s)) fun v =>
        Probe.throws_bind (ih (i + 1)) fun ms => Probe.throws_pure _

theorem unpackList_throws (c : CommandType) (rawSize : ℕ) (l : ListLayout) :
    (unpackList c rawSize l).Throws Exn.Printable := by
  rw [unpackList_eq]
  exact Probe.throws_bind (getList_throws c rawSize _ _) fun list =>
    Probe.throws_bind (unpackItems_throws list l.items 0) fun _ => Probe.throws_pure _

theorem numberAt_throws (off n : ℕ) : (numberAt off n).Throws Exn.Printable :=
  Probe.throws_bind (Probe.throws_range _ _) fun buf => Probe.throws_lift.mpr (stou_raises buf)

theorem bucketPart_throws (list : List Bytes) (i pos : ℕ) :
    (bucketPart list i pos).Throws Exn.Printable := by
  refine Probe.throws_bind (elementAt_throws list i) ?_
  intro s
  have hsubstr : Raises Exn.Printable (substr s pos 2) := by
    unfold substr
    split_ifs
    · refine raises_error.mpr ?_
      simp only [Exn.Printable, isPrintable_append, isPrintable_decimal]
      decide
    · exact raises_ok _
  exact Probe.throws_bind (Probe.throws_lift.mpr hsubstr) fun part =>
    Probe.throws_lift.mpr (stouh_raises part)

theorem unpackProtocolID_throws : unpackProtocolID.Throws Exn.Printable := by
  refine Probe.throws_bind (Probe.throws_byte 5) ?_
  intro b0
  have hid (s : Bytes) : (do
      let id ← Probe.lift (stou s)
      pure (.members [(.id, .unsigned id)]) : Probe Exn Decoded).Throws Exn.Printable :=
    Probe.throws_bind (Probe.throws_lift.mpr (stou_raises s)) fun id => Probe.throws_pure _
  dsimp only
  split_ifs
  · exact Probe.throws_bind (Probe.throws_pure []) hid
  · exact Probe.throws_bind (Probe.throws_byte 6) fun b1 =>
      Probe.throws_bind (Probe.throws_pure _) hid

theorem unpackCurrentTime_throws : unpackCurrentTime.Throws Exn.Printable :=
  Probe.throws_bind (numberAt_throws 0 4) fun _ =>
    Probe.throws_bind (numberAt_throws 4 2) fun _ =>
    Probe.throws_bind (numberAt_throws 6 2) fun _ =>
    Probe.throws_bind (numberAt_throws 8 2) fun _ =>
    Probe.throws_bind (numberAt_throws 10 2) fun _ =>
    Probe.throws_bind (numberAt_throws 12 2) fun _ => Probe.throws_pure _

theorem unpackTotalGenerated_throws : unpackTotalGenerated.Throws Exn.Printable :=
  Probe.throws_bind (numberAt_throws 0 8) fun _ => Probe.throws_pure _

theorem unpackSerialNumber_throws : unpackSerialNumber.Throws Exn.Printable := by
  refine Probe.throws_bind (Probe.throws_range 5 2) ?_
  intro buf
  refine Probe.throws_bind (Probe.throws_lift.mpr (stoul_raises buf)) ?_
  intro len
  split_ifs
  · exact Probe.throws_throw.mpr (by decide)
  · exact Probe.throws_bind (Probe.throws_range 7 len) fun id => Probe.throws_pure _

theorem unpackParallelGeneralStatus_throws (c : CommandType) (rawSize : ℕ) :
    (unpackParallelGeneralStatus c rawSize).Throws Exn.Printable := by
  rw [unpackParallelGeneralStatus_eq]
  refine Probe.throws_bind (getList_throws c rawSize _ _) ?_
  intro list
  refine Probe.throws_bind (unpackItems_throws list _ 0) ?_
  intro ms
  split_ifs
  · exact Probe.throws_bind (unpackItems_throws list _ 28) fun _ => Probe.throws_pure _
  · exact Probe.throws_pure _

theorem unpackACChargeTimeBucket_throws (c : CommandType) (rawSize : ℕ) :
    (unpackACChargeTimeBucket c rawSize).Throws Exn.Printable :=
  Probe.throws_bind (getList_throws c rawSize _ _) fun list =>
    Probe.throws_bind (bucketPart_throws list 0 0) fun _ =>
    Probe.throws_bind (bucketPart_throws list 0 2) fun _ =>
    Probe.throws_bind (bucketPart_throws list 1 0) fun _ =>
    Probe.throws_bind (bucketPart_throws list 1 2) fun _ => Probe.throws_pure _

theorem unpackAllowedChargeCurrents_throws (c : CommandType) (rawSize : ℕ) :
    (unpackAllowedChargeCurrents c rawSize).Throws Exn.Printable :=
  Probe.throws_bind (getList_throws c rawSize _ _) fun list =>
    Probe.throws_bind (Probe.throws_lift.mpr (raises_mapM stou_raises list)) fun _ =>
    Probe.throws_pure _

theorem unpackParallelRatedInformation_throws (c : CommandType) (rawSize : ℕ) :
    (unpackParallelRatedInformation c rawSize).Throws Exn.Printable := by
  rw [unpackParallelRatedInformation_eq]
  exact Probe.throws_bind (getList_throws c rawSize _ _) fun list =>
    Probe.throws_bind (unpackItems_throws list _ 0) fun _ => Probe.throws_pure _

theorem unpack_throws (c : CommandType) (rawSize : ℕ) :
    (unpack c rawSize).Throws Exn.Printable := by
  cases c with
  | getProtocolID => exact unpackProtocolID_throws
  | getCurrentTime => exact unpackCurrentTime_throws
  | getTotalGenerated => exact unpackTotalGenerated_throws
  | getYearGenerated => exact unpackTotalGenerated_throws
  | getMonthGenerated => exact unpackTotalGenerated_throws
  | getDayGenerated => exact unpackTotalGenerated_throws
  | getSerialNumber => exact unpackSerialNumber_throws
  | getCPUVersion => exact unpackList_throws _ _ _
  | getRatedInformation => exact unpackList_throws _ _ _
  | getGeneralStatus => exact unpackList_throws _ _ _
  | getWorkingMode => exact Probe.throws_bind (numberAt_throws 0 2) fun _ => Probe.throws_pure _
  | getFaultsAndWarnings => exact unpackList_throws _ _ _
  | getFlagsAndStatuses => exact unpackList_throws _ _ _
  | getRatedDefaults => exact unpackList_throws _ _ _
  | getAllowedChargeCurrents => exact unpackAllowedChargeCurrents_throws _ _
  | getAllowedACChargeCurrents => exact unpackAllowedChargeCurrents_throws _ _
  | getParallelRatedInformation => exact unpackParallelRatedInformation_throws _ _
  | getParallelGeneralStatus => exact unpackParallelGeneralStatus_throws _ _
  | getACChargeTimeBucket => exact unpackACChargeTimeBucket_throws _ _
  | getACSupplyTimeBucket => exact unpackACChargeTimeBucket_throws _ _
  | _ => exact Probe.throws_pure _

theorem validate_throws (c : CommandType) (rawSize : ℕ) :
    (validate c rawSize).Throws Exn.Printable := by
  unfold validate
  split_ifs
  · unfold setValidate
    split_ifs
    · exact Probe.throws_pure false
    · refine Probe.throws_bind (Probe.throws_byte 0) ?_
      intro b0
      split_ifs
      · exact Probe.throws_pure false
      · exact Probe.throws_bind (Probe.throws_byte 1) fun b1 => Probe.throws_pure _
  · unfold getValidate
    split_ifs
    · exact Probe.throws_pure false
    · refine Probe.throws_bind (Probe.throws_byte 0) ?_
      intro b0
      split_ifs
      · exact Probe.throws_pure false
      · refine Probe.throws_bind (Probe.throws_byte 1) ?_
        intro b1
        split_ifs
        · exact Probe.throws_pure false
        · exact Probe.throws_bind (Probe.throws_range 2 3) fun lenbuf =>
            Probe.throws_bind (Probe.throws_lift.mpr (stoul_raises _)) fun len =>
            Probe.throws_pure _

theorem decodeResponse_throws (c : CommandType) (raw : Bytes) (rawSize : ℕ) :
    (decodeResponse c raw rawSize).Throws Exn.Printable := by
  refine Outcome.throws_bind (validate_throws c rawSize raw) ?_
  intro valid
  cases valid with
  | true =>
      exact Outcome.throws_bind (unpack_throws c rawSize raw) fun fields => Outcome.throws_ret _
  | false => exact Outcome.throws_throw.mpr (by decide)

theorem execute_throws (m : Machine) (dev : Voltronic.Device) (env : Voltronic.Device.Script)
    (buf : ResponseBuffer) (c : CommandType) (args : List Bytes) :
    (execute m dev env buf c args).outcome.Throws Exn.Printable := by
  unfold execute
  cases hpacked : packRequest m c args with
  | error e => exact Outcome.throws_throw.mpr (packRequest_raises m c args e hpacked)
  | ok packed =>
      refine Outcome.throws_bind (dev.run_throws env packed buf.1) ?_
      intro n
      exact decodeResponse_throws c _ n

end P18

/-! ### The command server -/

namespace Server

theorem translate_printable {e : Exn} (he : e.Printable) : (translate e).Printable := by
  have hwhat : isPrintable e.what = true := he
  have hprefixed {s : String} (hs : isPrintable (ascii s) = true) :
      isPrintable (ascii s ++ e.what) = true := (isPrintable_append _ _).mpr ⟨hs, hwhat⟩
  unfold translate
  cases e.cls with
  | deviceError => exact hprefixed (by decide)
  | timeoutError => exact hprefixed (by decide)
  | invalidDataError => exact hprefixed (by decide)
  | invalidResponseError => exact hprefixed (by decide)
  | parseError => exact hprefixed (by decide)
  | _ => exact hwhat

theorem executeCommand_throws (m : P18.Machine) (s : Server) (env : Env) (c : P18.CommandType)
    (args : List Bytes) : (executeCommand m s env c args).outcome.Throws Exn.Printable := by
  unfold executeCommand
  cases s.cached c args env.cacheNow with
  | some response => exact Outcome.throws_ret response
  | none =>
      dsimp only
      cases hx :
          (P18.execute m (s.setCache c none).device env.device env.buffer c args).outcome with
      | ret response => exact Outcome.throws_ret response
      | throw e =>
          refine Outcome.throws_throw.mpr (translate_printable ?_)
          exact P18.execute_throws m _ _ _ c args e hx
      | fault => exact Outcome.throws_fault
      | pending => exact Outcome.throws_pending

end Server

end InverterTools
