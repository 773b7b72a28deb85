import InverterTools.ClientMutex
import InverterTools.Parameters
import InverterTools.Transactions

/-! # From the clients to the inverter

What the clients send is what the inverter does.  An `Inverter` has a state, and answers a command
with its parameters, which it reads from a line with `readLine`.  At the other end of the link it is
a `Peer`.

`receive_transmitted` says what one call makes of it.  `obeyed_in_order` is about threads: at every
moment of every interleaving the inverter has done the commands of the calls that are over, in the
order of the mutex, and nothing else but the command of the thread inside. -/

namespace InverterTools.P18

open Voltronic (Device crcWrite crcCalculate defaultFlags)

/-- A command with its parameters. -/
abbrev Order := CommandType × List Param

/-- What an inverter makes of a line, without its carriage return: nothing, unless the checksum at
its end is right.  The zeros of the last report are still in front of it. -/
def readLine (line : Bytes) : Option Order :=
  let line := line.dropWhile (· = 0)
  let text := line.take (line.length - 2)
  if line.drop (line.length - 2) = crcWrite (crcCalculate text) then readRequest text else none

/-- An inverter: what an order does to its state, and the payload of its answer; `none` stands for a
line that is no order. -/
structure Inverter (σ : Type) where
  obey : σ → Option Order → σ × Bytes
  no_CR : ∀ z order, CR ∉ (obey z order).2

section

variable {σ : Type} (inv : Inverter σ)

/-- The state behind an order. -/
def Inverter.after (z : σ) (order : Order) : σ := (inv.obey z (some order)).1

/-- The payload of the answer to an order. -/
def Inverter.answer (z : σ) (order : Order) : Bytes := (inv.obey z (some order)).2

/-- The inverter at the end of the line. -/
def Inverter.peer : Peer σ UInt8 CR 0 where
  respond z line :=
    let answer := inv.obey z (readLine line)
    (answer.1, answer.2 ++ crcWrite (crcCalculate answer.2))
  stop_notMem z line _ := by
    rw [List.mem_append, not_or]
    exact ⟨inv.no_CR z (readLine line), Voltronic.CR_notMem_crcWrite _⟩
  respond_fill _ _ := rfl

end

/-- An inverter in the hybrid mode, which counts its orders. -/
def hybridCounter : Inverter ℕ where
  obey n _ := (n + 1, ascii "^D00505")
  no_CR _ _ := by
    show CR ∉ ascii "^D00505"
    decide

/-! ### Requests in one line -/

theorem CR_notMem_of_allDigits {s : Bytes} (h : AllDigits s) : CR ∉ s := fun hmem =>
  absurd (h _ hmem) (by decide)

theorem CR_notMem_intDecimal (z : ℤ) : CR ∉ intDecimal z := by
  unfold intDecimal
  split_ifs
  · rw [List.mem_cons, not_or]
    exact ⟨by decide, CR_notMem_of_allDigits (allDigits_decimal _)⟩
  · exact CR_notMem_of_allDigits (allDigits_decimal _)

theorem CR_notMem_fixedInt (w : ℕ) (z : ℤ) : CR ∉ fixedInt w z := by
  rw [fixedInt, zeroPad, List.mem_append, not_or]
  refine ⟨fun h => absurd (List.eq_of_mem_replicate h) (by decide), ?_⟩
  exact CR_notMem_intDecimal z

/-- A text that is packed has no carriage return. -/
def OneLined (x : Except Exn Bytes) : Prop := ∀ f, x = .ok f → CR ∉ f

theorem oneLined_pure {f : Bytes} (h : CR ∉ f) : OneLined (pure f) := by
  rintro _ hf
  exact pure_eq_ok.mp hf ▸ h

theorem oneLined_bind {x : Except Exn Bytes} {k : Bytes → Except Exn Bytes} (hx : OneLined x)
    (hk : ∀ f, CR ∉ f → OneLined (k f)) : OneLined (x >>= k) := by
  intro g hg
  obtain ⟨f, hf, hkf⟩ := bind_eq_ok.mp hg
  exact hk f (hx f hf) g hkf

theorem oneLined_map {α : Type} {g : α → Bytes} (hg : ∀ a, CR ∉ g a) (x : Except Exn α) :
    OneLined (g <$> x) := by
  intro f hf
  obtain ⟨a, -, rfl⟩ := map_eq_ok.mp hf
  exact hg a

theorem oneLined_packArguments (m : Machine) (c : CommandType) {args : List Bytes}
    (h : ∀ arg ∈ args, CR ∉ arg) : OneLined (packArguments m c args) := by
  have harg (i : ℕ) : CR ∉ args.getD i [] := by
    rw [List.getD_eq_getElem?_getD]
    cases hi : args[i]? with
    | none => exact List.not_mem_nil
    | some arg => exact h arg (List.mem_of_getElem? hi)
  have hint (w i : ℕ) : OneLined (packInt w (args.getD i [])) :=
    oneLined_map (CR_notMem_fixedInt w) _
  have hvoltage (i : ℕ) : OneLined (packVoltage m (args.getD i [])) :=
    oneLined_map (fun _ => CR_notMem_fixedInt 3 _) _
  have hdate (k i : ℕ) : OneLined (packDatePart k (args.getD i [])) :=
    oneLined_map (fun _ => CR_notMem_fixedInt 2 _) _
  have happend {s t : Bytes} (hs : CR ∉ s) (ht : CR ∉ t) : CR ∉ s ++ t := by
    rw [List.mem_append, not_or]
    exact ⟨hs, ht⟩
  have hcomma : CR ∉ ascii "," := by decide
  cases c
  case getYearGenerated | setOutputSourcePriority | setSolarPowerPriority
      | setACInputVoltageRange | setBatteryType | setACSupply => exact oneLined_pure (harg 0)
  case getMonthGenerated =>
    apply oneLined_bind (hint 2 1)
    intro month hmonth
    exact oneLined_pure (happend (harg 0) hmonth)
  case getDayGenerated =>
    apply oneLined_bind (hint 2 1)
    intro month hmonth
    apply oneLined_bind (hint 2 2)
    intro day hday
    exact oneLined_pure (happend (happend (harg 0) hmonth) hday)
  case getParallelGeneralStatus | getParallelRatedInformation =>
    exact oneLined_map CR_notMem_intDecimal _
  case setFlag =>
    apply oneLined_pure
    refine happend ?_ (harg 0)
    split_ifs
    · decide
    · decide
  case setBatteryMaxChargeCurrent | setBatteryMaxACChargeCurrent =>
    apply oneLined_bind (hint 3 1)
    intro amps hamps
    exact oneLined_pure (happend (happend (harg 0) hcomma) hamps)
  case setACOutputFreq => exact hint 2 0
  case setBatteryMaxChargeVoltage | setBatteryChargeThresholds =>
    apply oneLined_bind (hvoltage 0)
    intro cv hcv
    apply oneLined_bind (hvoltage 1)
    intro v hv
    exact oneLined_pure (happend (happend hcv hcomma) hv)
  case setACOutputVoltage => exact oneLined_map (fun _ => CR_notMem_fixedInt 4 _) _
  case setChargeSourcePriority | setOutputMode =>
    exact oneLined_pure (happend (happend (harg 0) hcomma) (harg 1))
  case setBatteryCutOffVoltage => exact hvoltage 0
  case setSolarConfig =>
    apply oneLined_pure
    have hlen := CR_notMem_of_allDigits (@allDigits_zeroPad 2 _
      (allDigits_decimal (args.getD 0 []).length))
    apply happend (happend hlen (harg 0))
    exact fun hmem => absurd (List.eq_of_mem_replicate hmem) (by decide)
  case setDateTime =>
    apply oneLined_bind (hdate 0 0)
    intro year hyear
    apply oneLined_bind (hdate 1 1)
    intro month hmonth
    apply oneLined_bind (hdate 2 2)
    intro day hday
    apply oneLined_bind (hdate 3 3)
    intro hour hhour
    apply oneLined_bind (hdate 4 4)
    intro minute hminute
    apply oneLined_bind (hdate 5 5)
    intro second hsecond
    have hclock := happend (happend (happend hyear hmonth) hday) hhour
    exact oneLined_pure (happend (happend hclock hminute) hsecond)
  case setACChargeTimeBucket | setACSupplyTimeBucket =>
    apply oneLined_bind (hint 2 0)
    intro startHour hstartHour
    apply oneLined_bind (hint 2 1)
    intro startMinute hstartMinute
    apply oneLined_bind (hint 2 2)
    intro endHour hendHour
    apply oneLined_bind (hint 2 3)
    intro endMinute hendMinute
    have hstart := happend (happend hstartHour hstartMinute) hcomma
    exact oneLined_pure (happend (happend hstart hendHour) hendMinute)
  all_goals exact oneLined_pure List.not_mem_nil

theorem CR_notMem_packed {m : Machine} {c : CommandType} {args : List Bytes} {packed : Bytes}
    (hargs : ∀ arg ∈ args, CR ∉ arg) (h : packRequest m c args = .ok packed) : CR ∉ packed := by
  obtain ⟨raw, fields, hraw, hfields, rfl⟩ := packRequest_eq_ok.mp h
  have hname : CR ∉ raw := by
    cases c <;> obtain rfl := Option.some.inj hraw <;> decide
  have hletter : CR ∉ commandLetter c := by
    unfold commandLetter
    split_ifs
    · decide
    · decide
  have hlen : CR ∉ fixed 3 (3 + raw.length + fields.length) :=
    CR_notMem_of_allDigits (allDigits_zeroPad (allDigits_decimal _))
  simp only [List.mem_append, not_or]
  exact ⟨⟨⟨⟨by decide, hletter⟩, hlen⟩, hname⟩, oneLined_packArguments m c hargs fields hfields⟩

/-! ### One order -/

theorem packed_head {m : Machine} {c : CommandType} {args : List Bytes} {packed : Bytes}
    (hp : packRequest m c args = .ok packed) : ∃ rest, packed = 0x5E :: rest := by
  obtain ⟨raw, fields, -, -, rfl⟩ := packRequest_eq_ok.mp hp
  exact ⟨_, by simp only [List.append_assoc]; rfl⟩

/-- The inverter reads the order that was packed. -/
theorem readLine_packed {m : Machine} {command : Bytes} {argv : List Bytes} {c : CommandType}
    {args : List Bytes} {packed : Bytes}
    (hv : validateInput m (getArgs argv) command = .ok (c, args))
    (hp : packRequest m c args = .ok packed) :
    readLine (packed ++ crcWrite (crcCalculate packed)) = some (c, sentParameters m c args) := by
  obtain ⟨rest, hhead⟩ := packed_head hp
  have hline : (packed ++ crcWrite (crcCalculate packed)).dropWhile (· = 0) =
      packed ++ crcWrite (crcCalculate packed) := by
    rw [hhead]
    rfl
  have hlen : (packed ++ crcWrite (crcCalculate packed)).length - 2 = packed.length :=
    congrArg (· - 2) List.length_append
  unfold readLine
  simp only [hline, hlen, List.take_left, List.drop_left, if_true]
  exact readRequest_packed hv hp

section

variable {σ : Type} (inv : Inverter σ) {m : Machine} {command : Bytes} {argv : List Bytes}
  {c : CommandType} {args : List Bytes} {packed : Bytes}
  (hv : validateInput m (getArgs argv) command = .ok (c, args))
  (hp : packRequest m c args = .ok packed)

include hv hp

theorem respond_packed (z : σ) :
    inv.peer.respond z (packed ++ crcWrite (crcCalculate packed)) =
      (inv.after z (c, sentParameters m c args), inv.answer z (c, sentParameters m c args) ++
        crcWrite (crcCalculate (inv.answer z (c, sentParameters m c args)))) := by
  show (let answer := inv.obey z (readLine (packed ++ crcWrite (crcCalculate packed)))
    (answer.1, answer.2 ++ crcWrite (crcCalculate answer.2))) = _
  rw [readLine_packed hv hp]
  rfl

theorem receive_frame (hno : CR ∉ packed) {l : Link σ UInt8} (hl : l.begun 0 = []) (n : ℕ) :
    let far := inv.peer.receive l (Device.frame defaultFlags packed ++ List.replicate n 0)
    far.state = inv.after l.state (c, sentParameters m c args) ∧ far.begun 0 = [] := by
  have hline : CR ∉ packed ++ crcWrite (crcCalculate packed) := by
    rw [List.mem_append, not_or]
    exact ⟨hno, Voltronic.CR_notMem_crcWrite packed⟩
  have hframe : Device.frame defaultFlags packed =
      (packed ++ crcWrite (crcCalculate packed)) ++ [CR] := rfl
  rw [hframe, Peer.receive_filled inv.peer (by decide) hline hl, respond_packed inv hv hp]
  exact ⟨rfl, Peer.begun_replicate n⟩

end

end InverterTools.P18

namespace InverterTools.Voltronic.Device

theorem run_wire (dev : Device) (env : Script) (inbuf outbuf : Bytes) :
    (dev.run env inbuf outbuf).wire = (dev.send env.started inbuf env.writes).wire := by
  unfold run
  cases h : (dev.send env.started inbuf env.writes).outcome with
  | ret u =>
      simp only [h]
      split_ifs
      · rfl
      · rfl
  | throw e => simp only [h]
  | fault => simp only [h]
  | pending => simp only [h]

end InverterTools.Voltronic.Device

namespace InverterTools.Server

open P18 (CommandType Inverter Kept Machine Order getArgs packRequest parameters typed
  validateInput)
open Voltronic (Device defaultFlags)

/-! ### The calls -/

/-- The order that a call sends. -/
def order (m : Machine) (st : Server × Call) : Order :=
  (st.2.command, P18.sentParameters m st.2.command st.2.arguments)

/-- The order of a call is the one whose words were typed, exactly when nothing of them was lost. -/
def AsTyped (m : Machine) (st : Server × Call) : Prop :=
  ∀ command argv, validateInput m (getArgs argv) command = .ok (st.2.command, st.2.arguments) →
    (order m st = (st.2.command, parameters st.2.command (typed st.2.command argv)) ↔
      Kept st.2.command (typed st.2.command argv))

/-- The orders that the calls of a run have sent. -/
def orders (m : Machine) (run : List (Server × Call)) : List Order :=
  (run.filter fun st => Sent m st).map (order m)

/-- The call is made after `validate_input`, with arguments of one line, and the driver takes as
many bytes as it says. -/
structure Orderable (m : Machine) (st : Server × Call) : Prop where
  valid : ∃ command argv,
    validateInput m (getArgs argv) command = .ok (st.2.command, st.2.arguments)
  no_CR : ∀ arg ∈ st.2.arguments, CR ∉ arg
  exact : st.1.device.Exact st.2.env.device.writes

/-- The frame of the call has gone out, or nothing of it. -/
def Whole (m : Machine) (st : Server × Call) : Prop := Sent m st ∨ transmitted m st = []

section

variable {m : Machine} {st : Server × Call}

theorem transmitted_of_packed {packed : Bytes} (hlive : ¬ Live st)
    (hp : packRequest m st.2.command st.2.arguments = .ok packed) :
    transmitted m st =
      (st.1.device.send st.2.env.device.started packed st.2.env.device.writes).wire := by
  rw [transmitted, if_neg hlive, P18.execute, hp]
  exact st.1.device.run_wire _ _ _

theorem sent_iff_send {packed : Bytes} (hlive : ¬ Live st)
    (hp : packRequest m st.2.command st.2.arguments = .ok packed) :
    Sent m st ↔ (st.1.device.send st.2.env.device.started packed
      st.2.env.device.writes).outcome = .ret () := by
  have hc : st.1.cached st.2.command st.2.arguments st.2.env.cacheNow = none := by
    rwa [Live, Option.not_isSome_iff_eq_none] at hlive
  have hsent : (finish m st).sent = (P18.execute m st.1.device st.2.env.device st.2.env.buffer
      st.2.command st.2.arguments).sent := by
    simp only [finish, Call.run, executeCommand, hc]
    split <;> rfl
  rw [Sent, hsent, P18.execute, hp]
  exact decide_eq_true_iff

theorem packed_of_sent (h : Sent m st) :
    ¬ Live st ∧ ∃ packed, packRequest m st.2.command st.2.arguments = .ok packed := by
  have hlive : ¬ Live st := by
    intro hlive
    obtain ⟨r, hr⟩ := Option.isSome_iff_exists.mp hlive
    rw [Sent, finish_of_cached hr] at h
    cases h
  refine ⟨hlive, ?_⟩
  cases hp : packRequest m st.2.command st.2.arguments with
  | ok packed => exact ⟨packed, rfl⟩
  | error e =>
      have hc : st.1.cached st.2.command st.2.arguments st.2.env.cacheNow = none := by
        rwa [Live, Option.not_isSome_iff_eq_none] at hlive
      simp [Sent, finish, Call.run, executeCommand, hc, P18.execute, hp] at h

/-- What goes out of a call that the driver does not cut short. -/
theorem transmitted_of_sent (hexact : st.1.device.Exact st.2.env.device.writes) (h : Sent m st) :
    ∃ packed, packRequest m st.2.command st.2.arguments = .ok packed ∧
      transmitted m st = st.1.device.driver.padded (Device.frame st.1.device.flags packed) := by
  obtain ⟨hlive, packed, hp⟩ := packed_of_sent h
  refine ⟨packed, hp, ?_⟩
  rw [transmitted_of_packed hlive hp]
  exact (st.1.device.send_wire _ hexact).2 ((sent_iff_send hlive hp).mp h)

theorem asTyped_of_sent (h : Sent m st) : AsTyped m st := by
  intro command argv hv
  obtain ⟨-, packed, hp⟩ := packed_of_sent h
  obtain ⟨-, fields, -, hfields, -⟩ := P18.packRequest_eq_ok.mp hp
  rw [order, Prod.mk.injEq, ← P18.sentParameters_eq_iff hv hfields]
  exact and_iff_right rfl

variable {σ : Type} (inv : Inverter σ) {l : Link σ UInt8}

/-- **One call**: the inverter gets its order, when it is sent. -/
theorem receive_transmitted (hflags : st.1.device.flags = defaultFlags) (ho : Orderable m st)
    (hw : Whole m st) (hl : l.begun 0 = []) :
    (inv.peer.receive l (transmitted m st)).state =
        (orders m [st]).foldl inv.after l.state ∧
      (inv.peer.receive l (transmitted m st)).begun 0 = [] := by
  by_cases hsent : Sent m st
  · obtain ⟨packed, hp, hwire⟩ := transmitted_of_sent ho.exact hsent
    obtain ⟨command, argv, hv⟩ := ho.valid
    have horders : orders m [st] = [order m st] := by simp [orders, hsent]
    obtain ⟨n, -, hpadded⟩ :=
      st.1.device.driver.exists_padded_eq (Device.frame defaultFlags packed)
    rw [hwire, hflags, horders, hpadded]
    exact P18.receive_frame inv hv hp (P18.CR_notMem_packed ho.no_CR hp) hl n
  · have horders : orders m [st] = [] := by simp [orders, hsent]
    rw [hw.resolve_left hsent, horders]
    exact ⟨rfl, hl⟩

end

/-! ### Threads -/

/-- The calls of a run of events. -/
def callsOf (run : List (Server × Event)) : List (Server × Call) :=
  run.filterMap fun
    | (s, .call call) => some (s, call)
    | (_, .signal) => none

section

variable {m : Machine} {σ : Type} (inv : Inverter σ)

theorem device_run (m : Machine) (server : Server) (events : List Event) :
    (∀ st ∈ callsOf (trace (react m) server events), st.1.device = server.device) ∧
      (events.foldl (react m) server).device = server.device := by
  have hstep (s : Server) (event : Event) : (react m s event).device = s.device := by
    cases event with
    | call call => exact congrArg Prod.fst (settings_next m s call)
    | signal => rfl
  constructor
  · intro st hst
    obtain ⟨⟨s, event⟩, hp, hcall⟩ := List.mem_filterMap.mp hst
    have hinv : s.device = server.device :=
      @trace_invariant _ _ (react m) (fun s => s.device = server.device)
        (fun s event h => (hstep s event).trans h) server events rfl _ hp
    cases event with
    | call call => rwa [← Option.some.inj hcall]
    | signal => cases hcall
  · induction events generalizing server with
    | nil => rfl
    | cons event events ih => exact (ih (react m server event)).trans (hstep server event)

theorem bytesSent_eq (m : Machine) (run : List (Server × Event)) :
    bytesSent m run = (callsOf run).flatMap (transmitted m) := by
  induction run with
  | nil => rfl
  | cons p run ih =>
      obtain ⟨s, event⟩ := p
      cases event with
      | call call => exact congrArg (transmitted m (s, call) ++ ·) ih
      | signal => exact ih

theorem orders_append (run run' : List (Server × Call)) :
    orders m (run ++ run') = orders m run ++ orders m run' := by
  rw [orders, List.filter_append, List.map_append]
  rfl

/-- **Calls one after the other**: the inverter gets the orders that are sent. -/
theorem receive_run {run : List (Server × Call)} {l : Link σ UInt8}
    (hflags : ∀ st ∈ run, st.1.device.flags = defaultFlags)
    (h : ∀ st ∈ run, Orderable m st ∧ Whole m st) (hl : l.begun 0 = []) :
    (inv.peer.receive l (run.flatMap (transmitted m))).state =
        (orders m run).foldl inv.after l.state ∧
      (inv.peer.receive l (run.flatMap (transmitted m))).begun 0 = [] := by
  induction run generalizing l with
  | nil => exact ⟨rfl, hl⟩
  | cons st run ih =>
      obtain ⟨hflag, hflags⟩ := List.forall_mem_cons.mp hflags
      obtain ⟨⟨ho, hw⟩, hrest⟩ := List.forall_mem_cons.mp h
      obtain ⟨hstate, hinbox⟩ := receive_transmitted inv hflag ho hw hl
      obtain ⟨hstate', hinbox'⟩ := ih hflags hrest hinbox
      have horders : orders m (st :: run) = orders m [st] ++ orders m run := orders_append [st] run
      rw [List.flatMap_cons, Peer.receive_append, hstate', hstate, horders, List.foldl_append]
      exact ⟨rfl, hinbox'⟩

/-- A call that has sent a part of its bytes: the inverter has its order, or nothing new. -/
theorem receive_part {st : Server × Call} {l : Link σ UInt8} {part : Bytes}
    (hflags : st.1.device.flags = defaultFlags) (ho : Orderable m st) (hl : l.begun 0 = [])
    (hpart : part <+: transmitted m st) :
    ((inv.peer.receive l part).state = l.state ∧ (inv.peer.receive l part).begun 0 = part) ∨
      (inv.peer.receive l part).state = inv.after l.state (order m st) ∧
        (inv.peer.receive l part).begun 0 = [] := by
  have hsilent (h : transmitted m st = []) :
      (inv.peer.receive l part).state = l.state ∧ (inv.peer.receive l part).begun 0 = part := by
    rw [h] at hpart
    rw [List.prefix_nil.mp hpart]
    exact ⟨rfl, hl⟩
  by_cases hlive : Live st
  · exact .inl (hsilent (if_pos hlive))
  cases hp : packRequest m st.2.command st.2.arguments with
  | error e =>
      apply Or.inl
      apply hsilent
      rw [transmitted, if_neg hlive, P18.execute, hp]
  | ok packed =>
      obtain ⟨command, argv, hv⟩ := ho.valid
      have hno := P18.CR_notMem_packed ho.no_CR hp
      obtain ⟨body, hframe, hbody⟩ := @Voltronic.exists_frame_eq st.1.device.flags packed hno
      obtain ⟨n, -, hpadded⟩ := st.1.device.driver.exists_padded_eq (body ++ [CR])
      have hsent : transmitted m st <+: body ++ CR :: List.replicate n 0 := by
        have hwire :=
          (@Voltronic.Device.send_wire st.1.device st.2.env.device.started packed _ ho.exact).1
        rw [hframe, hpadded, List.append_assoc, List.singleton_append] at hwire
        rwa [transmitted_of_packed hlive hp]
      obtain ⟨u, hu⟩ := hpart.trans hsent
      by_cases hmem : CR ∈ part
      · -- the carriage return has gone out
        obtain ⟨s, t, rfl, hs⟩ := List.eq_append_cons_of_mem hmem
        rw [List.append_assoc, List.cons_append] at hu
        obtain rfl := eq_of_append_cons_eq hs hbody hu
        have hzeros : t ++ u = List.replicate n 0 :=
          (List.cons.inj (List.append_cancel_left hu)).2
        have ht : t = List.replicate t.length 0 := by
          apply List.eq_replicate_of_mem
          intro x hx
          exact List.eq_of_mem_replicate (hzeros ▸ List.mem_append_left u hx)
        have hall : s ++ CR :: t =
            Device.frame defaultFlags packed ++ List.replicate t.length 0 := by
          rw [← hflags, hframe, ← ht, List.append_assoc]
          rfl
        apply Or.inr
        rw [hall]
        exact P18.receive_frame inv hv hp hno hl t.length
      · apply Or.inl
        rw [Peer.receive_of_notMem inv.peer hmem]
        refine ⟨rfl, (Link.begun_append hl part).trans ?_⟩
        -- a part of the request starts as the request does
        cases part with
        | nil => rfl
        | cons b part =>
            obtain ⟨rest, hhead⟩ := P18.packed_head hp
            have hfirst : b = 0x5E := by
              have hdata : ∃ rest', body ++ [CR] = packed ++ rest' := by
                rw [← hframe, hflags]
                exact ⟨_, List.append_assoc _ _ _⟩
              obtain ⟨rest', hrest'⟩ := hdata
              have hlist : b :: (part ++ u) = 0x5E :: (rest ++ rest' ++ List.replicate n 0) := by
                rw [← List.cons_append, hu, ← List.singleton_append, ← List.append_assoc, hrest',
                  hhead]
                simp only [List.cons_append, List.append_assoc]
              exact (List.cons.inj hlist).1
            rw [hfirst]
            rfl

/-- **The inverter does what it is told, in the order of the mutex.**  At every moment of every
interleaving of threads that call `executeCommand`, as long as no frame was cut short: the inverter
is in the state in which the orders leave it that the calls of the log have sent, one after the
other; while a thread is inside, it may have its order too, and else it has at most the head of a
line.  No order is lost, changed, done twice or overtaken.  An order is what was typed, unless the
cast of a time or the rounding of a voltage has changed it. -/
theorem obeyed_in_order {ι : Type} [DecidableEq ι] (m : Machine) (server : Server)
    (hflags : server.device.flags = defaultFlags) (steps : List (Critical.Step ι Call Signal))
    {l : Link σ UInt8} (hl : l.begun 0 = []) :
    let s := interleave m server steps
    let events := s.log.map eventOf
    let done := callsOf (trace (react m) server events)
    let z := (orders m done).foldl inv.after l.state
    let far := inv.peer.receive l s.shared.wire
    (∀ st ∈ done, Orderable m st ∧ Whole m st) →
      (s.locked = false → far.state = z ∧ far.begun 0 = []) ∧
      (∀ i call rest, s.phase i = .inside call rest →
        let st := (events.foldl (react m) server, call)
        Orderable m st → (far.state = z ∧ far.begun 0 <+: transmitted m st) ∨
          far.state = inv.after z (order m st) ∧ far.begun 0 = []) ∧
      ∀ st ∈ done, Sent m st → AsTyped m st := by
  intro s events done z far hdone
  obtain ⟨hall, hend⟩ := device_run m server events
  obtain ⟨hstate, hinbox⟩ := receive_run inv (fun st hst => by rw [hall st hst, hflags]) hdone hl
  refine ⟨?_, ?_, fun st _ hsent => asTyped_of_sent hsent⟩
  · intro hfree
    have hwire : s.shared.wire = done.flatMap (transmitted m) := by
      rw [show s.shared = _ from shared_of_free hfree, ← bytesSent_eq]
    rw [show far = inv.peer.receive l s.shared.wire from rfl, hwire]
    exact ⟨hstate, hinbox⟩
  · intro i call rest hi st ho
    obtain ⟨-, part, hpart, hwire⟩ := wire_of_inside hi
    have hfar : far =
        inv.peer.receive (inv.peer.receive l (done.flatMap (transmitted m))) part := by
      rw [← Peer.receive_append, ← bytesSent_eq, ← hwire]
    have hreceived := receive_part inv (by rw [hend, hflags]) ho hinbox hpart
    rw [← hfar, hstate] at hreceived
    obtain ⟨hsame, hpending⟩ | hdone := hreceived
    · exact .inl ⟨hsame, hpending ▸ hpart⟩
    · exact .inr hdone

theorem answeredAt_exact (t : UInt64) (reply : Bytes) :
    started.device.Exact (answeredAt t reply).device.writes := by
  intro e he n hn
  have hcode : e.code = 9 ∧ e.taken = 8 := by
    simp only [answeredAt, List.mem_cons, List.not_mem_nil, or_false, or_self] at he
    rw [he]
    exact ⟨rfl, rfl⟩
  rw [hcode.1] at hn
  obtain rfl : 8 = n := Except.ok.inj hn
  exact ⟨hcode.2, by decide, fun _ => rfl⟩

/-- A thread reads the mode. -/
def oneRead : List (Critical.Step Bool Call Signal) :=
  [.call true (readMode 100), .acquire true] ++ Critical.goOn true 9

/-- The inverter has done one order. -/
theorem obeyed_in_order_once :
    (P18.hybridCounter.peer.receive ⟨0, [], []⟩
      (interleave P18.x86 started oneRead).shared.wire).state = 1 := by
  have hdone : ∀ st ∈ callsOf (trace (react P18.x86) started
      ((interleave P18.x86 started oneRead).log.map eventOf)),
      st.1.device = started.device ∧ st.2 = readMode 100 ∧ Sent P18.x86 st := by
    decide +kernel
  have hvalid : validateInput P18.x86 (getArgs []) (ascii "get-mode") =
      .ok (.getWorkingMode, []) := by
    decide +kernel
  obtain ⟨hfree, -, -⟩ := obeyed_in_order P18.hybridCounter P18.x86 started rfl oneRead
    (l := ⟨0, [], []⟩) rfl fun st hst => by
      obtain ⟨hdevice, hcall, hsent⟩ := hdone st hst
      refine ⟨⟨?_, ?_, ?_⟩, .inl hsent⟩
      · rw [hcall]
        exact ⟨_, _, hvalid⟩
      · rw [hcall]
        exact fun arg harg => absurd harg List.not_mem_nil
      · rw [hdevice, hcall]
        exact answeredAt_exact 100 _
  rw [(hfree (by decide +kernel)).1]
  decide +kernel

end

end InverterTools.Server
