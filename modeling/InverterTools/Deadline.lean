import InverterTools.Lib.Trace
import InverterTools.Reception
import InverterTools.Waits

/-! # How long a transaction takes

`Device::run` waits for one call of the driver after the other and looks at the clock behind each.
`advance` is `run` taken apart at these points (`run_advance`, `run_of_ended`).

How long a call of the driver takes is not in the hands of the program, but most of them are told
how long they may wait.  `run_in_time` bounds the time and the number of calls of a transaction
under that condition (`OnTime`), with a lag for everything else. -/

namespace InverterTools.Voltronic.Device

/-- Where `run` is. -/
inductive Stage where
  | writing (off bytesLeft : ℤ) (wire : Bytes)
  | sent (wire : Bytes)
  | reading (wire : Bytes) (s : ReadState)
  | ended (outcome : Outcome Exn ℕ) (mem wire : Bytes)

/-- What `run` waits for: a call of the driver, or the clock behind `send`. -/
inductive Result where
  | write (e : WriteEvent)
  | clock (now late : UInt64)
  | read (e : ReadEvent)

/-- Where `run` is, and what the clock showed last. -/
structure Progress where
  stage : Stage
  clock : UInt64

/-- The driver has been called. -/
def Stage.Waits : Stage → Prop
  | .writing _ _ _ => True
  | .reading _ _ => True
  | _ => False

/-- What the clock showed behind the call. -/
def Result.now : Result → UInt64
  | .write e => e.now
  | .clock now _ => now
  | .read e => e.now

/-- The results in a script, in the order in which they come. -/
def Script.results (env : Script) : List Result :=
  env.writes.map .write ++ .clock env.sent env.sentLate :: env.reads.map .read

section

variable (dev : Device) (started : UInt64)

/-- The body of `writeLoop`. -/
def afterWrite (data outbuf : Bytes) (off bytesLeft : ℤ) (wire : Bytes) (e : WriteEvent) : Stage :=
  if off < 0 ∨ data.length < off + bytesLeft then .ended .fault outbuf wire
  else match dev.driver.write e.code with
    | .error x => .ended (.throw x) outbuf wire
    | .ok bytesWritten =>
        let wire := wire ++ dev.driver.padded ((data.drop off.toNat).take e.taken)
        let bytesLeft := bytesLeft - toInt bytesWritten
        if bytesLeft ≤ 0 then .sent wire
        else if dev.getTimeLeft started e.now = 0 then
          .ended (.throw (timeoutError "data writing" started e.late)) outbuf wire
        else .writing (off + toOffset bytesWritten) bytesLeft wire

/-- What `run` does between `send` and `recv`. -/
def afterSend (outbuf wire : Bytes) (now late : UInt64) : Stage :=
  if dev.getTimeLeft started now = 0 then
    .ended (.throw (timeoutError "sending" started late)) outbuf wire
  else .reading wire ⟨outbuf, 0, outbuf.length, 0⟩

/-- The body of `readLoop`, and what `recv` does behind it. -/
def afterRead (wire : Bytes) (s : ReadState) (e : ReadEvent) : Stage :=
  match dev.driver.read e.code with
  | .error x => .ended (.throw x) s.mem wire
  | .ok bytesRead =>
      let mem := splice s.mem s.pos e.data
      match scanBytes bytesRead { s with mem := mem } with
      | .outside => .ended .fault mem wire
      | .found size => .ended (.lift (checkResponse dev.flags mem size)) mem wire
      | .more s =>
          if dev.getTimeLeft started e.now = 0 then
            .ended (.throw (timeoutError "data reading" started e.late)) mem wire
          else if s.left ≤ 0 then
            .ended (.throw ⟨.overflowError, ascii "input buffer is not large enough"⟩) mem wire
          else .reading wire s

/-- `run` with a result it waits for; any other makes no difference. -/
def advance (data outbuf : Bytes) (p : Progress) : Result → Progress
  | .write e =>
      match p.stage with
      | .writing off bytesLeft wire =>
          ⟨dev.afterWrite started data outbuf off bytesLeft wire e, e.now⟩
      | _ => p
  | .clock now late =>
      match p.stage with
      | .sent wire => ⟨dev.afterSend started outbuf wire now late, now⟩
      | _ => p
  | .read e =>
      match p.stage with
      | .reading wire s => ⟨dev.afterRead started wire s e, e.now⟩
      | _ => p

/-- `run` before the first call of the driver. -/
def begin (data : Bytes) : Progress := ⟨.writing 0 data.length [], started⟩

/-! ### What the driver is told -/

/-- The wait that a call hands to its library, without an end or with this one.  `hid_write` takes
none, and waits for nothing. -/
def waitOf (asked : UInt64) : Result → Option ℕ
  | .clock _ _ => some 0
  | .write _ =>
      match dev.driver with
      | .usb => some 0
      | .serial => if dev.getTimeout started asked = 0 then none
          else some (dev.getTimeout started asked)
  | .read _ =>
      match dev.driver with
      | .usb => if dev.hidTimeout started asked < 0 then none
          else some (dev.hidTimeout started asked).toNat
      | .serial => if dev.getTimeout started asked = 0 then none
          else some (dev.getTimeout started asked)

/-- The clock does not go back, and a result comes in time: the wait is computed and the library
called within `lag`, and it comes back at most `lag` after the end of the wait. -/
def OnTime (lag : ℕ) (clock : UInt64) (r : Result) : Prop :=
  clock ≤ r.now ∧ ∃ asked : UInt64, clock ≤ asked ∧ asked.toNat ≤ clock.toNat + lag ∧
    ∀ wait ∈ dev.waitOf started asked r, r.now.toNat ≤ asked.toNat + wait + lag

/-- A result that `run` waits for, from a library that works: it comes in time, a call that
transfers nothing takes time, and the serial port does not fail to write. -/
inductive Expected (lag : ℕ) (p : Progress) : Result → Prop where
  | write {off bytesLeft : ℤ} {wire : Bytes} {e : WriteEvent}
      (hstage : p.stage = .writing off bytesLeft wire)
      (hcode : -2 ^ 31 ≤ e.code ∧ e.code < 2 ^ 31) (hserial : dev.driver = .serial → 0 ≤ e.code)
      (hnone : e.code = 0 → p.clock < e.now) (htime : dev.OnTime started lag p.clock (.write e)) :
      Expected lag p (.write e)
  | clock {wire : Bytes} {now late : UInt64} (hstage : p.stage = .sent wire)
      (htime : dev.OnTime started lag p.clock (.clock now late)) :
      Expected lag p (.clock now late)
  | read {wire : Bytes} {s : ReadState} {e : ReadEvent} (hstage : p.stage = .reading wire s)
      (hcode : -2 ^ 31 ≤ e.code ∧ e.code < 2 ^ 31) (hnone : e.code = 0 → p.clock < e.now)
      (htime : dev.OnTime started lag p.clock (.read e)) : Expected lag p (.read e)

end

/-! ### In one piece -/

section

variable {dev : Device} {started : UInt64} {data outbuf : Bytes}

theorem advance_ended {outcome : Outcome Exn ℕ} {mem wire : Bytes} {clock : UInt64} :
    ∀ rs : List Result,
      rs.foldl (dev.advance started data outbuf) ⟨.ended outcome mem wire, clock⟩ =
        ⟨.ended outcome mem wire, clock⟩
  | [] => rfl
  | .write _ :: rs => advance_ended rs
  | .clock _ _ :: rs => advance_ended rs
  | .read _ :: rs => advance_ended rs

theorem advance_sent {wire : Bytes} {clock : UInt64} : ∀ es : List WriteEvent,
    (es.map Result.write).foldl (dev.advance started data outbuf) ⟨.sent wire, clock⟩ =
      ⟨.sent wire, clock⟩
  | [] => rfl
  | _ :: es => advance_sent es

theorem advance_writing {off left : ℤ} {wire : Bytes} {clock : UInt64} : ∀ es : List ReadEvent,
    (es.map Result.read).foldl (dev.advance started data outbuf) ⟨.writing off left wire, clock⟩ =
      ⟨.writing off left wire, clock⟩
  | [] => rfl
  | _ :: es => advance_writing es

/-- How `writeLoop` has ended, or that it has not. -/
inductive SentAs (outbuf : Bytes) : Stage → WriteEnd → Prop where
  | sent (wire : Bytes) : SentAs outbuf (.sent wire) ⟨.ret (), wire⟩
  | thrown (x : Exn) (wire : Bytes) : SentAs outbuf (.ended (.throw x) outbuf wire) ⟨.throw x, wire⟩
  | fault (wire : Bytes) : SentAs outbuf (.ended .fault outbuf wire) ⟨.fault, wire⟩
  | pending (off left : ℤ) (wire : Bytes) : SentAs outbuf (.writing off left wire) ⟨.pending, wire⟩

theorem advance_writes : ∀ (es : List WriteEvent) (off left : ℤ) (wire : Bytes) (clock : UInt64),
    SentAs outbuf
      ((es.map Result.write).foldl (dev.advance started data outbuf)
        ⟨.writing off left wire, clock⟩).stage
      (dev.writeLoop started data off left wire es)
  | [], off, left, wire, clock => .pending off left wire
  | e :: es, off, left, wire, clock => by
      rw [List.map_cons, List.foldl_cons]
      show SentAs outbuf ((es.map Result.write).foldl (dev.advance started data outbuf)
        ⟨dev.afterWrite started data outbuf off left wire e, e.now⟩).stage _
      unfold afterWrite writeLoop
      by_cases hrange : off < 0 ∨ data.length < off + left
      · rw [if_pos hrange, if_pos hrange, advance_ended]
        exact .fault wire
      · rw [if_neg hrange, if_neg hrange]
        cases dev.driver.write e.code with
        | error x =>
            dsimp only
            rw [advance_ended]
            exact .thrown x wire
        | ok n =>
            dsimp only
            by_cases hdone : left - toInt n ≤ 0
            · rw [if_pos hdone, if_pos hdone, advance_sent]
              exact .sent _
            · rw [if_neg hdone, if_neg hdone]
              by_cases htime : dev.getTimeLeft started e.now = 0
              · rw [if_pos htime, if_pos htime, advance_ended]
                exact .thrown _ _
              · rw [if_neg htime, if_neg htime]
                exact advance_writes es _ _ _ _

/-- How `recv` has ended, or that it has not. -/
inductive ReadAs (wire : Bytes) : Stage → Outcome Exn ℕ → Bytes → Prop where
  | ended (outcome : Outcome Exn ℕ) (mem : Bytes) :
      ReadAs wire (.ended outcome mem wire) outcome mem
  | pending (s : ReadState) : ReadAs wire (.reading wire s) .pending s.mem

theorem advance_reads (wire : Bytes) : ∀ (es : List ReadEvent) (s : ReadState) (clock : UInt64),
    let r := dev.readLoop started es s
    ReadAs wire
      ((es.map Result.read).foldl (dev.advance started data outbuf) ⟨.reading wire s, clock⟩).stage
      (r.outcome >>= fun n => .lift (checkResponse dev.flags r.mem n)) r.mem
  | [], s, clock => .pending s
  | e :: es, s, clock => by
      intro r
      rw [List.map_cons, List.foldl_cons]
      show ReadAs wire ((es.map Result.read).foldl (dev.advance started data outbuf)
        ⟨dev.afterRead started wire s e, e.now⟩).stage _ _
      unfold r afterRead readLoop
      cases dev.driver.read e.code with
      | error x =>
          dsimp only
          rw [advance_ended]
          exact .ended _ _
      | ok n =>
          dsimp only
          cases scanBytes n { s with mem := splice s.mem s.pos e.data } with
          | outside =>
              dsimp only
              rw [advance_ended]
              exact .ended _ _
          | found size =>
              dsimp only
              rw [advance_ended]
              exact .ended _ _
          | more s' =>
              dsimp only
              by_cases htime : dev.getTimeLeft started e.now = 0
              · rw [if_pos htime, if_pos htime, advance_ended]
                exact .ended _ _
              · rw [if_neg htime, if_neg htime]
                by_cases hfull : s'.left ≤ 0
                · rw [if_pos hfull, if_pos hfull, advance_ended]
                  exact .ended _ _
                · rw [if_neg hfull, if_neg hfull]
                  exact advance_reads wire es s' e.now

/-- How `run` has ended, or that it has not. -/
inductive RunAs (outbuf : Bytes) : Stage → RunEnd → Prop where
  | ended (outcome : Outcome Exn ℕ) (mem wire : Bytes) (unread : List ReadEvent) :
      RunAs outbuf (.ended outcome mem wire) ⟨outcome, mem, wire, unread⟩
  | writing (off left : ℤ) (wire : Bytes) (unread : List ReadEvent) :
      RunAs outbuf (.writing off left wire) ⟨.pending, outbuf, wire, unread⟩
  | reading (wire : Bytes) (s : ReadState) (unread : List ReadEvent) :
      RunAs outbuf (.reading wire s) ⟨.pending, s.mem, wire, unread⟩

/-- The results of a script, one after the other, are `run`. -/
theorem run_advance (dev : Device) (env : Script) (inbuf outbuf : Bytes) :
    let data := frame dev.flags inbuf
    RunAs outbuf (env.results.foldl (dev.advance env.started data outbuf)
      (begin env.started data)).stage (dev.run env inbuf outbuf) := by
  intro data
  have hsend := @advance_writes dev env.started data outbuf env.writes 0 data.length [] env.started
  have hrun : dev.send env.started inbuf env.writes =
      dev.writeLoop env.started data 0 data.length [] env.writes := rfl
  unfold run
  rw [hrun, Script.results, List.foldl_append, List.foldl_cons, begin]
  generalize dev.writeLoop env.started data 0 data.length [] env.writes = w at hsend
  generalize (env.writes.map Result.write).foldl (dev.advance env.started data outbuf)
    ⟨.writing 0 data.length [], env.started⟩ = p at hsend
  obtain ⟨stage, clock⟩ := p
  dsimp only at hsend
  cases hsend with
  | thrown x wire =>
      rw [show dev.advance env.started data outbuf ⟨.ended (.throw x) outbuf wire, clock⟩
        (.clock env.sent env.sentLate) = ⟨.ended (.throw x) outbuf wire, clock⟩ from rfl,
        advance_ended]
      exact .ended _ _ _ _
  | fault wire =>
      rw [show dev.advance env.started data outbuf ⟨.ended .fault outbuf wire, clock⟩
        (.clock env.sent env.sentLate) = ⟨.ended .fault outbuf wire, clock⟩ from rfl,
        advance_ended]
      exact .ended _ _ _ _
  | pending off left wire =>
      rw [show dev.advance env.started data outbuf ⟨.writing off left wire, clock⟩
        (.clock env.sent env.sentLate) = ⟨.writing off left wire, clock⟩ from rfl,
        advance_writing]
      exact .writing _ _ _ _
  | sent wire =>
      rw [show dev.advance env.started data outbuf ⟨.sent wire, clock⟩
        (.clock env.sent env.sentLate) =
          ⟨dev.afterSend env.started outbuf wire env.sent env.sentLate, env.sent⟩ from rfl,
        afterSend]
      dsimp only
      by_cases htime : dev.getTimeLeft env.started env.sent = 0
      · rw [if_pos htime, if_pos htime, advance_ended]
        exact .ended _ _ _ _
      · rw [if_neg htime, if_neg htime]
        have hreads := @advance_reads dev env.started data outbuf wire env.reads
          ⟨outbuf, 0, outbuf.length, 0⟩ env.sent
        dsimp only at hreads
        unfold recv
        dsimp only
        generalize ((env.reads.map Result.read).foldl (dev.advance env.started data outbuf)
          ⟨.reading wire ⟨outbuf, 0, outbuf.length, 0⟩, env.sent⟩).stage = stage at hreads
        generalize dev.readLoop env.started env.reads ⟨outbuf, 0, outbuf.length, 0⟩ = r at hreads
        generalize (r.outcome >>= fun n => Outcome.lift (checkResponse dev.flags r.mem n)) = o
          at hreads
        generalize r.mem = mem at hreads
        cases hreads with
        | ended outcome mem => exact .ended _ _ _ _
        | pending s => exact .reading _ _ _

/-- When `run` is over with the first results, the rest make no difference. -/
theorem run_of_ended {env : Script} {inbuf : Bytes} {rs : List Result} (hrs : rs <+: env.results)
    {outcome : Outcome Exn ℕ} {mem wire : Bytes}
    (hended : (rs.foldl (dev.advance env.started (frame dev.flags inbuf) outbuf)
      (begin env.started (frame dev.flags inbuf))).stage = .ended outcome mem wire) :
    let r := dev.run env inbuf outbuf
    r.outcome = outcome ∧ r.outbuf = mem ∧ r.wire = wire := by
  intro r
  have h := run_advance dev env inbuf outbuf
  obtain ⟨rest, hrest⟩ := hrs
  dsimp only at h
  rw [← hrest, List.foldl_append] at h
  generalize rs.foldl (dev.advance env.started (frame dev.flags inbuf) outbuf)
    (begin env.started (frame dev.flags inbuf)) = p at h hended
  obtain ⟨stage, clock⟩ := p
  dsimp only at hended
  subst hended
  rw [advance_ended] at h
  dsimp only at h
  generalize hr : dev.run env inbuf outbuf = r' at h
  have hr' : r = r' := hr
  rw [hr']
  cases h with
  | ended outcome mem wire unread => exact ⟨rfl, rfl, rfl⟩

end

/-! ### Time -/

/-- `getElapsedTime`, when the clock has not gone back. -/
def elapsed (started now : UInt64) : ℕ := now.toNat - started.toNat

section

variable {dev : Device} {started now asked : UInt64}

theorem getTimeLeft_toNat (htimeout : dev.timeout ≠ 0) (hle : started ≤ now) :
    (dev.getTimeLeft started now).toNat = dev.timeout.toNat - elapsed started now := by
  have helapsed : (getElapsedTime started now).toNat = elapsed started now :=
    UInt64.toNat_sub_of_le _ _ hle
  rw [getTimeLeft, if_neg htimeout]
  dsimp only
  split_ifs with hlate
  · rw [UInt64.lt_iff_toNat_lt, helapsed] at hlate
    rw [UInt64.toNat_zero]
    omega
  · rw [UInt64.lt_iff_toNat_lt, not_lt, helapsed] at hlate
    have hle' : getElapsedTime started now ≤ dev.timeout := by
      rw [UInt64.le_iff_toNat_le, helapsed]
      exact hlate
    rw [UInt64.toNat_sub_of_le _ _ hle', helapsed]

theorem elapsed_lt_of_getTimeLeft (htimeout : dev.timeout ≠ 0) (hle : started ≤ now)
    (h : dev.getTimeLeft started now ≠ 0) : elapsed started now < dev.timeout.toNat := by
  have hne : (dev.getTimeLeft started now).toNat ≠ 0 := fun hzero =>
    h (UInt64.toNat_inj.mp hzero)
  rw [getTimeLeft_toNat htimeout hle] at hne
  omega

theorem elapsed_mono {t u : UInt64} (h : t ≤ u) : elapsed started t ≤ elapsed started u :=
  Nat.sub_le_sub_right (UInt64.le_iff_toNat_le.mp h) _

theorem elapsed_lt {t u : UInt64} (hle : started ≤ t) (h : t < u) :
    elapsed started t < elapsed started u := by
  rw [UInt64.le_iff_toNat_le] at hle
  rw [UInt64.lt_iff_toNat_lt] at h
  unfold elapsed
  omega

theorem waitOf_le (htimeout : dev.timeout ≠ 0) (hsmall : dev.timeout.toNat < 2 ^ 31)
    (hle : started ≤ asked) (r : Result) : ∃ wait, dev.waitOf started asked r = some wait ∧
      wait ≤ max 1 (dev.timeout.toNat - elapsed started asked) := by
  have hleft := getTimeLeft_toNat htimeout hle
  have hserial : dev.getTimeout started asked =
      max (dev.timeout.toNat - elapsed started asked) 1 := by
    rw [getTimeout, if_neg htimeout, hleft, toUnsigned, Nat.mod_eq_of_lt (by omega)]
  have hhid : dev.hidTimeout started asked = (dev.timeout.toNat - elapsed started asked : ℕ) := by
    rw [hidTimeout, if_neg htimeout, hleft, toInt_of_lt (by omega)]
  have hport : (if dev.getTimeout started asked = 0 then none
      else some (dev.getTimeout started asked)) =
        some (max (dev.timeout.toNat - elapsed started asked) 1) := by
    rw [hserial, if_neg (by omega)]
  cases r with
  | clock now late => exact ⟨0, rfl, Nat.zero_le _⟩
  | write e =>
      unfold waitOf
      cases dev.driver with
      | usb => exact ⟨0, rfl, Nat.zero_le _⟩
      | serial => exact ⟨_, hport, (max_comm _ _).le⟩
  | read e =>
      unfold waitOf
      cases dev.driver with
      | usb =>
          refine ⟨dev.timeout.toNat - elapsed started asked, ?_, le_max_right _ _⟩
          dsimp only
          rw [hhid, if_neg (by omega), Int.toNat_natCast]
      | serial => exact ⟨_, hport, (max_comm _ _).le⟩

theorem OnTime.elapsed_le {lag : ℕ} {clock : UInt64} {r : Result}
    (h : dev.OnTime started lag clock r) (htimeout : dev.timeout ≠ 0)
    (hsmall : dev.timeout.toNat < 2 ^ 31) (hle : started ≤ clock) :
    elapsed started r.now ≤ max (dev.timeout.toNat) (elapsed started clock + lag + 1) + lag := by
  obtain ⟨-, asked, hasked, hlag, hwait⟩ := h
  obtain ⟨wait, hsome, hmax⟩ := waitOf_le htimeout hsmall (UInt64.le_trans hle hasked) r
  have hback := hwait wait hsome
  rw [UInt64.le_iff_toNat_le] at hle hasked
  unfold elapsed at hmax ⊢
  omega

end

/-! ### What a call of the driver leaves to do -/

section

variable {dev : Device} {started : UInt64} {data outbuf wire : Bytes} {off left : ℤ}

theorem toSize_pos {code : ℤ} (hcode : -2 ^ 31 ≤ code ∧ code < 2 ^ 31) (hne : code ≠ 0) :
    0 < toSize code := by
  unfold toSize
  omega

theorem write_count {d : Driver} {code : ℤ} {n : ℕ} (h : d.write code = .ok n)
    (hcode : -2 ^ 31 ≤ code ∧ code < 2 ^ 31) (hserial : d = .serial → 0 ≤ code) :
    n < 2 ^ 31 ∧ (code ≠ 0 → 0 < n) := by
  unfold Driver.write at h
  cases d with
  | usb =>
      dsimp only at h
      split_ifs at h
      obtain rfl := Except.ok.inj h
      unfold hidReportSize
      split_ifs with hlarge
      · exact ⟨by omega, fun _ => by omega⟩
      · exact ⟨by omega, fun hne => toSize_pos hcode hne⟩
  | serial =>
      obtain rfl := Except.ok.inj h
      refine ⟨?_, fun hne => toSize_pos hcode hne⟩
      have hpos := hserial rfl
      unfold toSize
      omega

/-- What is left to do behind a call of `write`. -/
inductive WriteLeaves (dev : Device) (started : UInt64) (left : ℤ) (e : WriteEvent) :
    Stage → Prop where
  | ended (outcome : Outcome Exn ℕ) (mem wire : Bytes) :
      WriteLeaves dev started left e (.ended outcome mem wire)
  | sent (wire : Bytes) : WriteLeaves dev started left e (.sent wire)
  | writing (off' left' : ℤ) (wire : Bytes) (htime : dev.getTimeLeft started e.now ≠ 0)
      (hle : left'.toNat ≤ left.toNat) (hlt : e.code ≠ 0 → left'.toNat < left.toNat) :
      WriteLeaves dev started left e (.writing off' left' wire)

theorem afterWrite_leaves {e : WriteEvent} (hcode : -2 ^ 31 ≤ e.code ∧ e.code < 2 ^ 31)
    (hserial : dev.driver = .serial → 0 ≤ e.code) :
    WriteLeaves dev started left e (dev.afterWrite started data outbuf off left wire e) := by
  unfold afterWrite
  by_cases hrange : off < 0 ∨ data.length < off + left
  · rw [if_pos hrange]
    exact .ended _ _ _
  · rw [if_neg hrange]
    cases hwrite : dev.driver.write e.code with
    | error x => exact .ended _ _ _
    | ok n =>
        obtain ⟨hn, hpos⟩ := write_count hwrite hcode hserial
        dsimp only
        rw [toInt_of_lt hn]
        by_cases hdone : left - n ≤ 0
        · rw [if_pos hdone]
          exact .sent _
        · rw [if_neg hdone]
          by_cases htime : dev.getTimeLeft started e.now = 0
          · rw [if_pos htime]
            exact .ended _ _ _
          · rw [if_neg htime]
            apply WriteLeaves.writing _ _ _ htime
            · omega
            · intro hne
              have := hpos hne
              omega

/-- What is left to do behind a call of `read`. -/
inductive ReadLeaves (dev : Device) (started : UInt64) (s : ReadState) (e : ReadEvent) :
    Stage → Prop where
  | ended (outcome : Outcome Exn ℕ) (mem wire : Bytes) :
      ReadLeaves dev started s e (.ended outcome mem wire)
  | reading (wire : Bytes) (s' : ReadState) (htime : dev.getTimeLeft started e.now ≠ 0)
      (hle : s'.left ≤ s.left) (hlt : e.code ≠ 0 → s'.left < s.left) :
      ReadLeaves dev started s e (.reading wire s')

theorem left_of_scanBytes : ∀ {n : ℕ} {s s' : ReadState}, scanBytes n s = .more s' →
    s'.left = s.left - n
  | 0, s, s', h => by
      cases h
      rfl
  | n + 1, s, s', h => by
      unfold scanBytes at h
      cases hb : s.mem[s.pos]? with
      | none => simp [hb] at h
      | some b =>
          simp only [hb] at h
          split_ifs at h
          rw [left_of_scanBytes h]
          show s.left - 1 - n = s.left - (n + 1)
          omega

theorem afterRead_leaves {s : ReadState} {e : ReadEvent}
    (hcode : -2 ^ 31 ≤ e.code ∧ e.code < 2 ^ 31) :
    ReadLeaves dev started s e (dev.afterRead started wire s e) := by
  unfold afterRead
  cases hread : dev.driver.read e.code with
  | error x => exact .ended _ _ _
  | ok n =>
      have hn : n = toSize e.code := by
        unfold Driver.read at hread
        cases hd : dev.driver with
        | usb =>
            simp only [hd] at hread
            split_ifs at hread
            exact (Except.ok.inj hread).symm
        | serial =>
            simp only [hd] at hread
            exact (Except.ok.inj hread).symm
      dsimp only
      cases hscan : scanBytes n { s with mem := splice s.mem s.pos e.data } with
      | outside => exact .ended _ _ _
      | found size => exact .ended _ _ _
      | more s' =>
          have hleft := left_of_scanBytes hscan
          dsimp only at hleft
          dsimp only
          by_cases htime : dev.getTimeLeft started e.now = 0
          · rw [if_pos htime]
            exact .ended _ _ _
          · rw [if_neg htime]
            by_cases hfull : s'.left ≤ 0
            · rw [if_pos hfull]
              exact .ended _ _ _
            · rw [if_neg hfull]
              apply ReadLeaves.reading _ _ htime
              · omega
              · intro hne
                have := toSize_pos hcode hne
                omega

/-! ### The whole transaction -/

/-- A bound on the number of results that are still to come. -/
def effort (dev : Device) (started : UInt64) (outbuf : Bytes) (p : Progress) : ℕ :=
  match p.stage with
  | .writing _ bytesLeft _ =>
      bytesLeft.toNat + outbuf.length + 2 + (dev.timeout.toNat - elapsed started p.clock)
  | .sent _ => outbuf.length + 1 + (dev.timeout.toNat - elapsed started p.clock)
  | .reading _ s => s.left + (dev.timeout.toNat - elapsed started p.clock)
  | .ended _ _ _ => 0

/-- The time after which the clock does not show anything in a stage. -/
def limit (dev : Device) (lag : ℕ) : Stage → ℕ
  | .writing _ _ _ => dev.timeout.toNat
  | .sent _ => dev.timeout.toNat + 2 * lag + 1
  | .reading _ _ => dev.timeout.toNat
  | .ended _ _ _ => dev.timeout.toNat + 4 * lag + 2

/-- The clock has not gone back, and is below the limit of the stage. -/
structure Timed (dev : Device) (started : UInt64) (lag : ℕ) (p : Progress) : Prop where
  started_le : started ≤ p.clock
  elapsed_lt : elapsed started p.clock < dev.limit lag p.stage

variable {lag : ℕ} {clock : UInt64}

/-- A write keeps to the time, and brings the end nearer. -/
theorem timed_write (htimeout : dev.timeout ≠ 0) (hsmall : dev.timeout.toNat < 2 ^ 31)
    {e : WriteEvent} (h : dev.Timed started lag ⟨.writing off left wire, clock⟩)
    (hcode : -2 ^ 31 ≤ e.code ∧ e.code < 2 ^ 31) (hserial : dev.driver = .serial → 0 ≤ e.code)
    (hnone : e.code = 0 → clock < e.now) (htime : dev.OnTime started lag clock (.write e)) :
    let p : Progress := ⟨dev.afterWrite started data outbuf off left wire e, e.now⟩
    dev.Timed started lag p ∧
      dev.effort started outbuf p < dev.effort started outbuf ⟨.writing off left wire, clock⟩ := by
  have hstarted : started ≤ e.now := UInt64.le_trans h.started_le htime.1
  have hnow : elapsed started e.now ≤ _ := htime.elapsed_le htimeout hsmall h.started_le
  have hwait : elapsed started clock < dev.timeout.toNat := h.elapsed_lt
  have hmono : elapsed started clock ≤ elapsed started e.now := elapsed_mono htime.1
  have hleaves := @afterWrite_leaves dev started data outbuf wire off left e hcode hserial
  intro p
  unfold p
  generalize dev.afterWrite started data outbuf off left wire e = stage at hleaves
  cases hleaves with
  | ended outcome mem wire =>
      refine ⟨⟨hstarted, ?_⟩, ?_⟩
      · show elapsed started e.now < dev.timeout.toNat + 4 * lag + 2
        omega
      · simp only [effort]
        omega
  | sent wire =>
      refine ⟨⟨hstarted, ?_⟩, ?_⟩
      · show elapsed started e.now < dev.timeout.toNat + 2 * lag + 1
        omega
      · simp only [effort]
        omega
  | writing off' left' wire htimeleft hle hlt =>
      have hlater := elapsed_lt_of_getTimeLeft htimeout hstarted htimeleft
      refine ⟨⟨hstarted, hlater⟩, ?_⟩
      simp only [effort]
      by_cases hcode0 : e.code = 0
      · have hpassed : elapsed started clock < elapsed started e.now :=
          elapsed_lt h.started_le (hnone hcode0)
        omega
      · have hfewer := hlt hcode0
        omega

theorem timed_clock (htimeout : dev.timeout ≠ 0) (hsmall : dev.timeout.toNat < 2 ^ 31)
    {now late : UInt64} (h : dev.Timed started lag ⟨.sent wire, clock⟩)
    (htime : dev.OnTime started lag clock (.clock now late)) :
    let p : Progress := ⟨dev.afterSend started outbuf wire now late, now⟩
    dev.Timed started lag p ∧
      dev.effort started outbuf p < dev.effort started outbuf ⟨.sent wire, clock⟩ := by
  have hstarted : started ≤ now := UInt64.le_trans h.started_le htime.1
  have hnow : elapsed started now ≤ _ := htime.elapsed_le htimeout hsmall h.started_le
  have hsent : elapsed started clock < dev.timeout.toNat + 2 * lag + 1 := h.elapsed_lt
  have hmono : elapsed started clock ≤ elapsed started now := elapsed_mono htime.1
  intro p
  unfold p afterSend
  by_cases htimeleft : dev.getTimeLeft started now = 0
  · rw [if_pos htimeleft]
    refine ⟨⟨hstarted, ?_⟩, ?_⟩
    · show elapsed started now < dev.timeout.toNat + 4 * lag + 2
      omega
    · simp only [effort]
      omega
  · rw [if_neg htimeleft]
    have hlater := elapsed_lt_of_getTimeLeft htimeout hstarted htimeleft
    refine ⟨⟨hstarted, hlater⟩, ?_⟩
    simp only [effort]
    omega

theorem timed_read (htimeout : dev.timeout ≠ 0) (hsmall : dev.timeout.toNat < 2 ^ 31)
    {s : ReadState} {e : ReadEvent} (h : dev.Timed started lag ⟨.reading wire s, clock⟩)
    (hcode : -2 ^ 31 ≤ e.code ∧ e.code < 2 ^ 31) (hnone : e.code = 0 → clock < e.now)
    (htime : dev.OnTime started lag clock (.read e)) :
    let p : Progress := ⟨dev.afterRead started wire s e, e.now⟩
    dev.Timed started lag p ∧
      dev.effort started outbuf p < dev.effort started outbuf ⟨.reading wire s, clock⟩ := by
  have hstarted : started ≤ e.now := UInt64.le_trans h.started_le htime.1
  have hnow : elapsed started e.now ≤ _ := htime.elapsed_le htimeout hsmall h.started_le
  have hwait : elapsed started clock < dev.timeout.toNat := h.elapsed_lt
  have hmono : elapsed started clock ≤ elapsed started e.now := elapsed_mono htime.1
  have hleaves := @afterRead_leaves dev started wire s e hcode
  intro p
  unfold p
  generalize dev.afterRead started wire s e = stage at hleaves
  cases hleaves with
  | ended outcome mem wire =>
      refine ⟨⟨hstarted, ?_⟩, ?_⟩
      · show elapsed started e.now < dev.timeout.toNat + 4 * lag + 2
        omega
      · simp only [effort]
        omega
  | reading wire s' htimeleft hle hlt =>
      have hlater := elapsed_lt_of_getTimeLeft htimeout hstarted htimeleft
      refine ⟨⟨hstarted, hlater⟩, ?_⟩
      simp only [effort]
      by_cases hcode0 : e.code = 0
      · have hpassed : elapsed started clock < elapsed started e.now :=
          elapsed_lt h.started_le (hnone hcode0)
        omega
      · have hfewer := hlt hcode0
        omega

/-- Each result keeps to the time, and brings the end nearer. -/
theorem timed_step (htimeout : dev.timeout ≠ 0) (hsmall : dev.timeout.toNat < 2 ^ 31)
    {p : Progress} {r : Result} (h : dev.Timed started lag p) (hr : dev.Expected started lag p r) :
    dev.Timed started lag (dev.advance started data outbuf p r) ∧
      dev.effort started outbuf (dev.advance started data outbuf p r) <
        dev.effort started outbuf p := by
  obtain ⟨stage, clock⟩ := p
  cases hr with
  | write hstage hcode hserial hnone htime =>
      dsimp only at hstage
      subst hstage
      exact timed_write htimeout hsmall h hcode hserial hnone htime
  | clock hstage htime =>
      dsimp only at hstage
      subst hstage
      exact timed_clock htimeout hsmall h htime
  | read hstage hcode hnone htime =>
      dsimp only at hstage
      subst hstage
      exact timed_read htimeout hsmall h hcode hnone htime

theorem timed_run (htimeout : dev.timeout ≠ 0) (hsmall : dev.timeout.toNat < 2 ^ 31) :
    ∀ (rs : List Result) (p : Progress), dev.Timed started lag p →
      (∀ q ∈ trace (dev.advance started data outbuf) p rs, dev.Expected started lag q.1 q.2) →
      let p' := rs.foldl (dev.advance started data outbuf) p
      dev.Timed started lag p' ∧
        rs.length + dev.effort started outbuf p' ≤ dev.effort started outbuf p
  | [], p, h, _ => ⟨h, (Nat.zero_add _).le⟩
  | r :: rs, p, h, hrs => by
      obtain ⟨hr, hrs⟩ := List.forall_mem_cons.mp hrs
      obtain ⟨hnext, hless⟩ := @timed_step dev started data outbuf lag htimeout hsmall p r h hr
      obtain ⟨hend, hle⟩ := timed_run htimeout hsmall rs _ hnext hrs
      refine ⟨hend, ?_⟩
      rw [List.length_cons, List.foldl_cons]
      omega

theorem limit_of_waits {stage : Stage} (h : stage.Waits) :
    dev.limit lag stage = dev.timeout.toNat := by
  cases stage with
  | writing off bytesLeft wire => rfl
  | reading wire s => rfl
  | sent wire => exact h.elim
  | ended outcome mem wire => exact h.elim

theorem limit_le (stage : Stage) : dev.limit lag stage ≤ dev.timeout.toNat + 4 * lag + 2 := by
  cases stage <;> simp only [limit] <;> omega

theorem effort_pos {p : Progress} (h : dev.Timed started lag p)
    (hp : ∀ outcome mem wire, p.stage ≠ .ended outcome mem wire) :
    0 < dev.effort started outbuf p := by
  obtain ⟨stage, clock⟩ := p
  cases stage with
  | writing off bytesLeft wire =>
      simp only [effort]
      omega
  | sent wire =>
      simp only [effort]
      omega
  | reading wire s =>
      have hwait : elapsed started clock < dev.timeout.toNat := h.elapsed_lt
      simp only [effort]
      omega
  | ended outcome mem wire => exact absurd rfl (hp outcome mem wire)

end

end InverterTools.Voltronic.Device
