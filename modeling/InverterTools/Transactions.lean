import InverterTools.Framing
import InverterTools.Client
import InverterTools.Lib.Peer
import InverterTools.Lib.Trace

/-! # Requests and replies over whole runs

A transaction is one call of `Device::run` or `Client::execute`.  Behind the driver sits a `Peer`
that answers every frame it gets by one frame; what it has answered and nobody has read stays in
the channel.  A transaction can leave three things behind: a frame it has sent half of, a reply it
has not waited for, and the rest of a reply it has read half of.  The next transaction then reads
what was meant for another one.

`exec_ret` says what a transaction that returns has read; `matched_of_idle` and `idle_of_returned`
are the two step lemmas, and `replies_matched` and `matched_while_settled` follow for runs. -/

namespace InverterTools

open P18 (CommandType Machine Response ResponseBuffer)
open Voltronic (Device Driver ReadEvent WriteEvent throughCR throughCR_append exists_frame_eq)
open Voltronic.Device (delivered replyFrame frame)

namespace Voltronic.Device

variable (dev : Device) (started : UInt64)

/-- The driver takes exactly as many bytes as it says, and over USB whole reports. -/
def Exact (es : List WriteEvent) : Prop :=
  ∀ e ∈ es, ∀ n, dev.driver.write e.code = .ok n →
    e.taken = n ∧ n < 2 ^ 31 ∧ (dev.driver = .usb → n = 8)

theorem writeLoop_wire {data : Bytes} {es : List WriteEvent} {off : ℕ} {left : ℤ} {wire : Bytes}
    (hexact : dev.Exact es) (hleft : off + left = data.length)
    (hmod : dev.driver = .usb → off % 8 = 0) (hpos : 0 < left) (hwire : wire = data.take off) :
    let w := dev.writeLoop started data off left wire es
    w.wire <+: dev.driver.padded data ∧
      (w.outcome = .ret () → w.wire = dev.driver.padded data) := by
  -- by induction on the writes: an exact driver has sent the head of the frame, and all of it when
  -- `writeLoop` returns
  have hhead (n : ℕ) := dev.driver.take_isPrefix_padded n data
  induction es generalizing off left wire with
  | nil => exact ⟨hwire ▸ hhead off, fun h => by simp [writeLoop] at h⟩
  | cons e es ih =>
      have hrange : ¬ ((off : ℤ) < 0 ∨ (data.length : ℤ) < off + left) := by omega
      unfold writeLoop
      rw [if_neg hrange]
      cases hw : dev.driver.write e.code with
      | error x => exact ⟨hwire ▸ hhead off, fun h => by simp at h⟩
      | ok n =>
          obtain ⟨htaken, hlt, hreport⟩ := hexact e List.mem_cons_self n hw
          simp only [toInt_of_lt hlt, toOffset_of_lt hlt, Int.toNat_natCast, htaken, hwire]
          by_cases hdone : left - n ≤ 0
          · rw [if_pos hdone, Driver.padded_take_last hmod (by omega) (by omega)]
            exact ⟨List.prefix_rfl, fun _ => rfl⟩
          have hwhole : dev.driver = .usb → n % 8 = 0 := fun hd => by rw [hreport hd]
          rw [if_neg hdone, Driver.padded_take hwhole (by omega)]
          split_ifs
          · exact ⟨hhead _, fun h => by simp at h⟩
          · rw [← Nat.cast_add]
            apply ih
            · exact fun e' he' => hexact e' (List.mem_cons_of_mem _ he')
            · push_cast
              omega
            · intro hd
              have := hmod hd
              have := hreport hd
              omega
            · omega
            · rfl

theorem send_wire {buf : Bytes} {es : List WriteEvent} (hexact : dev.Exact es) :
    (dev.send started buf es).wire <+: dev.driver.padded (frame dev.flags buf) ∧
      ((dev.send started buf es).outcome = .ret () →
        (dev.send started buf es).wire = dev.driver.padded (frame dev.flags buf)) := by
  apply writeLoop_wire
  · exact hexact
  · simp
  · exact fun _ => rfl
  · rw [Nat.cast_pos]
    unfold frame
    split_ifs <;> simp
  · rfl

end Voltronic.Device

/-! ### Transactions -/

/-- A call that talks to the device. -/
inductive Request where
  | run (text outbuf : Bytes)
  | execute (m : Machine) (c : CommandType) (args : List Bytes) (buf : ResponseBuffer)

/-- What a request hands to `send`. -/
def Request.text : Request → Except Exn Bytes
  | run text _ => .ok text
  | execute m c args _ => P18.packRequest m c args

/-- The buffer for the reply. -/
def Request.buffer : Request → Bytes
  | run _ outbuf => outbuf
  | execute _ _ _ buf => buf.1

/-- One call: the device object with its flags, the request, and what the call meets. -/
structure Transaction where
  device : Device
  request : Request
  env : Device.Script

/-- How a call ended, with the payload it returned, the bytes that went out, and the reads not
made. -/
structure TransactionEnd where
  outcome : Outcome Exn Bytes
  wire : Bytes
  unread : List ReadEvent
deriving DecidableEq

namespace Transaction

variable (t : Transaction)

/-- The call. -/
def exec : TransactionEnd :=
  match t.request with
  | .run text outbuf =>
      let r := t.device.run t.env text outbuf
      ⟨r.outcome >>= fun n => pure (r.outbuf.take n), r.wire, r.unread⟩
  | .execute m c args buf =>
      let r := P18.execute m t.device t.env buf c args
      ⟨r.outcome >>= fun response => pure response.payload, r.wire, r.unread⟩

/-- The call returns this payload. -/
def Returned (p : Bytes) : Prop := t.exec.outcome = .ret p

/-- The reads the call has made. -/
def made : List ReadEvent := t.env.reads.take (t.env.reads.length - t.exec.unread.length)

/-- The frame the call has put on the wire. -/
def sentFrame : Bytes := throughCR t.exec.wire

variable {σ : Type} (peer : Peer σ UInt8 CR 0)

/-- What the call leaves behind: the peer has answered what went out, and what was read is gone. -/
def next (l : Link σ UInt8) (t : Transaction) : Link σ UInt8 :=
  (peer.receive l t.exec.wire).read (delivered t.made).length

/-- The reads can happen: they store as many bytes as they return, within the buffer, and what they
have stored is, in order, what the channel held. -/
structure Possible (l : Link σ UInt8) (t : Transaction) : Prop where
  delivers : t.device.Delivers t.request.buffer.length t.env.reads
  channel : delivered t.made <+: (peer.receive l t.exec.wire).queue

/-- The payload is the reply to the frame of this very call. -/
def Matched (l : Link σ UInt8) (t : Transaction) (p : Bytes) : Prop :=
  ∃ body, t.sentFrame = body ++ [CR] ∧ CR ∉ body ∧
    replyFrame t.device.flags p = (peer.respond l.state body).2 ++ [CR]

/-- The driver is exact and the request is one line. -/
structure Plain (t : Transaction) : Prop where
  exact : t.device.Exact t.env.writes
  line : ∀ text, t.request.text = .ok text → CR ∉ text

/-! ### One transaction -/

section

variable {t} {peer} {l : Link σ UInt8} {p : Bytes}

theorem exec_ret (h : t.Returned p) :
    let recv := t.device.recv t.env.started t.request.buffer t.env.reads
    ∃ text n, t.request.text = .ok text ∧
      (t.device.send t.env.started text t.env.writes).outcome = .ret () ∧
      t.exec.wire = (t.device.send t.env.started text t.env.writes).wire ∧
      recv.outcome = .ret n ∧ p = recv.mem.take n ∧ t.exec.unread = recv.unread := by
  unfold Returned exec at h
  unfold exec
  cases hreq : t.request with
  | run text outbuf =>
      simp only [hreq] at h ⊢
      obtain ⟨n, hrun, hp⟩ := Outcome.bind_eq_ret.mp h
      obtain ⟨hsend, hrecv, heq⟩ := Device.run_ret t.device hrun
      rw [heq] at hp ⊢
      exact ⟨text, n, rfl, hsend, rfl, hrecv, (Outcome.ret.inj hp).symm, rfl⟩
  | execute m c args buf =>
      simp only [hreq] at h ⊢
      unfold P18.execute at h ⊢
      cases hpacked : P18.packRequest m c args with
      | error e => simp [hpacked] at h
      | ok packed =>
          simp only [hpacked] at h ⊢
          obtain ⟨response, hresponse, hp⟩ := Outcome.bind_eq_ret.mp h
          obtain ⟨n, hrun, hdecode⟩ := Outcome.bind_eq_ret.mp hresponse
          obtain ⟨hsend, hrecv, heq⟩ := Device.run_ret t.device hrun
          rw [heq] at hdecode ⊢
          refine ⟨packed, n, hpacked, hsend, rfl, hrecv, ?_, rfl⟩
          rw [← Outcome.ret.inj hp]
          exact P18.payload_of_decodeResponse hdecode

/-- A transaction that returns has read the frame of its payload first. -/
theorem made_of_returned (hd : t.device.Delivers t.request.buffer.length t.env.reads)
    (h : t.Returned p) :
    ∃ body, replyFrame t.device.flags p = body ++ [CR] ∧ CR ∉ body ∧
      body ++ [CR] <+: delivered t.made := by
  obtain ⟨text, n, -, -, -, hrecv, hp, hunread⟩ := exec_ret h
  obtain ⟨used, extra, hes, hsplit, hthrough, -⟩ := Device.recv_ret t.device t.env.started hd hrecv
  rw [← hp] at hsplit hthrough
  have hmade : t.made = used := by
    have hlen := congrArg List.length hes
    rw [List.length_append, ← hunread] at hlen
    have htake : t.env.reads.take used.length = used := by
      have := congrArg (List.take used.length) hes
      rwa [List.take_left] at this
    rw [made, hlen, Nat.add_sub_cancel, htake]
  refine ⟨(delivered used).takeWhile (· != CR), hthrough.symm, ?_, ?_⟩
  · intro hCR
    have := List.mem_takeWhile_imp hCR
    simp at this
  · have hhead : (delivered used).takeWhile (· != CR) ++ [CR] = replyFrame t.device.flags p :=
      hthrough
    rw [hmade, hhead]
    exact ⟨extra, hsplit.symm⟩

/-- **On an idle link** the payload is the reply to the frame the call has sent. -/
theorem matched_of_idle (hl : l.Idle 0) (hposs : t.Possible peer l) (h : t.Returned p) :
    t.Matched peer l p := by
  obtain ⟨body, hframe, hbody, hmade⟩ := made_of_returned hposs.delivers h
  obtain ⟨m, rest, hwire, hm, hanswer⟩ :=
    Peer.first_answer peer hl hbody (hmade.trans hposs.channel)
  refine ⟨m, ?_, hm, ?_⟩
  · rw [sentFrame, hwire]
    exact throughCR_append hm
  · rw [hframe, hanswer]

/-- What a plain transaction that returns has put on the wire is the frame of its text, with the
zeros that fill the last report. -/
theorem wire_of_returned (hplain : t.Plain) (h : t.Returned p) :
    ∃ text body n, t.request.text = .ok text ∧ frame t.device.flags text = body ++ [CR] ∧
      CR ∉ body ∧ t.exec.wire = body ++ [CR] ++ List.replicate n 0 := by
  obtain ⟨text, _, htext, hsend, hwire, -⟩ := exec_ret h
  obtain ⟨body, hframe, hbody⟩ : ∃ body, frame t.device.flags text = body ++ [CR] ∧ CR ∉ body :=
    exists_frame_eq (hplain.line text htext)
  obtain ⟨n, -, hpadded⟩ := t.device.driver.exists_padded_eq (body ++ [CR])
  refine ⟨text, body, n, htext, hframe, hbody, ?_⟩
  rw [hwire, (t.device.send_wire t.env.started hplain.exact).2 hsend, hframe, hpadded]

theorem sentFrame_of_returned (hplain : t.Plain) (h : t.Returned p) {text : Bytes}
    (htext : t.request.text = .ok text) : t.sentFrame = frame t.device.flags text := by
  obtain ⟨text', body, n, htext', hframe, hbody, hwire⟩ := wire_of_returned hplain h
  obtain rfl : text' = text := Except.ok.inj (htext'.symm.trans htext)
  rw [sentFrame, hwire, hframe, List.append_assoc, List.singleton_append]
  exact throughCR_append hbody

/-- A plain transaction that returns leaves nothing behind. -/
theorem idle_of_returned (hl : l.Idle 0) (hposs : t.Possible peer l) (hplain : t.Plain)
    (h : t.Returned p) : (next peer l t).Idle 0 := by
  obtain ⟨body, hframe, hbody, hmade⟩ := made_of_returned hposs.delivers h
  obtain ⟨text, m, n, -, -, hm, hwire⟩ := wire_of_returned hplain h
  have hreceive := Peer.receive_filled peer (by decide) hm hl.1 n
  rw [hl.2, List.nil_append, ← hwire] at hreceive
  have hchannel := hposs.channel
  rw [hreceive] at hchannel
  -- the one reply in the channel has been read to its end
  have hreply : body = (peer.respond l.state m).2 := by
    obtain ⟨rest, hrest⟩ := hmade.trans hchannel
    rw [List.append_assoc] at hrest
    exact eq_of_append_cons_eq hbody (peer.stop_notMem _ _ hm) hrest
  have hall : (body ++ [CR]).length ≤ (delivered t.made).length := hmade.length_le
  unfold next
  rw [hreceive]
  refine ⟨Peer.begun_replicate n, ?_⟩
  apply List.drop_eq_nil_of_le
  rwa [← hreply]

/-- A transaction that has sent nothing leaves an idle link as it was. -/
theorem idle_of_silent (hl : l.Idle 0) (hposs : t.Possible peer l) (hwire : t.exec.wire = []) :
    (next peer l t).Idle 0 := by
  have hchannel := hposs.channel
  unfold next
  rw [hwire, Peer.receive_nil] at hchannel ⊢
  rw [hl.2] at hchannel
  rw [List.prefix_nil.mp hchannel]
  exact hl

end

/-! ### Runs -/

/-- **Replies are matched on an idle link.**  All along a run, a call that meets an idle link and
returns a payload returns the reply to the frame it has sent itself; when it is plain, that is the
frame of its text, and it leaves the link idle again. -/
theorem replies_matched {l : Link σ UInt8} {ts : List Transaction}
    (hposs : ∀ st ∈ trace (next peer) l ts, st.2.Possible peer st.1) :
    ∀ st ∈ trace (next peer) l ts, st.1.Idle 0 → ∀ p, st.2.Returned p →
      st.2.Matched peer st.1 p ∧
        (st.2.Plain → (next peer st.1 st.2).Idle 0 ∧
          ∀ text, st.2.request.text = .ok text →
            st.2.sentFrame = frame st.2.device.flags text) := by
  intro st hst hidle p hp
  refine ⟨matched_of_idle hidle (hposs st hst) hp, ?_⟩
  intro hplain
  refine ⟨idle_of_returned hidle (hposs st hst) hplain hp, ?_⟩
  intro text htext
  exact sentFrame_of_returned hplain hp htext

/-- The call leaves nothing behind: it has returned, or it has sent nothing. -/
def Settled (t : Transaction) : Prop := (∃ p, t.Returned p) ∨ t.exec.wire = []

/-- **As long as calls return**, replies are matched: in a run of plain transactions from an idle
link, up to and including the first one that fails after it has sent something. -/
theorem matched_while_settled {l : Link σ UInt8} (hl : l.Idle 0) {ts : List Transaction}
    (hplain : ∀ t ∈ ts, t.Plain) (hposs : ∀ st ∈ trace (next peer) l ts, st.2.Possible peer st.1)
    {i : ℕ} {st : Link σ UInt8 × Transaction} (hi : (trace (next peer) l ts)[i]? = some st)
    (hbefore : ∀ st' ∈ (trace (next peer) l ts).take i, st'.2.Settled) :
    st.1.Idle 0 ∧ ∀ p, st.2.Returned p → st.2.Matched peer st.1 p := by
  have hist : (∀ st' ∈ (trace (next peer) l ts).take i,
      st'.2.Plain ∧ st'.2.Possible peer st'.1 ∧ st'.2.Settled) → st.1.Idle 0 := by
    refine @trace_history _ _ (next peer)
      (fun pre l =>
        (∀ st' ∈ pre, st'.2.Plain ∧ st'.2.Possible peer st'.1 ∧ st'.2.Settled) → l.Idle 0)
      l ts (fun _ => hl) ?_ i st hi
    intro pre l' t ih hall
    have hl' : l'.Idle 0 := ih fun st' hst' => hall st' (List.mem_append_left _ hst')
    obtain ⟨hp, hpo, hsettled⟩ := hall (l', t) (List.mem_append_right _ (List.mem_singleton_self _))
    rcases hsettled with ⟨p, hret⟩ | hwire
    · exact idle_of_returned hl' hpo hp hret
    · exact idle_of_silent hl' hpo hwire
  have hidle : st.1.Idle 0 := by
    apply hist
    intro st' hst'
    have hmem := List.mem_of_mem_take hst'
    exact ⟨hplain _ (mem_of_mem_trace (next peer) hmem), hposs st' hmem, hbefore st' hst'⟩
  exact ⟨hidle, fun p hp => matched_of_idle hidle (hposs st (List.mem_of_getElem? hi)) hp⟩

/-! ### A run that mixes up replies -/

/-- A device that knows the energy of every year: as many watt-hours as the year's number. -/
def yearMeter : Peer Unit UInt8 CR 0 where
  respond _ m :=
    let reply := ascii "^D0110000" ++ ((m.dropWhile (· = 0)).drop 7).take 4
    ((), reply ++ Voltronic.crcWrite (Voltronic.crcCalculate reply))
  stop_notMem _ m hm := by
    rw [List.mem_append, List.mem_append, not_or, not_or]
    refine ⟨⟨by decide, ?_⟩, Voltronic.CR_notMem_crcWrite _⟩
    intro hmem
    have hline := List.mem_of_mem_drop (List.mem_of_mem_take hmem)
    exact hm ((List.dropWhile_sublist _).subset hline)
  respond_fill _ _ := rfl

/-- `get-year-generated` at time `now`, with these reads. -/
def askYear (now : UInt64) (year : String) (reads : List ReadEvent) : Transaction :=
  ⟨⟨.usb, Voltronic.defaultFlags, Voltronic.TIMEOUT⟩,
    .execute P18.x86 .getYearGenerated [ascii year] P18.zeroBuffer,
    ⟨now, [⟨9, 8, now, now⟩, ⟨9, 8, now, now⟩], now, now, reads⟩⟩

/-- The reply for a year, in two reports. -/
def reports (now : UInt64) (year : String) : List ReadEvent :=
  let reply := frame Voltronic.defaultFlags (ascii "^D0110000" ++ ascii year)
  [⟨8, reply.take 8, now, now⟩, ⟨8, reply.drop 8, now, now⟩]

/-- Two calls, both answered in time. -/
def punctual : List Transaction :=
  [askYear 0 "2020" (reports 10 "2020"), askYear 2000 "2021" (reports 2010 "2021")]

/-- The first call has nothing to read for 1001 ms; its reply comes after that. -/
def late : List Transaction :=
  [askYear 0 "2020" [⟨0, [], 1001, 1001⟩], askYear 2000 "2021" (reports 2010 "2020")]

/-- A silent link. -/
def silent : Link Unit UInt8 := ⟨(), [], []⟩

theorem askYear_plain {now : UInt64} {year : String} {reads : List ReadEvent} {text : Bytes}
    (htext : P18.packRequest P18.x86 .getYearGenerated [ascii year] = .ok text)
    (hline : CR ∉ text) : (askYear now year reads).Plain := by
  constructor
  · intro e he n hn
    simp only [askYear, List.mem_cons, List.not_mem_nil, or_false, or_self] at he
    subst he
    have hn : Except.ok 8 = (Except.ok n : Except Exn ℕ) := hn
    obtain rfl := Except.ok.inj hn
    exact ⟨rfl, by decide, fun _ => rfl⟩
  · intro text' htext'
    obtain rfl : text = text' := Except.ok.inj (htext.symm.trans htext')
    exact hline

theorem askYear_possible {l : Link Unit UInt8} {now : UInt64} {year : String}
    {reads : List ReadEvent}
    (hdelivers : (askYear now year reads).device.Delivers 256 reads)
    (hchannel : delivered (askYear now year reads).made <+:
      (yearMeter.receive l (askYear now year reads).exec.wire).queue) :
    (askYear now year reads).Possible yearMeter l := by
  refine ⟨?_, hchannel⟩
  have hroom : (askYear now year reads).request.buffer.length = 256 := List.length_replicate
  rw [hroom]
  exact hdelivers

theorem punctual_possible :
    ∀ st ∈ trace (next yearMeter) silent punctual, st.2.Possible yearMeter st.1 := by
  intro st hst
  rcases List.mem_cons.mp hst with rfl | hst
  · apply askYear_possible
    · exact .inr ⟨rfl, by decide, .inr ⟨rfl, by decide, trivial⟩⟩
    · decide +kernel
  · obtain rfl := List.mem_singleton.mp hst
    apply askYear_possible
    · exact .inr ⟨rfl, by decide, .inr ⟨rfl, by decide, trivial⟩⟩
    · decide +kernel

/-- Both calls return the energy of their own year. -/
theorem replies_matched_punctual :
    let run := trace (next yearMeter) silent punctual
    ∃ p, (run.get ⟨1, by decide⟩).2.Returned p ∧
      (run.get ⟨1, by decide⟩).2.Matched yearMeter (run.get ⟨1, by decide⟩).1 p := by
  intro run
  have hidle : (run.get ⟨1, by decide⟩).1.Idle 0 := by
    show (next yearMeter silent (askYear 0 "2020" (reports 10 "2020"))).Idle 0
    constructor <;> decide +kernel
  have hreturned : (run.get ⟨1, by decide⟩).2.Returned (ascii "^D01100002021") := by
    show (askYear 2000 "2021" (reports 2010 "2021")).exec.outcome = _
    decide +kernel
  refine ⟨_, hreturned, ?_⟩
  exact (replies_matched yearMeter punctual_possible _ (List.get_mem _ _) hidle _ hreturned).1

theorem late_possible :
    ∀ st ∈ trace (next yearMeter) silent late, st.2.Possible yearMeter st.1 := by
  intro st hst
  rcases List.mem_cons.mp hst with rfl | hst
  · apply askYear_possible
    · exact .inr ⟨rfl, by decide, trivial⟩
    · decide
  · obtain rfl := List.mem_singleton.mp hst
    apply askYear_possible
    · exact .inr ⟨rfl, by decide, .inr ⟨rfl, by decide, trivial⟩⟩
    · decide +kernel

theorem late_plain : ∀ t ∈ late, t.Plain := by
  intro t ht
  have hpacked : ∀ year ∈ ["2020", "2021"],
      P18.packRequest P18.x86 .getYearGenerated [ascii year] =
        .ok (ascii "^P009EY" ++ ascii year) := by
    decide
  rcases List.mem_cons.mp ht with rfl | ht
  · exact askYear_plain (hpacked "2020" (by decide)) (by decide)
  · obtain rfl := List.mem_singleton.mp ht
    exact askYear_plain (hpacked "2021" (by decide)) (by decide)

/-- The second call asks for 2021 and returns the energy of 2020: the reply the first call has
not waited for. -/
theorem late_reply_returned : ¬ ∀ (σ : Type) (peer : Peer σ UInt8 CR 0) (l : Link σ UInt8)
    (ts : List Transaction), l.Idle 0 → (∀ t ∈ ts, t.Plain) →
      (∀ st ∈ trace (next peer) l ts, st.2.Possible peer st.1) →
      ∀ st ∈ trace (next peer) l ts, ∀ p, st.2.Returned p → st.2.Matched peer st.1 p := by
  intro h
  let second := (trace (next yearMeter) silent late).get ⟨1, by decide⟩
  have hreturned : second.2.Returned (ascii "^D01100002020") := by
    show (askYear 2000 "2021" (reports 2010 "2020")).exec.outcome = _
    decide +kernel
  obtain ⟨body, hsent, -, hreply⟩ :=
    h Unit yearMeter silent late ⟨rfl, rfl⟩ late_plain late_possible second
      (List.get_mem _ _) _ hreturned
  have hbody : body = (askYear 2000 "2021" (reports 2010 "2020")).sentFrame.dropLast := by
    rw [show (askYear 2000 "2021" (reports 2010 "2020")).sentFrame = body ++ [CR] from hsent]
    simp
  rw [hbody] at hreply
  revert hreply
  show ¬ replyFrame Voltronic.defaultFlags (ascii "^D01100002020") = _
  decide +kernel

end Transaction

end InverterTools
