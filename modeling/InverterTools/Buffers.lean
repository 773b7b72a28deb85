import InverterTools.Framing
import InverterTools.Decoding
import InverterTools.Server

/-! # Commands stay inside their buffers

As long as the driver libraries report what they have transferred, or an error that becomes an
exception, no command leaves a buffer or a container: the write pointer stays in the frame, the
read pointer in the 256 bytes of the response, and decoding reads below 256 whatever the device
has announced.  A negative result of the serial library breaks this. -/

namespace InverterTools

open P18 (CommandType Machine ResponseBuffer)
open Voltronic (Device ReadEvent WriteEvent)

namespace Voltronic.Device

variable (dev : Device) (started : UInt64)

/-- Every write reports a number of bytes, or throws. -/
def Counts (es : List WriteEvent) : Prop :=
  ∀ e ∈ es, ∀ n, dev.driver.write e.code = .ok n → n < 2 ^ 31

theorem writeLoop_ne_fault {data : Bytes} {es : List WriteEvent} {off left : ℤ} {wire : Bytes}
    (hcounts : dev.Counts es) (hoff : 0 ≤ off) (hleft : off + left = data.length) :
    (dev.writeLoop started data off left wire es).outcome ≠ .fault := by
  induction es generalizing off left wire with
  | nil => simp [writeLoop]
  | cons e es ih =>
      have hrange : ¬ (off < 0 ∨ (data.length : ℤ) < off + left) := by
        omega
      unfold writeLoop
      rw [if_neg hrange]
      cases hw : dev.driver.write e.code with
      | error x => simp
      | ok n =>
          have hlt := hcounts e List.mem_cons_self n hw
          simp only [toInt_of_lt hlt, toOffset_of_lt hlt]
          split_ifs with hdone htime
          · simp
          · simp
          · apply ih
            · intro e' he'
              exact hcounts e' (List.mem_cons_of_mem _ he')
            · omega
            · omega

theorem readLoop_ne_fault {cap : ℕ} {es : List ReadEvent} {got : Bytes} {s : ReadState}
    (hs : Filled cap got s) (hd : dev.Delivers s.left es) :
    (dev.readLoop started es s).outcome ≠ .fault := by
  induction es generalizing got s with
  | nil => simp [readLoop]
  | cons e es ih =>
      unfold readLoop
      rcases hd with ⟨x, hx⟩ | ⟨hok, hroom, hd⟩
      · simp [hx]
      · rw [hs.left_eq] at hroom
        obtain ⟨-, -, hfound, hmore⟩ := hs.scan hroom
        by_cases hCR : CR ∈ e.data
        · simp only [hok, hfound hCR]
          simp
        · obtain ⟨s', hscan, -, hs'⟩ := hmore hCR
          simp only [hok, hscan]
          split_ifs
          · simp
          · simp
          · apply ih hs'
            have hleft : s.left - e.data.length = s'.left := by
              rw [hs.left_eq, hs'.left_eq, List.length_append]
              omega
            exact hleft ▸ hd

theorem run_ne_fault {env : Script} {inbuf outbuf : Bytes} (hcounts : dev.Counts env.writes)
    (hd : dev.Delivers outbuf.length env.reads) : (dev.run env inbuf outbuf).outcome ≠ .fault := by
  have hsend : (dev.send env.started inbuf env.writes).outcome ≠ .fault :=
    dev.writeLoop_ne_fault env.started hcounts le_rfl (by simp)
  have hloop := dev.readLoop_ne_fault env.started (filled_start outbuf) hd
  unfold run
  cases hs : (dev.send env.started inbuf env.writes).outcome with
  | throw x => simp [hs]
  | pending => simp [hs]
  | fault => exact absurd hs hsend
  | ret u =>
      simp only [hs]
      split_ifs
      · simp
      · unfold recv
        cases hr : (dev.readLoop env.started env.reads ⟨outbuf, 0, outbuf.length, 0⟩).outcome with
        | throw x => simp [hr]
        | pending => simp [hr]
        | fault => exact absurd hr hloop
        | ret n =>
            simp only [hr, Outcome.ret_bind]
            exact (Outcome.lift_ended _).1

end Voltronic.Device

namespace P18

variable {c : CommandType} {rawSize : ℕ} {mem : Bytes}

/-- In a buffer of 256 bytes there is enough for every response class. -/
theorem enough_256 (hm : mem.length = 256) (c : CommandType) : Enough c 256 mem := by
  cases c with
  | getProtocolID => exact .inl (by omega)
  | getCurrentTime => exact .inl (by omega)
  | getTotalGenerated => exact (by decide : 13 ≤ 256)
  | getYearGenerated => exact (by decide : 13 ≤ 256)
  | getMonthGenerated => exact (by decide : 13 ≤ 256)
  | getDayGenerated => exact (by decide : 13 ≤ 256)
  | getWorkingMode => exact (by decide : 7 ≤ 256)
  | getSerialNumber =>
      refine ⟨by omega, ?_⟩
      intro len hlen hmax
      have hs : (dataField mem 0 2).length = 2 := by
        rw [dataField, List.length_take, List.length_drop]
        omega
      have := stoul_two_chars hs hlen hmax
      omega
  | _ => exact trivial

theorem validate_confined (hm : mem.length = 256) (c : CommandType) (rawSize : ℕ) :
    (validate c rawSize).Confined 256 mem := by
  have hbyte {i : ℕ} (hi : i < 256) : (Probe.byte i : Probe Exn UInt8).Confined 256 mem :=
    (Probe.confined_byte (by omega)).mpr hi
  have hrange : (Probe.range 2 3 : Probe Exn Bytes).Confined 256 mem :=
    (Probe.confined_range (by omega)).mpr (.inr (by omega))
  unfold validate
  split_ifs
  · unfold setValidate
    split_ifs
    · exact Probe.confined_ret _ 256 mem
    · refine Probe.confined_bind.mpr ⟨hbyte (by omega), ?_⟩
      intro b0 _
      split_ifs
      · exact Probe.confined_ret _ 256 mem
      · exact Probe.confined_bind.mpr ⟨hbyte (by omega), fun b1 _ => Probe.confined_ret _ 256 mem⟩
  · unfold getValidate
    split_ifs
    · exact Probe.confined_ret _ 256 mem
    · refine Probe.confined_bind.mpr ⟨hbyte (by omega), ?_⟩
      intro b0 _
      split_ifs
      · exact Probe.confined_ret _ 256 mem
      · refine Probe.confined_bind.mpr ⟨hbyte (by omega), ?_⟩
        intro b1 _
        split_ifs
        · exact Probe.confined_ret _ 256 mem
        · refine Probe.confined_bind.mpr ⟨hrange, ?_⟩
          intro lenbuf _
          exact Probe.confined_bind.mpr ⟨Probe.confined_lift _ 256 mem, fun len _ =>
            Probe.confined_ret _ 256 mem⟩

theorem unpack_ne_fault (hm : mem.length = 256) (hr : rawSize ≤ 256)
    (hv : (validate c rawSize).run mem = .ret true) : (unpack c rawSize).run mem ≠ .fault := by
  cases hc : c.isSet with
  | true =>
      have hnothing : unpack c rawSize = pure .nothing := by
        cases c <;> first | rfl | cases hc
      rw [hnothing]
      simp
  | false =>
      have h5 : 5 ≤ rawSize := five_le_of_validate hc hv
      -- the classes decoded at fixed offsets do not look at the size
      have hfixed : (unpack c 256).run mem ≠ .fault :=
        ((unpack_confined_iff hc hm le_rfl (by omega)).mpr (enough_256 hm c)).2
      have hlist (h : Enough c rawSize mem) : (unpack c rawSize).run mem ≠ .fault :=
        ((unpack_confined_iff hc hm hr h5).mpr h).2
      cases c with
      | getProtocolID => exact hfixed
      | getCurrentTime => exact hfixed
      | getTotalGenerated => exact hfixed
      | getYearGenerated => exact hfixed
      | getMonthGenerated => exact hfixed
      | getDayGenerated => exact hfixed
      | getSerialNumber => exact hfixed
      | getWorkingMode => exact hfixed
      | _ => exact hlist trivial

/-- **A command stays inside its buffers** when the driver reports what it has transferred. -/
theorem execute_ne_fault (m : Machine) {dev : Device} {env : Device.Script} {buf : ResponseBuffer}
    (c : CommandType) (args : List Bytes) (hcounts : dev.Counts env.writes)
    (hd : dev.Delivers 256 env.reads) : (execute m dev env buf c args).outcome ≠ .fault := by
  have hd' : dev.Delivers buf.1.length env.reads := by
    rw [buf.2]
    exact hd
  unfold execute
  cases packRequest m c args with
  | error e => simp
  | ok packed =>
      have hrun : (dev.run env packed buf.1).outcome ≠ .fault := dev.run_ne_fault hcounts hd'
      cases ho : (dev.run env packed buf.1).outcome with
      | throw e => simp [ho]
      | pending => simp [ho]
      | fault => exact absurd ho hrun
      | ret n =>
          obtain ⟨-, hrecv, heq⟩ := Device.run_ret dev ho
          obtain ⟨-, -, -, -, -, hlen, hn⟩ := Device.recv_ret dev env.started hd' hrecv
          rw [buf.2] at hlen hn
          simp only [ho, Outcome.ret_bind]
          rw [heq]
          unfold decodeResponse
          cases hv : (validate c n).run (dev.recv env.started buf.1 env.reads).mem with
          | throw e => simp
          | pending => simp
          | fault => exact absurd hv (validate_confined hlen c n).2
          | ret valid =>
              cases valid with
              | false => simp
              | true =>
                  have hunpack := unpack_ne_fault hlen hn hv
                  cases hu : (unpack c n).run (dev.recv env.started buf.1 env.reads).mem with
                  | ret fields => simp
                  | throw e => simp
                  | pending => simp
                  | fault => exact absurd hu hunpack

end P18

namespace Server

/-- With such a driver, a call that does not wait for ever returns or throws. -/
theorem executeCommand_ended (m : Machine) {s : Server} {env : Env} (c : CommandType)
    (args : List Bytes) (hcounts : s.device.Counts env.device.writes)
    (hd : s.device.Delivers 256 env.device.reads)
    (hpending : (executeCommand m s env c args).outcome ≠ .pending) :
    (executeCommand m s env c args).outcome.Ended := by
  refine ⟨?_, hpending⟩
  have hexecute : (P18.execute m s.device env.device env.buffer c args).outcome ≠ .fault :=
    P18.execute_ne_fault m c args hcounts hd
  unfold executeCommand
  cases s.cached c args env.cacheNow with
  | some response => simp
  | none =>
      have hdevice : (s.setCache c none).device = s.device := rfl
      dsimp only
      rw [hdevice]
      cases hx : (P18.execute m s.device env.device env.buffer c args).outcome with
      | ret response => simp
      | throw e => simp
      | pending => simp
      | fault => exact absurd hx hexecute

end Server

end InverterTools
