import InverterTools.Framing
import InverterTools.Xmodem

/-! # Flipped bits are detected

Two messages that differ in one bit have registers that differ by the syndrome of its place.  The
escaping of the two result bytes hides a difference of `1` or `3` in either byte; no syndrome of a
payload of up to 253 bytes is made of such differences (`syndrome_not_hidden`), so `recv` never
returns a payload with a flipped bit (`single_bit_detected`). -/

namespace InverterTools.Voltronic

open ShiftCrc

/-- The bits of a message, the highest bit of a byte first. -/
def bits (buf : Bytes) : List Bool := buf.flatMap fun byte => leading 8 byte.toBitVec

/-- The number of bits in which two messages of one length differ. -/
def distance (p q : Bytes) : ℕ := (List.zipWith Bool.xor (bits p) (bits q)).count true

theorem bits_length (buf : Bytes) : (bits buf).length = 8 * buf.length := by
  induction buf with
  | nil => rfl
  | cons byte buf ih =>
    rw [bits, List.flatMap_cons, List.length_append, length_leading, ← bits, ih, List.length_cons]
    omega

/-! ### What the escaping hides -/

theorem eq_or_succ_of_escapeByte_eq {a b : UInt8} (h : escapeByte a = escapeByte b) :
    a = b ∨ (isReserved a = true ∧ b = a + 1) ∨ (isReserved b = true ∧ a = b + 1) := by
  unfold escapeByte at h
  split_ifs at h with ha hb hb
  · exact .inl ((UInt8.add_left_inj 1).mp h)
  · exact .inr (.inl ⟨ha, h.symm⟩)
  · exact .inr (.inr ⟨hb, h⟩)
  · exact .inl h

/-- The differences of two registers that are stored as the same bytes. -/
def hidden (x : BitVec 16) : Bool :=
  [0, 1, 3].contains (x.toNat / 256) && [0, 1, 3].contains (x.toNat % 256)

theorem syndrome_not_hidden {k : ℕ} (hk : k < 8 * 253) :
    hidden (syndrome 0x1021#16 k) = false := by
  have hsweep : sweep 0x1021#16 (fun x => ! hidden x) (8 * 253) (syndrome 0x1021#16 0) = true := by
    decide +kernel
  simpa using sweep_spec hsweep k hk

theorem xor_of_escapeByte_eq {a b : UInt8} (h : escapeByte a = escapeByte b) :
    (a ^^^ b).toNat = 0 ∨ (a ^^^ b).toNat = 1 ∨ (a ^^^ b).toNat = 3 := by
  have hreserved {c : UInt8} (hc : isReserved c = true) : (c ^^^ (c + 1)).toNat = 1 ∨
      (c ^^^ (c + 1)).toNat = 3 := by
    simp only [isReserved, Bool.or_eq_true, beq_iff_eq, or_assoc] at hc
    rcases hc with rfl | rfl | rfl <;> decide
  rcases eq_or_succ_of_escapeByte_eq h with rfl | ⟨ha, rfl⟩ | ⟨hb, rfl⟩
  · exact .inl (by rw [UInt8.xor_self]; rfl)
  · exact .inr (hreserved ha)
  · rw [UInt8.xor_comm]
    exact .inr (hreserved hb)

/-- Registers that are stored as the same bytes have a hidden difference. -/
theorem hidden_of_crcWrite_eq {x y : UInt16}
    (h : (crcWrite x).map escapeByte = (crcWrite y).map escapeByte) :
    hidden (x ^^^ y).toBitVec = true := by
  simp only [crcWrite, List.map_cons, List.map_nil, List.cons.injEq, and_true] at h
  have hhigh : (x ^^^ y).toNat / 256 = (highByte x ^^^ highByte y).toNat := by
    rw [UInt8.toNat_xor, highByte_toNat, highByte_toNat, UInt16.toNat_xor]
    exact Nat.xor_div_two_pow (n := 8)
  have hlow : (x ^^^ y).toNat % 256 = (lowByte x ^^^ lowByte y).toNat := by
    rw [UInt8.toNat_xor, lowByte_toNat, lowByte_toNat, UInt16.toNat_xor]
    exact Nat.xor_mod_two_pow (n := 8)
  have hmem {n : ℕ} (hn : n = 0 ∨ n = 1 ∨ n = 3) : [0, 1, 3].contains n = true := by
    rcases hn with rfl | rfl | rfl <;> rfl
  rw [hidden, Bool.and_eq_true_iff, UInt16.toNat_toBitVec, hhigh, hlow]
  exact ⟨hmem (xor_of_escapeByte_eq h.1), hmem (xor_of_escapeByte_eq h.2)⟩

/-! ### The checksum -/

/-- Payloads that differ in one bit have different checksums. -/
theorem crcCalculate_ne_of_distance {p q : Bytes} (hlen : p.length = q.length)
    (hsize : p.length ≤ 253) (hone : distance p q = 1) : crcCalculate p ≠ crcCalculate q := by
  intro heq
  have hbits : (bits p).length = (bits q).length := by rw [bits_length, bits_length, hlen]
  obtain ⟨k, hk, hsyndrome⟩ := feeds_flipped 0x1021#16 0#16 hbits hone
  rw [bits_length] at hk
  have hstored : (crcWrite (p.foldl crcByte 0)).map escapeByte =
      (crcWrite (q.foldl crcByte 0)).map escapeByte := by
    rw [← crcWrite_crcCalculate, ← crcWrite_crcCalculate, heq]
  have hhidden := hidden_of_crcWrite_eq hstored
  rw [UInt16.toBitVec_xor, foldl_crcByte_eq_feeds, foldl_crcByte_eq_feeds] at hhidden
  have hregister : hidden (syndrome 0x1021#16 k) = true := hsyndrome ▸ hhidden
  rw [syndrome_not_hidden (by omega)] at hregister
  cases hregister

/-- **Flipped bits.**  Payloads of up to 253 bytes that differ in one bit have different checksums.
So when the reads bring the payload with that bit flipped in front of the checksum and the carriage
return of the payload that was sent, `recv` does not return what arrived; unless the flip itself
made a carriage return, it does not return at all. -/
theorem single_bit_detected (dev : Device) (started : UInt64) {p q extra buf : Bytes}
    {es : List ReadEvent} (hlen : p.length = q.length) (hsize : p.length ≤ 253)
    (hone : distance p q = 1) (hread : dev.flags.readCrc = true)
    (hd : dev.Delivers buf.length es)
    (hes : Device.delivered es <+: q ++ crcWrite (crcCalculate p) ++ CR :: extra) :
    crcCalculate p ≠ crcCalculate q ∧
      (∀ n, (dev.recv started buf es).outcome = .ret n →
        (dev.recv started buf es).mem.take n ≠ q) ∧
      (CR ∉ q → ∀ n, (dev.recv started buf es).outcome ≠ .ret n) := by
  have hcrc := crcCalculate_ne_of_distance hlen hsize hone
  have hframe (payload : Bytes) : Device.replyFrame dev.flags payload =
      payload ++ crcWrite (crcCalculate payload) ++ [CR] := by
    rw [Device.replyFrame, Device.frame, hread]
    rfl
  -- what stands before the first carriage return is the frame of what is returned
  have hbody {n : ℕ} (hret : (dev.recv started buf es).outcome = .ret n) :
      let payload := (dev.recv started buf es).mem.take n
      CR ∉ payload ++ crcWrite (crcCalculate payload) ∧
        ∃ rest, payload ++ crcWrite (crcCalculate payload) ++ CR :: rest =
          q ++ crcWrite (crcCalculate p) ++ CR :: extra := by
    intro payload
    obtain ⟨used, rest, hused, hdelivered, hthrough, -⟩ := Device.recv_ret dev started hd hret
    obtain ⟨tail, htail⟩ := hes
    rw [hframe] at hdelivered hthrough
    refine ⟨CR_notMem_of_throughCR hthrough,
      rest ++ Device.delivered (dev.recv started buf es).unread ++ tail, ?_⟩
    have hall : Device.delivered es = Device.delivered used ++
        Device.delivered (dev.recv started buf es).unread := by
      conv_lhs => rw [hused]
      exact List.flatMap_append
    rw [← htail, hall, hdelivered]
    simp [payload]
  have hnever : CR ∉ q → ∀ n, (dev.recv started buf es).outcome ≠ .ret n := by
    intro hq n hret
    obtain ⟨hpayload, rest, hstream⟩ := hbody hret
    have hsame := eq_of_append_cons_eq hpayload
      (by rw [List.mem_append, not_or]; exact ⟨hq, CR_notMem_crcWrite p⟩) hstream
    obtain ⟨hq', hword⟩ := List.append_inj' hsame rfl
    rw [hq'] at hword
    exact hcrc (crcWrite_injective hword).symm
  refine ⟨hcrc, fun n hret hsame => hnever ?_ n hret, hnever⟩
  have hclean := (hbody hret).1
  rw [hsame, List.mem_append, not_or] at hclean
  exact hclean.1

/-- The reply `"10"` that arrives as `"12"`, in two reads. -/
theorem single_bit_detected_two_chunks :
    let dev : Device := ⟨.usb, defaultFlags, TIMEOUT⟩
    let es : List ReadEvent := [⟨2, ascii "12", 5, 5⟩,
      ⟨3, crcWrite (crcCalculate (ascii "10")) ++ [CR], 10, 10⟩]
    ∀ n, (dev.recv 0 (List.replicate 8 0) es).outcome ≠ .ret n := by
  intro dev es
  have hes : Device.delivered es <+:
      ascii "12" ++ crcWrite (crcCalculate (ascii "10")) ++ CR :: [] := ⟨[], by decide⟩
  have hd : dev.Delivers (List.replicate 8 (0 : UInt8)).length es :=
    .inr ⟨rfl, by decide, .inr ⟨rfl, by decide, trivial⟩⟩
  exact (single_bit_detected dev 0 (by decide) (by decide) (by decide) rfl hd hes).2.2 (by decide)

end InverterTools.Voltronic
