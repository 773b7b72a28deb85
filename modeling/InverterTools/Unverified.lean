import InverterTools.Reception

/-! # `FLAG_VERIFY_CRC`

`recv` tests in one condition that the checksum is to be verified and that it is the expected one,
and what fails the condition is refused.  So with `FLAG_READ_CRC` alone no reply is ever returned
(`unverified_not_ret`), and clearing `FLAG_VERIFY_CRC` makes a device more permissive only where
neither flag matters, on lines that are too short for a checksum (`unverified_permissive_iff`). -/

namespace InverterTools.Voltronic.Device

variable {dev : Device} {started : UInt64} {buf : Bytes} {es : List ReadEvent}

/-- The device with `FLAG_VERIFY_CRC` cleared. -/
def unverified (dev : Device) : Device :=
  { dev with flags := { dev.flags with verifyCrc := false } }

theorem checkResponse_unverified {flags : Flags} (hread : flags.readCrc = true)
    (hverify : flags.verifyCrc = false) (bytesRead n : ℕ) :
    checkResponse flags buf bytesRead ≠ .ok n := by
  intro h
  simp only [checkResponse, hread, hverify, Bool.false_eq_true, false_and, if_true, if_false] at h
  split_ifs at h

theorem three_le_of_checkResponse {flags : Flags} (hread : flags.readCrc = true) {bytesRead n : ℕ}
    (h : checkResponse flags buf bytesRead = .ok n) : 3 ≤ bytesRead := by
  by_contra hshort
  simp only [checkResponse, hread, if_true] at h
  rw [if_pos (by omega)] at h
  cases h

/-- With `FLAG_READ_CRC` alone `recv` returns nothing, whatever the driver does. -/
theorem unverified_not_ret (hread : dev.flags.readCrc = true) (n : ℕ) :
    (dev.unverified.recv started buf es).outcome ≠ .ret n := by
  intro h
  simp only [recv, Outcome.bind_eq_ret, Outcome.lift_eq_ret] at h
  obtain ⟨size, -, hcheck⟩ := h
  have hflags : dev.unverified.flags.readCrc = true := hread
  exact checkResponse_unverified hflags rfl size n hcheck

/-- Clearing `FLAG_VERIFY_CRC` keeps every reply that is returned with it, and lets every line with
room for a checksum through, whatever its last two bytes are. -/
structure Permissive (dev : Device) (started : UInt64) (buf : Bytes) (es : List ReadEvent) :
    Prop where
  keeps : ∀ n, (dev.recv started buf es).outcome = .ret n →
    (dev.unverified.recv started buf es).outcome = .ret n ∧
      (dev.unverified.recv started buf es).mem.take n = (dev.recv started buf es).mem.take n
  accepts : ∀ mem, dev.Line started buf [] es mem → 3 ≤ lineSize mem →
    (dev.unverified.recv started buf es).outcome = .ret (lineSize mem - 3) ∧
      (dev.unverified.recv started buf es).mem = mem

/-- **`FLAG_VERIFY_CRC` cleared.**  For a device that reads checksums, any buffer and any reads:
the device without the flag is more permissive if and only if the reads complete no line of three
bytes or more. -/
theorem unverified_permissive_iff (hread : dev.flags.readCrc = true)
    (hbuf : buf.length < 2 ^ 62) (ha : Answers buf.length es) : dev.Permissive started buf es ↔
      ∀ mem, dev.Line started buf [] es mem → lineSize mem < 3 := by
  constructor
  · intro h mem hline
    by_contra hlong
    exact unverified_not_ret hread _ (h.accepts mem hline (not_lt.mp hlong)).1
  · intro hshort
    refine ⟨fun n h => ?_, fun mem hline hlong => absurd (hshort mem hline) (not_lt.mpr hlong)⟩
    -- what is returned was at the head of a line that had room for the checksum
    simp only [recv, Outcome.bind_eq_ret, Outcome.lift_eq_ret] at h
    obtain ⟨size, hloop, hcheck⟩ := h
    obtain ⟨hline, hsize⟩ :=
      (dev.readLoop_ret_iff started hbuf (filled_start buf) rfl ha).mp ⟨hloop, rfl⟩
    have hthree := three_le_of_checkResponse hread hcheck
    have := hshort _ hline
    omega

/-- A carriage return on its own is too short for both devices. -/
theorem unverified_permissive_empty :
    Permissive ⟨.usb, defaultFlags, TIMEOUT⟩ 0 (List.replicate 8 0) [⟨1, [CR], 5, 5⟩] := by
  refine (unverified_permissive_iff rfl (by decide) ?_).mpr ?_
  · exact ⟨by decide, .inl ⟨rfl, trivial⟩⟩
  · rintro mem (⟨rfl, -⟩ | ⟨-, -, hnone⟩)
    · decide
    · exact hnone.elim

/-- The frame of `"1"` is returned with the flag, and refused without it. -/
theorem unverified_refuses_frame :
    ¬ ∀ (dev : Device) (started : UInt64) (buf : Bytes) (es : List ReadEvent),
      dev.flags.readCrc = true → dev.flags.verifyCrc = true → buf.length < 2 ^ 62 →
      Answers buf.length es → dev.Permissive started buf es := by
  intro h
  have hframe := h ⟨.usb, defaultFlags, TIMEOUT⟩ 0 (List.replicate 8 0)
    [⟨4, frame defaultFlags (ascii "1"), 5, 5⟩] rfl rfl (by decide)
    ⟨by decide, .inl ⟨rfl, trivial⟩⟩
  exact absurd (hframe.keeps 1 (by decide)).1 (by decide)

end InverterTools.Voltronic.Device
