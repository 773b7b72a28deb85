import InverterTools.Device

/-! # How long a driver waits

Both drivers turn the milliseconds left of the timeout into the wait they hand to their library, and
both libraries have a value for a wait without end.  `SerialDevice::getTimeout` keeps clear of it;
the cast of `USBDevice::read` makes a negative number of half of all values, and
`wait_bounded_iff` says of which. -/

namespace InverterTools.Voltronic

theorem toInt_eq (n : ℕ) : toInt n =
    if (n : ℤ) % 2 ^ 32 < 2 ^ 31 then (n : ℤ) % 2 ^ 32 else (n : ℤ) % 2 ^ 32 - 2 ^ 32 := rfl

theorem toInt_nonneg_iff {n : ℕ} : 0 ≤ toInt n ↔ n % 2 ^ 32 < 2 ^ 31 := by
  simp only [toInt_eq]
  split_ifs <;> omega

theorem toInt_le (n : ℕ) : toInt n ≤ n := by
  simp only [toInt_eq]
  split_ifs <;> omega

namespace Device

variable (dev : Device) (started now : UInt64)

/-- The wait that `USBDevice::read` passes to `hid_read_timeout`; a negative one has no end. -/
def hidTimeout : ℤ :=
  if dev.timeout = 0 then -1 else toInt (dev.getTimeLeft started now).toNat

/-- `SerialDevice::getTimeout`, the wait that is passed to libserialport; `0` has no end. -/
def getTimeout : ℕ :=
  if dev.timeout = 0 then 0 else max (toUnsigned (dev.getTimeLeft started now).toNat) 1

/-- Neither driver waits without end, or for longer than is left (or a millisecond). -/
structure Bounded : Prop where
  hid_nonneg : 0 ≤ dev.hidTimeout started now
  serial_ne : dev.getTimeout started now ≠ 0
  hid_le : dev.hidTimeout started now ≤ max 1 (dev.getTimeLeft started now).toNat
  serial_le : dev.getTimeout started now ≤ max 1 (dev.getTimeLeft started now).toNat

variable {dev}

/-- The serial driver is bounded whatever the timeout is. -/
theorem getTimeout_bounded (htimeout : dev.timeout ≠ 0) : dev.getTimeout started now ≠ 0 ∧
    dev.getTimeout started now ≤ max 1 (dev.getTimeLeft started now).toNat := by
  have hmod : toUnsigned (dev.getTimeLeft started now).toNat ≤ _ := Nat.mod_le _ (2 ^ 32)
  rw [getTimeout, if_neg htimeout]
  omega

theorem hidTimeout_nonneg_iff (htimeout : dev.timeout ≠ 0) : 0 ≤ dev.hidTimeout started now ↔
    dev.timeout < now - started ∨ (dev.timeout - (now - started)).toNat % 2 ^ 32 < 2 ^ 31 := by
  rw [hidTimeout, if_neg htimeout, toInt_nonneg_iff, getTimeLeft, if_neg htimeout, getElapsedTime]
  dsimp only
  split_ifs with hlate
  · simp [hlate]
  · simp [hlate]

/-- **The wait of a driver.**  With a timeout set, no driver waits without end or for longer than
is left, if and only if the timeout is over or the low 32 bits of what is left of it are below
`2 ^ 31`. -/
theorem wait_bounded_iff (htimeout : 0 < dev.timeout) : dev.Bounded started now ↔
    dev.timeout < now - started ∨ (dev.timeout - (now - started)).toNat % 2 ^ 32 < 2 ^ 31 := by
  have hne : dev.timeout ≠ 0 := (UInt64.pos_iff_ne_zero.mp htimeout)
  obtain ⟨hserial, hle⟩ := getTimeout_bounded started now hne
  rw [← hidTimeout_nonneg_iff started now hne]
  refine ⟨Bounded.hid_nonneg, fun hhid => ⟨hhid, hserial, ?_, hle⟩⟩
  rw [hidTimeout, if_neg hne]
  exact (toInt_le _).trans (Int.ofNat_le.mpr (le_max_right _ _))

/-- A timeout of `2 ^ 31` milliseconds is waited for without end from the start. -/
theorem wait_unbounded_int_min :
    ¬ ∀ (dev : Device) (started now : UInt64), 0 < dev.timeout → started ≤ now →
      dev.Bounded started now := by
  intro h
  exact absurd (h ⟨.usb, defaultFlags, 2 ^ 31⟩ 0 0 (by decide) (by decide)).hid_nonneg (by decide)

/-- The default timeout, a third of it gone. -/
theorem wait_bounded_default : Bounded ⟨.usb, defaultFlags, TIMEOUT⟩ 5000 5333 :=
  (wait_bounded_iff 5000 5333 (by decide)).mpr (.inr (by decide))

end Device

end InverterTools.Voltronic
