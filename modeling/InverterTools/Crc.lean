import InverterTools.Lib.Bytes

/-! # The checksum of the Voltronic protocol (`voltronic/crc.cc`)

A CRC computed by nibbles from a table of 16 words, after which a result byte that would be `(`,
CR or LF is increased by one.  `crcCalculate_not_reserved` says that no such byte is left, which
is what keeps a frame in one piece; `crcWrite_crcRead` and `crcRead_crcWrite` that
the two byte orders agree. -/

namespace InverterTools.Voltronic

/-- `table`. -/
def table : List UInt16 := [
  0x0000, 0x1021, 0x2042, 0x3063,
  0x4084, 0x50A5, 0x60C6, 0x70E7,
  0x8108, 0x9129, 0xA14A, 0xB16B,
  0xC18C, 0xD1AD, 0xE1CE, 0xF1EF]

/-- `is_reserved`. -/
def isReserved (b : UInt8) : Bool := b == 0x28 || b == 0x0D || b == 0x0A

/-- `crc_read`: the big-endian word in the first two bytes. -/
def crcRead (b0 b1 : UInt8) : UInt16 := (b0.toUInt16 <<< 8) ||| b1.toUInt16

/-- The first byte `crc_write` stores. -/
def highByte (crc : UInt16) : UInt8 := ((crc >>> 8) &&& 0xFF).toUInt8

/-- The second byte `crc_write` stores. -/
def lowByte (crc : UInt16) : UInt8 := (crc &&& 0xFF).toUInt8

/-- `crc_write`. -/
def crcWrite (crc : UInt16) : Bytes := [highByte crc, lowByte crc]

/-- One round of the loop of `crc_calculate`: the high and then the low nibble of a byte. -/
def crcByte (crc : UInt16) (byte : UInt8) : UInt16 :=
  let crc := table.getD ((crc >>> 12) ^^^ (byte >>> 4).toUInt16).toNat 0 ^^^ (crc <<< 4)
  table.getD ((crc >>> 12) ^^^ (byte &&& 0x0F).toUInt16).toNat 0 ^^^ (crc <<< 4)

/-- The fix-up of the low result byte. -/
def escapeLow (crc : UInt16) : UInt16 := if isReserved crc.toUInt8 then crc + 1 else crc

/-- The fix-up of the high result byte. -/
def escapeHigh (crc : UInt16) : UInt16 :=
  if isReserved (crc >>> 8).toUInt8 then crc + 0x100 else crc

/-- `crc_calculate`. -/
def crcCalculate (buf : Bytes) : UInt16 :=
  if buf = [] then 0 else escapeHigh (escapeLow (buf.foldl crcByte 0))

/-! ### Bytes of a word -/

theorem highByte_toNat (crc : UInt16) : (highByte crc).toNat = crc.toNat / 256 := by
  have h := crc.toNat_lt
  simp only [highByte, UInt16.toNat_toUInt8, UInt16.toNat_and, UInt16.toNat_shiftRight]
  rw [show UInt16.toNat 0xFF = 2 ^ 8 - 1 from rfl, Nat.and_two_pow_sub_one_eq_mod]
  simp only [UInt16.reduceToNat, Nat.reduceMod, Nat.shiftRight_eq_div_pow]
  omega

theorem lowByte_toNat (crc : UInt16) : (lowByte crc).toNat = crc.toNat % 256 := by
  simp only [lowByte, UInt16.toNat_toUInt8, UInt16.toNat_and]
  rw [show UInt16.toNat 0xFF = 2 ^ 8 - 1 from rfl, Nat.and_two_pow_sub_one_eq_mod]
  omega

theorem crcRead_toNat (b0 b1 : UInt8) : (crcRead b0 b1).toNat = 256 * b0.toNat + b1.toNat := by
  have h0 := b0.toNat_lt
  have h1 := b1.toNat_lt
  have hs : (b0.toUInt16 <<< 8).toNat = 2 ^ 8 * b0.toNat := by
    simp only [UInt16.toNat_shiftLeft, UInt8.toNat_toUInt16, UInt16.reduceToNat, Nat.reduceMod,
      Nat.shiftLeft_eq]
    omega
  rw [crcRead, UInt16.toNat_or, hs, UInt8.toNat_toUInt16, ← Nat.two_pow_add_eq_or_of_lt (by omega)]

/-- Writing the word that two bytes hold stores these bytes. -/
theorem crcWrite_crcRead (b0 b1 : UInt8) : crcWrite (crcRead b0 b1) = [b0, b1] := by
  have h0 := b0.toNat_lt
  have h1 := b1.toNat_lt
  simp only [crcWrite, List.cons.injEq, and_true, ← UInt8.toNat_inj, highByte_toNat,
    lowByte_toNat, crcRead_toNat]
  omega

theorem crcRead_crcWrite (crc : UInt16) : crcRead (highByte crc) (lowByte crc) = crc := by
  rw [← UInt16.toNat_inj, crcRead_toNat, highByte_toNat, lowByte_toNat]
  omega

theorem crcWrite_injective : Function.Injective crcWrite := fun a b h => by
  obtain ⟨hhigh, hlow⟩ := List.cons.inj h
  rw [← crcRead_crcWrite a, hhigh, (List.cons.inj hlow).1, crcRead_crcWrite]

/-! ### No reserved byte in the result -/

theorem isReserved_iff {b : UInt8} :
    isReserved b = true ↔ b.toNat = 0x28 ∨ b.toNat = 0x0D ∨ b.toNat = 0x0A := by
  simp only [isReserved, Bool.or_eq_true, beq_iff_eq, ← UInt8.toNat_inj, or_assoc]
  rfl

theorem escapeLow_toNat (crc : UInt16) : (escapeLow crc).toNat =
    if crc.toNat % 256 = 0x28 ∨ crc.toNat % 256 = 0x0D ∨ crc.toNat % 256 = 0x0A
    then crc.toNat + 1 else crc.toNat := by
  have h := crc.toNat_lt
  simp only [escapeLow, isReserved_iff, UInt16.toNat_toUInt8]
  split_ifs
  · rw [UInt16.toNat_add, show UInt16.toNat 1 = 1 from rfl]
    omega
  · rfl

theorem escapeHigh_toNat (crc : UInt16) : (escapeHigh crc).toNat =
    if crc.toNat / 256 = 0x28 ∨ crc.toNat / 256 = 0x0D ∨ crc.toNat / 256 = 0x0A
    then crc.toNat + 256 else crc.toNat := by
  have h := crc.toNat_lt
  have hs : (crc >>> 8).toUInt8.toNat = crc.toNat / 256 := by
    simp only [UInt16.toNat_toUInt8, UInt16.toNat_shiftRight, UInt16.reduceToNat, Nat.reduceMod,
      Nat.shiftRight_eq_div_pow]
    omega
  simp only [escapeHigh, isReserved_iff, hs]
  split_ifs
  · rw [UInt16.toNat_add, show UInt16.toNat 0x100 = 256 from rfl]
    omega
  · rfl

theorem crcCalculate_not_reserved (buf : Bytes) :
    isReserved (highByte (crcCalculate buf)) = false ∧
      isReserved (lowByte (crcCalculate buf)) = false := by
  unfold crcCalculate
  split_ifs
  · exact ⟨rfl, rfl⟩
  · have h := (buf.foldl crcByte 0).toNat_lt
    simp only [← Bool.not_eq_true, isReserved_iff, highByte_toNat, lowByte_toNat, escapeHigh_toNat,
      escapeLow_toNat]
    split_ifs <;> omega

theorem CR_notMem_crcWrite (buf : Bytes) : CR ∉ crcWrite (crcCalculate buf) := by
  obtain ⟨h1, h2⟩ := crcCalculate_not_reserved buf
  rintro hmem
  simp only [crcWrite, List.mem_cons, List.not_mem_nil, or_false] at hmem
  rcases hmem with h | h
  · rw [← h] at h1
    exact absurd h1 (by decide)
  · rw [← h] at h2
    exact absurd h2 (by decide)

end InverterTools.Voltronic
