import InverterTools.Crc
import InverterTools.Lib.ShiftCrc

/-! # The checksum is CRC-16/XMODEM with escaped bytes

`xmodem` takes the message bit by bit, the highest bit of a byte first.  The table of
`crc_calculate` holds what four zero bits make of a nibble (`table_eq_feeds`), so each of the two
look-ups for a byte is four steps of the register (`lookup_eq_feeds`).

The fix-up of the result acts on each byte by itself: a reserved byte is below `0xFF`, so adding
one does not carry (`crcWrite_escape`). -/

namespace InverterTools.Voltronic

open ShiftCrc

/-- The bit-by-bit checksum: polynomial `0x1021`, start `0`, nothing reflected. -/
def xmodem (buf : Bytes) : BitVec 16 :=
  feeds 0x1021#16 0#16 (buf.flatMap fun byte => leading 8 byte.toBitVec)

/-- A byte that would be reserved is increased by one. -/
def escapeByte (b : UInt8) : UInt8 := if isReserved b then b + 1 else b

/-! ### Nibbles -/

theorem table_eq_feeds : ∀ i < 16,
    (table.getD i 0).toBitVec = feeds 0x1021#16 0#16 (leading 4 (BitVec.ofNat 4 i)) := by
  decide

theorem index_lt (crc : UInt16) {nibble : UInt16} (h : nibble.toNat < 16) :
    ((crc >>> 12) ^^^ nibble).toNat < 16 := by
  have hc : (crc >>> 12).toNat < 16 := by
    have := crc.toNat_lt
    simp only [UInt16.toNat_shiftRight, UInt16.reduceToNat, Nat.reduceMod,
      Nat.shiftRight_eq_div_pow]
    omega
  rw [UInt16.toNat_xor]
  exact Nat.xor_lt_two_pow (n := 4) hc h

/-- One look-up: the register is fed the four bits of a nibble. -/
theorem lookup_eq_feeds (crc : UInt16) {nibble : UInt16} (h : nibble.toNat < 16) :
    (table.getD ((crc >>> 12) ^^^ nibble).toNat 0 ^^^ (crc <<< 4)).toBitVec =
      feeds 0x1021#16 crc.toBitVec (leading 4 (nibble.toBitVec.setWidth 4)) := by
  have hindex : BitVec.ofNat 4 ((crc >>> 12) ^^^ nibble).toNat =
      (crc.toBitVec >>> 12).setWidth 4 ^^^ nibble.toBitVec.setWidth 4 := by
    rw [← BitVec.setWidth_xor]
    exact BitVec.ofNat_toNat 4 _
  rw [UInt16.toBitVec_xor, table_eq_feeds _ (index_lt crc h), hindex, leading_xor,
    leading_top (by omega), feeds_block _ crc.toBitVec, length_leading]
  rfl

theorem highNibble_lt (byte : UInt8) : (byte >>> 4).toUInt16.toNat < 16 := by
  have := byte.toNat_lt
  simp only [UInt8.toNat_toUInt16, UInt8.toNat_shiftRight, UInt8.reduceToNat, Nat.reduceMod,
    Nat.shiftRight_eq_div_pow]
  omega

theorem lowNibble_lt (byte : UInt8) : (byte &&& 0x0F).toUInt16.toNat < 16 := by
  simp only [UInt8.toNat_toUInt16, UInt8.toNat_and]
  rw [show UInt8.toNat 0x0F = 2 ^ 4 - 1 from rfl, Nat.and_two_pow_sub_one_eq_mod]
  omega

theorem leading_byte (byte : UInt8) : leading 8 byte.toBitVec =
    leading 4 ((byte >>> 4).toUInt16.toBitVec.setWidth 4) ++
      leading 4 ((byte &&& 0x0F).toUInt16.toBitVec.setWidth 4) := by
  have hhigh : (byte >>> 4).toUInt16.toBitVec.setWidth 4 =
      (byte.toBitVec >>> (8 - 4)).setWidth 4 := by
    rw [UInt8.toBitVec_toUInt16, BitVec.setWidth_setWidth_of_le _ (by omega)]
    rfl
  have hlow : (byte &&& 0x0F).toUInt16.toBitVec.setWidth 4 = byte.toBitVec.setWidth 4 := by
    rw [UInt8.toBitVec_toUInt16, BitVec.setWidth_setWidth_of_le _ (by omega), UInt8.toBitVec_and,
      BitVec.setWidth_and]
    exact BitVec.and_allOnes
  rw [hhigh, hlow, leading_top (by omega), leading_bottom (by omega), ← leading_add]

/-- One round of the loop: the register is fed the eight bits of a byte. -/
theorem crcByte_eq_feeds (crc : UInt16) (byte : UInt8) :
    (crcByte crc byte).toBitVec = feeds 0x1021#16 crc.toBitVec (leading 8 byte.toBitVec) := by
  rw [leading_byte, feeds_append, ← lookup_eq_feeds crc (highNibble_lt byte),
    ← lookup_eq_feeds _ (lowNibble_lt byte)]
  rfl

theorem foldl_crcByte_eq_feeds (crc : UInt16) (buf : Bytes) :
    (buf.foldl crcByte crc).toBitVec =
      feeds 0x1021#16 crc.toBitVec (buf.flatMap fun byte => leading 8 byte.toBitVec) := by
  induction buf generalizing crc with
  | nil => rfl
  | cons byte buf ih =>
    rw [List.foldl_cons, ih, crcByte_eq_feeds, List.flatMap_cons, feeds_append]

/-! ### The fix-up -/

theorem escapeByte_toNat (b : UInt8) : (escapeByte b).toNat =
    if b.toNat = 0x28 ∨ b.toNat = 0x0D ∨ b.toNat = 0x0A then b.toNat + 1 else b.toNat := by
  simp only [escapeByte, isReserved_iff]
  split_ifs
  · rw [UInt8.toNat_add, show UInt8.toNat 1 = 1 from rfl]
    omega
  · rfl

theorem isReserved_escapeByte (b : UInt8) : isReserved (escapeByte b) = false := by
  rw [← Bool.not_eq_true, isReserved_iff, escapeByte_toNat]
  split_ifs <;> omega

/-- Each result byte is escaped by itself. -/
theorem crcWrite_escape (crc : UInt16) :
    crcWrite (escapeHigh (escapeLow crc)) = (crcWrite crc).map escapeByte := by
  have h := crc.toNat_lt
  have hhigh : highByte (escapeHigh (escapeLow crc)) = escapeByte (highByte crc) := by
    rw [← UInt8.toNat_inj]
    simp only [highByte_toNat, escapeByte_toNat, escapeHigh_toNat, escapeLow_toNat]
    split_ifs <;> omega
  have hlow : lowByte (escapeHigh (escapeLow crc)) = escapeByte (lowByte crc) := by
    rw [← UInt8.toNat_inj]
    simp only [lowByte_toNat, escapeByte_toNat, escapeHigh_toNat, escapeLow_toNat]
    split_ifs <;> omega
  simp only [crcWrite, List.map_cons, List.map_nil, hhigh, hlow]

theorem crcWrite_crcCalculate (buf : Bytes) : crcWrite (crcCalculate buf) =
    (crcWrite (buf.foldl crcByte 0)).map escapeByte := by
  unfold crcCalculate
  split_ifs with hnil
  · subst hnil
    decide
  · exact crcWrite_escape _

/-- `crc_calculate` is CRC-16/XMODEM with escaped bytes: every look-up is inside the table, the
loop computes the bit-by-bit checksum, the two bytes that are stored are those of the checksum,
escaped each by itself, neither is reserved, and reading them gives the result back. -/
theorem crcCalculate_eq_xmodem (buf : Bytes) :
    (∀ (crc : UInt16) (byte : UInt8),
      ((crc >>> 12) ^^^ (byte >>> 4).toUInt16).toNat < table.length ∧
        ((crc >>> 12) ^^^ (byte &&& 0x0F).toUInt16).toNat < table.length) ∧
    (buf.foldl crcByte 0).toBitVec = xmodem buf ∧
    crcWrite (crcCalculate buf) = (crcWrite (UInt16.ofBitVec (xmodem buf))).map escapeByte ∧
    (∀ b ∈ crcWrite (crcCalculate buf), isReserved b = false) ∧
    crcRead (highByte (crcCalculate buf)) (lowByte (crcCalculate buf)) = crcCalculate buf := by
  have hloop : (buf.foldl crcByte 0).toBitVec = xmodem buf := foldl_crcByte_eq_feeds 0 buf
  refine ⟨fun crc byte => ⟨?_, ?_⟩, hloop, ?_, ?_, crcRead_crcWrite _⟩
  · exact index_lt crc (highNibble_lt byte)
  · exact index_lt crc (lowNibble_lt byte)
  · rw [crcWrite_crcCalculate, ← hloop]
  · rw [crcWrite_crcCalculate]
    intro b hb
    obtain ⟨c, -, rfl⟩ := List.mem_map.mp hb
    exact isReserved_escapeByte c

/-- The frame of a sample program: `^P005PI` with the checksum `0x718B`. -/
example : crcWrite (crcCalculate (ascii "^P005PI")) = [0x71, 0x8B] := by decide +kernel

end InverterTools.Voltronic
