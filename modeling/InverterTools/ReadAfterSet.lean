import InverterTools.Encoding
import InverterTools.RoundTrip

/-! # What is set can be read back

The argument text of `set-solar-configuration` is the data of an answer to `get-serial-number`, and
the one of `set-date-time` behind the century is the data of an answer to `get-date-time`.  So the
decoders give back what was set (`set_read_back`). -/

namespace InverterTools.P18

variable {args : List Bytes} {fields : Bytes} {m : Machine}

theorem twoDigits_numVal {lo hi z : ℤ} {err : String} {s : Bytes}
    (h : twoDigits lo hi err (some s) = .ok z) : stoi s = .ok (numVal s) ∧ numVal s < 10 ^ 2 := by
  simp only [twoDigits, bind_eq_ok, check_eq_ok, Bool.and_eq_true, decide_eq_true_eq] at h
  obtain ⟨-, ⟨hnum, hlen⟩, -⟩ := h
  exact stoi_of_isNumeric hnum hlen (by norm_num)

theorem validateClockArg_numVal {s : Bytes} {hi : ℕ} {err : String} {u : Unit}
    (h : validateClockArg s hi err = .ok u) : stoi s = .ok (numVal s) ∧ numVal s < 10 ^ 2 := by
  simp only [validateClockArg, bind_eq_ok, check_eq_ok, Bool.and_eq_true, decide_eq_true_eq] at h
  obtain ⟨-, ⟨hnum, hlen⟩, -⟩ := h
  exact stoi_of_isNumeric hnum hlen (by norm_num)

theorem validateDateArgs_year {ys : Bytes} {ms ds : Option Bytes} {u : Unit}
    (h : validateDateArgs ys ms ds = .ok u) :
    stoi ys = .ok (numVal ys) ∧ ∃ k, k < 10 ^ 2 ∧ numVal ys = 2000 + k := by
  obtain ⟨⟨hnum, hlen⟩, ⟨z, hz, hrange⟩, -⟩ := validateDateArgs_eq_ok h
  obtain ⟨hi, -⟩ := stoi_of_isNumeric hnum hlen.le (by norm_num)
  rw [hi] at hz
  obtain rfl := Except.ok.inj hz
  exact ⟨hi, numVal ys - 2000, by omega, by omega⟩

theorem packDatePart_numeral {i n : ℕ} {arg : Bytes} (hi : i ≠ 0) (h : stoi arg = .ok n) :
    packDatePart i arg = .ok (fixed 2 n) := by
  rw [packDatePart, h]
  show Except.ok (fixedInt 2 (if i = 0 then (n : ℤ) - 2000 else n)) = _
  rw [if_neg hi, fixedInt, intDecimal_natCast]
  rfl

theorem packDatePart_century {k : ℕ} {arg : Bytes} (h : stoi arg = .ok ((2000 + k : ℕ) : ℤ)) :
    packDatePart 0 arg = .ok (fixed 2 k) := by
  rw [packDatePart, h]
  show Except.ok (fixedInt 2 (((2000 + k : ℕ) : ℤ) - 2000)) = _
  rw [Nat.cast_add, Nat.cast_ofNat, add_sub_cancel_left, fixedInt, intDecimal_natCast]
  rfl

/-- The year in full is the century and the two digits of the year. -/
theorem fixed_century {k : ℕ} (h : k < 10 ^ 2) : fixed 4 (2000 + k) = ascii "20" ++ fixed 2 k := by
  obtain ⟨hlen, hdigits, hval⟩ := fixed_spec (by norm_num) h
  have hall : AllDigits (ascii "20" ++ fixed 2 k) :=
    allDigits_append.mpr ⟨by decide +kernel, hdigits⟩
  have hnum : numVal (ascii "20" ++ fixed 2 k) = 2000 + k := by
    rw [numVal_append, hlen, hval]
    rfl
  have hlength : (ascii "20" ++ fixed 2 k).length = 4 := by
    rw [List.length_append, hlen]
    rfl
  rw [← hnum, ← hlength]
  exact fixed_numVal hall (List.ne_nil_of_length_pos (by omega))

/-- The packed serial number is the data of an answer with this serial number. -/
theorem setSolarConfig_encodes {a : Bytes} (hv : validateArgs m .setSolarConfig [a] = .ok args) :
    ∃ packed, packArguments m .setSolarConfig args = .ok packed ∧
      Encodes .getSerialNumber packed (.members [(.id, .text a)]) := by
  obtain ⟨-, hlen, rfl⟩ := setSolarConfig_accepted hv
  exact ⟨_, rfl, a, List.replicate (20 - a.length) 0x30, by omega, List.append_assoc _ _ _, rfl⟩

/-- The six numbers of a date and time, as `CurrentTime` stores them. -/
def currentTime (y mo d h mi s : Bytes) : Decoded :=
  .members [(.year, .unsigned (numVal y)), (.month, .ushort (numVal mo)),
    (.day, .ushort (numVal d)), (.hour, .ushort (numVal h)), (.minute, .ushort (numVal mi)),
    (.second, .ushort (numVal s))]

/-- The packed date and time, behind the century, is the data of an answer with this time. -/
theorem setDateTime_encodes {y mo d h mi s : Bytes}
    (hv : validateArgs m .setDateTime [y, mo, d, h, mi, s] = .ok args) :
    ∃ packed, packArguments m .setDateTime args = .ok packed ∧
      (∀ a ∈ [y, mo, d, h, mi, s], stoi a = .ok (numVal a)) ∧
      Encodes .getCurrentTime (ascii "20" ++ packed) (currentTime y mo d h mi s) := by
  obtain ⟨hdate, hh, hmi, hs, rfl⟩ := setDateTime_accepted hv
  obtain ⟨hyear, k, hk, hcentury⟩ := validateDateArgs_year hdate
  have hfull := hyear
  rw [hcentury] at hyear
  obtain ⟨-, -, ⟨zm, hm⟩, zd, hd⟩ := validateDateArgs_eq_ok hdate
  obtain ⟨hmonth, hm99⟩ := twoDigits_numVal hm
  obtain ⟨hday, hd99⟩ := twoDigits_numVal hd
  obtain ⟨hhour, hh99⟩ := validateClockArg_numVal hh
  obtain ⟨hminute, hmi99⟩ := validateClockArg_numVal hmi
  obtain ⟨hsecond, hs99⟩ := validateClockArg_numVal hs
  have hp : packArguments m .setDateTime [y, mo, d, h, mi, s] =
      .ok (fixed 2 k ++ fixed 2 (numVal mo) ++ fixed 2 (numVal d) ++ fixed 2 (numVal h) ++
        fixed 2 (numVal mi) ++ fixed 2 (numVal s)) := by
    simp only [packArguments, List.getD_cons_zero, List.getD_cons_succ,
      packDatePart_century hyear, packDatePart_numeral (by decide : (1 : ℕ) ≠ 0) hmonth,
      packDatePart_numeral (by decide : (2 : ℕ) ≠ 0) hday,
      packDatePart_numeral (by decide : (3 : ℕ) ≠ 0) hhour,
      packDatePart_numeral (by decide : (4 : ℕ) ≠ 0) hminute,
      packDatePart_numeral (by decide : (5 : ℕ) ≠ 0) hsecond]
    rfl
  refine ⟨_, hp, ?_, 2000 + k, numVal mo, numVal d, numVal h, numVal mi, numVal s, by omega, hm99,
    hd99, hh99, hmi99, hs99, ?_, ?_⟩
  · simp only [List.forall_mem_cons]
    exact ⟨hfull, hmonth, hday, hhour, hminute, hsecond, fun _ h => absurd h List.not_mem_nil⟩
  · rw [fixed_century hk]
    simp only [List.append_assoc]
  · rw [currentTime, hcentury]

theorem given_of_validateInput {command : Bytes} {c c' : CommandType} {given argv : List Bytes}
    (hcommand : clientCommand command = some c) (hcount : argCount c = some given.length)
    (h : validateInput m (getArgs (given ++ argv)) command = .ok (c', args)) :
    c' = c ∧ validateArgs m c given = .ok args := by
  obtain ⟨hc, given', hgiven, hargs⟩ := validateInput_eq_ok.mp h
  obtain rfl := Option.some.inj (hcommand.symm.trans hc)
  rw [givenArgs, hcount] at hgiven
  rw [(getArgs_length hgiven).2, List.take_left] at hargs
  exact ⟨rfl, hargs⟩

/-- **What is set can be read back.**  The packed text of every serial number that
`set-solar-configuration` accepts, as the data of an answer, is decoded to that serial number; and
the packed text of every date and time that `set-date-time` accepts, behind the century, is decoded
to these six numbers. -/
theorem set_read_back (m : Machine) (argv : List Bytes) :
    (∀ a c args, validateInput m (getArgs (a :: argv)) (ascii "set-solar-configuration") =
        .ok (c, args) → ∃ packed, packArguments m c args = .ok packed ∧
      ∀ mem : Bytes, mem.length = 256 → dataPayload packed <+: mem →
        (unpack .getSerialNumber (dataPayload packed).length).run mem =
          .ret (.members [(.id, .text a)])) ∧
    (∀ y mo d h mi s c args,
        validateInput m (getArgs (y :: mo :: d :: h :: mi :: s :: argv)) (ascii "set-date-time") =
          .ok (c, args) → (∀ a ∈ [y, mo, d, h, mi, s], stoi a = .ok (numVal a)) ∧
      ∃ packed, packArguments m c args = .ok packed ∧
        ∀ mem : Bytes, mem.length = 256 → dataPayload (ascii "20" ++ packed) <+: mem →
          (unpack .getCurrentTime (dataPayload (ascii "20" ++ packed)).length).run mem =
            .ret (currentTime y mo d h mi s)) := by
  constructor
  · intro a c args h
    obtain ⟨rfl, hv⟩ := @given_of_validateInput _ m _ .setSolarConfig _ [a] argv (by decide) rfl h
    obtain ⟨packed, hp, henc⟩ := setSolarConfig_encodes hv
    exact ⟨packed, hp, fun mem hm hmem => (decode_encoded henc hm hmem).2⟩
  · intro y mo d h mi s c args hinput
    obtain ⟨rfl, hv⟩ := @given_of_validateInput _ m _ .setDateTime _ [y, mo, d, h, mi, s] argv
      (by decide) rfl hinput
    obtain ⟨packed, hp, hread, henc⟩ := setDateTime_encodes hv
    exact ⟨hread, packed, hp, fun mem hm hmem => (decode_encoded henc hm hmem).2⟩

/-- A serial number of 14 digits, and a second before midnight on a leap day. -/
theorem set_read_back_leap_day :
    (∃ packed, packArguments x86 .setSolarConfig [ascii "96132102100101"] = .ok packed ∧
      (unpack .getSerialNumber (dataPayload packed).length).run
        (bufferWith (dataPayload packed) 0x0D) =
          .ret (.members [(.id, .text (ascii "96132102100101"))])) ∧
    ∃ packed, packArguments x86 .setDateTime [ascii "2024", ascii "2", ascii "29", ascii "23",
        ascii "59", ascii "59"] = .ok packed ∧
      (unpack .getCurrentTime (dataPayload (ascii "20" ++ packed)).length).run
        (bufferWith (dataPayload (ascii "20" ++ packed)) 0x0D) =
          .ret (currentTime (ascii "2024") (ascii "2") (ascii "29") (ascii "23") (ascii "59")
            (ascii "59")) := by
  have hbuffer {payload : Bytes} (h : payload.length ≤ 256) :
      (bufferWith payload 0x0D).length = 256 ∧ payload <+: bufferWith payload 0x0D := by
    refine ⟨?_, List.prefix_append _ _⟩
    rw [bufferWith, List.length_append, List.length_replicate]
    omega
  obtain ⟨hserial, htime⟩ := set_read_back x86 []
  constructor
  · obtain ⟨packed, hp, hread⟩ := hserial (ascii "96132102100101") .setSolarConfig
      [ascii "96132102100101"] (by decide)
    obtain rfl : packed = ascii "1496132102100101000000" := Except.ok.inj (hp.symm.trans rfl)
    obtain ⟨hm, hmem⟩ :=
      hbuffer (show (dataPayload (ascii "1496132102100101000000")).length ≤ 256 by decide)
    exact ⟨_, hp, hread _ hm hmem⟩
  · obtain ⟨-, packed, hp, hread⟩ := htime (ascii "2024") (ascii "2") (ascii "29") (ascii "23")
      (ascii "59") (ascii "59") .setDateTime [ascii "2024", ascii "2", ascii "29", ascii "23",
        ascii "59", ascii "59"] (by decide)
    obtain rfl : packed = ascii "240229235959" := Except.ok.inj (hp.symm.trans rfl)
    obtain ⟨hm, hmem⟩ :=
      hbuffer (show (dataPayload (ascii "20240229235959")).length ≤ 256 by decide)
    exact ⟨_, hp, hread _ hm hmem⟩

end InverterTools.P18
