import InverterTools.Response

/-! # What `GetResponse::validate` accepts

The three digits behind `^D` count what follows them on the wire: the data, two bytes of checksum
and CR.  `rawSize` counts the header and the data.  The check takes five off the announced length
where it should take it off `rawSize`: it accepts an answer that lacks up to seven bytes of data
and refuses the announced lengths 3 and 4, for which the difference wraps.
`validate_declared_iff` says when it nevertheless decides as the lengths do. -/

namespace InverterTools.P18

section

variable {digits data rest : Bytes}

/-- The check of an answer `^D`, three digits and data: only the two lengths count. -/
theorem getValidate_run (hlen : digits.length = 3) (hdigits : AllDigits digits) :
    (getValidate (data.length + 5)).run (ascii "^D" ++ digits ++ data ++ rest) =
      .ret (decide ((numVal digits + 2 ^ 64 - 5) % 2 ^ 64 ≤ data.length + 5)) := by
  set mem := ascii "^D" ++ digits ++ data ++ rest with hmem
  have hcons : mem = 0x5E :: 0x44 :: (digits ++ (data ++ rest)) := by
    simp only [hmem, List.append_assoc]
    rfl
  have hrange : (Probe.range 2 3 : Probe Exn Bytes).run mem = .ret digits := by
    have hroom : 2 + 3 ≤ mem.length := by
      simp only [hcons, List.length_cons, List.length_append]
      omega
    rw [Probe.run_range hroom, hcons]
    exact congrArg Outcome.ret (List.take_left' hlen)
  have hzero : (0 : UInt8) ∉ digits := fun hmem => absurd (hdigits _ hmem) (by decide)
  have hval : numVal digits < 2 ^ 64 := by
    have := numVal_lt_pow hdigits
    rw [hlen] at this
    omega
  have hnum : stoul digits = .ok (numVal digits) :=
    stoul_allDigits hdigits (List.ne_nil_of_length_pos (by omega)) hval
  unfold getValidate
  rw [if_neg (by omega), Probe.run_bind, Probe.run_byte_of_getElem? (by rw [hcons]; rfl),
    Outcome.ret_bind, if_neg (by simp), Probe.run_bind,
    Probe.run_byte_of_getElem? (by rw [hcons]; rfl), Outcome.ret_bind, if_neg (by simp),
    Probe.run_bind, hrange, Outcome.ret_bind, cstr_of_notMem hzero, hnum, Probe.lift_ok,
    Probe.ret_bind]
  rfl

theorem getValidate_iff (hlen : digits.length = 3) (hdigits : AllDigits digits)
    (hsize : data.length < 2 ^ 63) :
    (getValidate (data.length + 5)).run (ascii "^D" ++ digits ++ data ++ rest) = .ret true ↔
      5 ≤ numVal digits ∧ numVal digits ≤ data.length + 10 := by
  have hval := numVal_lt_pow hdigits
  rw [hlen] at hval
  rw [getValidate_run hlen hdigits, Outcome.ret.injEq, decide_eq_true_iff]
  constructor
  · intro h
    have h5 : 5 ≤ numVal digits := by
      by_contra hlt
      omega
    omega
  · rintro ⟨h5, hle⟩
    omega

end

/-- An answer with `n` bytes of data is accepted exactly when the announced length `L` counts them
all, for every `L` and `n` but two kinds: `L` is 3 or 4 and wraps, or up to seven bytes are
missing.  An object is smaller than half the address space. -/
theorem validate_declared_iff {c : CommandType} (hc : c.isSet = false) {digits data rest : Bytes}
    (hlen : digits.length = 3) (hdigits : AllDigits digits) (hsize : data.length < 2 ^ 63) :
    ((validate c (data.length + 5)).run (ascii "^D" ++ digits ++ data ++ rest) = .ret true ↔
        3 ≤ numVal digits ∧ numVal digits - 3 ≤ data.length + 5 - 5) ↔
      numVal digits < 3 ∨ (numVal digits = 4 ∧ data = []) ∨
        (5 ≤ numVal digits ∧
          (numVal digits ≤ data.length + 3 ∨ data.length + 10 < numVal digits)) := by
  rw [validate, hc, if_neg (by simp), getValidate_iff hlen hdigits hsize,
    ← List.length_eq_zero_iff]
  omega

/-- The identification of the protocol, `^D00518`. -/
theorem validate_declared_protocol_id :
    ((validate .getProtocolID 7).run (ascii "^D" ++ ascii "005" ++ ascii "18" ++ []) = .ret true ↔
        3 ≤ 5 ∧ 5 - 3 ≤ 2 + 5 - 5) ↔
      5 < 3 ∨ (5 = 4 ∧ ascii "18" = []) ∨ (5 ≤ 5 ∧ (5 ≤ 2 + 3 ∨ 2 + 10 < 5)) :=
  @validate_declared_iff .getProtocolID rfl (ascii "005") (ascii "18") [] rfl (by decide +kernel)
    (by decide +kernel)

/-- The same answer cut off before its data is accepted, although two bytes are missing, and the
answer `^D003`, which announces no data and has none, is refused. -/
theorem validate_not_declared :
    ¬ ((validate .getProtocolID 5).run (ascii "^D005") = .ret true ↔ 3 ≤ 5 ∧ 5 - 3 ≤ 5 - 5) ∧
      ¬ ((validate .getProtocolID 5).run (ascii "^D003") = .ret true ↔
        3 ≤ 3 ∧ 3 - 3 ≤ 5 - 5) := by
  have htrue : (validate .getProtocolID 5).run (ascii "^D005") = .ret true := by decide
  have hfalse : (validate .getProtocolID 5).run (ascii "^D003") = .ret false := by decide
  rw [htrue, hfalse]
  decide

end InverterTools.P18
