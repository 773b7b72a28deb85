import Mathlib.Data.Bool.Basic
import Mathlib.Tactic.Common

/-! # Checksums by a feedback shift register

A register of `w` bits takes a message bit by bit: the bit that leaves at the top, exclusive-or
the message bit, decides whether the polynomial is added to the shifted register.

* Feeding is linear in the register and the message together (`feeds_xor`).
* A register that is fed its own leading bits only shifts (`feeds_leading`).
* Together: `k` bits at once are one shift by `k` and one word that depends on `k` bits only
  (`feeds_block`), which is what a table of `2 ^ k` words holds.
* Messages that differ in one bit leave registers that differ by a word that depends on the place
  of the bit only (`feeds_flipped`). -/

namespace InverterTools.ShiftCrc

variable {w : Nat}

/-- One message bit. -/
def feed (poly s : BitVec w) (b : Bool) : BitVec w :=
  if (s.msb ^^ b) then (s <<< 1) ^^^ poly else s <<< 1

/-- The bits of a message, first to last. -/
def feeds (poly s : BitVec w) (bits : List Bool) : BitVec w := bits.foldl (feed poly) s

/-- The `k` leading bits of a word, the highest first. -/
def leading : Nat → BitVec w → List Bool
  | 0, _ => []
  | k + 1, x => x.msb :: leading k (x <<< 1)

/-! ### Leading bits -/

@[simp] theorem leading_zero (x : BitVec w) : leading 0 x = [] := rfl

@[simp] theorem leading_succ (k : Nat) (x : BitVec w) :
    leading (k + 1) x = x.msb :: leading k (x <<< 1) := rfl

@[simp] theorem length_leading (k : Nat) (x : BitVec w) : (leading k x).length = k := by
  induction k generalizing x with
  | zero => rfl
  | succ k ih => rw [leading_succ, List.length_cons, ih]

theorem leading_add (j k : Nat) (x : BitVec w) :
    leading (j + k) x = leading j x ++ leading k (x <<< j) := by
  induction j generalizing x with
  | zero => simp
  | succ j ih =>
    rw [show j + 1 + k = (j + k) + 1 by omega, leading_succ, leading_succ, ih,
      BitVec.shiftLeft_add, List.cons_append, ← BitVec.shiftLeft_add, ← BitVec.shiftLeft_add,
      Nat.add_comm 1 j]

theorem leading_xor (k : Nat) (x y : BitVec w) :
    leading k (x ^^^ y) = List.zipWith Bool.xor (leading k x) (leading k y) := by
  induction k generalizing x y with
  | zero => rfl
  | succ k ih =>
    rw [leading_succ, leading_succ, leading_succ, List.zipWith_cons_cons, BitVec.msb_xor,
      BitVec.shiftLeft_xor_distrib, ih]

/-- Words of any two widths that agree on their `k` top bits have the same leading bits. -/
theorem leading_congr {v : Nat} {k : Nat} {x : BitVec w} {y : BitVec v}
    (h : ∀ i < k, x.getMsbD i = y.getMsbD i) : leading k x = leading k y := by
  induction k generalizing x y with
  | zero => rfl
  | succ k ih =>
    have hx : x.msb = y.msb := h 0 (by omega)
    rw [leading_succ, leading_succ, hx]
    refine congrArg _ (ih fun i hi => ?_)
    rw [BitVec.getMsbD_shiftLeft, BitVec.getMsbD_shiftLeft]
    exact h (i + 1) (by omega)

theorem leading_top {k : Nat} (hk : k ≤ w) (x : BitVec w) :
    leading k ((x >>> (w - k)).setWidth k) = leading k x := by
  apply leading_congr
  intro i hi
  rw [BitVec.getMsbD_setWidth, BitVec.getMsbD_ushiftRight]
  have h1 : k - w ≤ i := by omega
  have h2 : i + w - k < w := by omega
  have h3 : ¬ i + w - k < w - k := by omega
  have h4 : i + w - k - (w - k) = i := by omega
  simp only [h1, h2, h3, h4, decide_true, decide_false, Bool.not_false, Bool.true_and]

theorem leading_bottom {k : Nat} (hk : k ≤ w) (x : BitVec w) :
    leading k (x.setWidth k) = leading k (x <<< (w - k)) := by
  apply leading_congr
  intro i hi
  rw [BitVec.getMsbD_setWidth, BitVec.getMsbD_shiftLeft]
  have h1 : k - w ≤ i := by omega
  have h2 : i + w - k = i + (w - k) := by omega
  simp only [h1, h2, decide_true, Bool.true_and]

/-! ### Linearity -/

theorem feed_xor (poly s t : BitVec w) (a b : Bool) :
    feed poly (s ^^^ t) (a ^^ b) = feed poly s a ^^^ feed poly t b := by
  have hbit : ((s ^^^ t).msb ^^ (a ^^ b)) = ((s.msb ^^ a) ^^ (t.msb ^^ b)) := by
    simp only [BitVec.msb_xor, Bool.xor_assoc, Bool.xor_left_comm a]
  unfold feed
  rw [hbit, BitVec.shiftLeft_xor_distrib]
  cases hs : (s.msb ^^ a) <;> cases ht : (t.msb ^^ b)
  · rfl
  · exact BitVec.xor_assoc ..
  · simp only [Bool.xor_false, if_true, Bool.false_eq_true, if_false]
    ac_rfl
  -- both add the polynomial, and it cancels
  · simp only [Bool.xor_true, Bool.not_true, Bool.false_eq_true, if_false, if_true]
    rw [BitVec.xor_assoc, BitVec.xor_comm poly, BitVec.xor_assoc, BitVec.xor_self,
      BitVec.xor_zero]

theorem feeds_xor (poly : BitVec w) (s t : BitVec w) {as bs : List Bool}
    (h : as.length = bs.length) :
    feeds poly (s ^^^ t) (List.zipWith Bool.xor as bs) = feeds poly s as ^^^ feeds poly t bs := by
  induction as generalizing s t bs with
  | nil => 
    cases bs with
    | nil => rfl
    | cons b bs => simp at h
  | cons a as ih =>
    cases bs with
    | nil => simp at h
    | cons b bs =>
      have hl : as.length = bs.length := by simpa using h
      exact (congrArg (feeds poly · _) (feed_xor poly s t a b)).trans (ih _ _ hl)

theorem feeds_append (poly s : BitVec w) (as bs : List Bool) :
    feeds poly s (as ++ bs) = feeds poly (feeds poly s as) bs := List.foldl_append

/-- A register that is fed its own leading bits only shifts. -/
theorem feeds_leading (poly s : BitVec w) (k : Nat) : feeds poly s (leading k s) = s <<< k := by
  induction k generalizing s with
  | zero => simp [feeds]
  | succ k ih =>
    have hstep : feed poly s s.msb = s <<< 1 := by simp [feed]
    calc feeds poly s (leading (k + 1) s)
        = feeds poly (feed poly s s.msb) (leading k (s <<< 1)) := rfl
      _ = s <<< 1 <<< k := by rw [hstep, ih]
      _ = s <<< (k + 1) := by rw [← BitVec.shiftLeft_add, Nat.add_comm 1 k]

theorem zipWith_xor_cancel {as bs : List Bool} (h : as.length = bs.length) :
    List.zipWith Bool.xor as (List.zipWith Bool.xor as bs) = bs := by
  induction as generalizing bs with
  | nil => exact (List.eq_nil_of_length_eq_zero h.symm).symm
  | cons a as ih =>
    cases bs with
    | nil => simp at h
    | cons b bs =>
      rw [List.zipWith_cons_cons, List.zipWith_cons_cons, ih (Nat.succ.inj h),
        ← Bool.xor_assoc, Bool.xor_self, Bool.false_xor]

/-- Several bits at once: the register shifts, and the word that is added depends on its leading
bits and the message bits only. -/
theorem feeds_block (poly s : BitVec w) (bits : List Bool) :
    feeds poly s bits =
      feeds poly 0#w (List.zipWith Bool.xor (leading bits.length s) bits) ^^^
        s <<< bits.length := by
  set own := leading bits.length s
  have hlen : own.length = (List.zipWith Bool.xor own bits).length := by simp [own]
  calc feeds poly s bits
      = feeds poly (s ^^^ 0#w) (List.zipWith Bool.xor own (List.zipWith Bool.xor own bits)) := by
        rw [BitVec.xor_zero, zipWith_xor_cancel (length_leading ..)]
    _ = s <<< bits.length ^^^ feeds poly 0#w (List.zipWith Bool.xor own bits) := by
        rw [feeds_xor poly s 0#w hlen, feeds_leading]
    _ = _ := BitVec.xor_comm ..

/-! ### A flipped bit -/

/-- What a flipped bit leaves in the register, `k` bits behind it. -/
def syndrome (poly : BitVec w) : Nat → BitVec w
  | 0 => feed poly 0#w true
  | k + 1 => feed poly (syndrome poly k) false

theorem feeds_zeros (poly : BitVec w) (k : Nat) :
    feeds poly 0#w (List.replicate k false) = 0#w := by
  induction k with
  | zero => rfl
  | succ k ih =>
    have hstep : feed poly 0#w false = 0#w := by simp [feed]
    calc feeds poly 0#w (List.replicate (k + 1) false)
        = feeds poly (feed poly 0#w false) (List.replicate k false) := rfl
      _ = 0#w := by rw [hstep, ih]

theorem feeds_one_zeros (poly : BitVec w) (k : Nat) :
    feeds poly 0#w (true :: List.replicate k false) = syndrome poly k := by
  induction k with
  | zero => rfl
  | succ k ih =>
    rw [List.replicate_succ', ← List.cons_append, feeds_append, ih]
    rfl

theorem exists_of_count_true {bits : List Bool} (h : bits.count true = 1) :
    ∃ j k, bits = List.replicate j false ++ true :: List.replicate k false := by
  obtain ⟨before, after, rfl, hbefore⟩ :=
    List.eq_append_cons_of_mem (List.count_pos_iff.mp (by omega) : true ∈ bits)
  have hafter : true ∉ after := by
    rw [List.count_append, List.count_cons_self] at h
    exact List.count_eq_zero.mp (by omega)
  have hfalse {l : List Bool} (hl : true ∉ l) : l = List.replicate l.length false := by
    refine List.eq_replicate_iff.mpr ⟨rfl, fun b hb => ?_⟩
    cases b with
    | false => rfl
    | true => exact absurd hb hl
  refine ⟨before.length, after.length, ?_⟩
  rw [← hfalse hbefore, ← hfalse hafter]

/-- **Two messages that differ in one bit** leave registers that differ by the syndrome of its
place, whatever the messages are. -/
theorem feeds_flipped (poly s : BitVec w) {as bs : List Bool} (hlen : as.length = bs.length)
    (hone : (List.zipWith Bool.xor as bs).count true = 1) :
    ∃ k < as.length, feeds poly s as ^^^ feeds poly s bs = syndrome poly k := by
  obtain ⟨j, k, hbits⟩ := exists_of_count_true hone
  have hsize := congrArg List.length hbits
  simp only [List.length_zipWith, ← hlen, Nat.min_self, List.length_append, List.length_cons,
    List.length_replicate] at hsize
  refine ⟨k, by omega, ?_⟩
  rw [← feeds_xor poly s s hlen, BitVec.xor_self, hbits, feeds_append, feeds_zeros,
    feeds_one_zeros]

/-- `p` holds of the `n` registers from `x` on that zero bits go through. -/
def sweep (poly : BitVec w) (p : BitVec w → Bool) : Nat → BitVec w → Bool
  | 0, _ => true
  | n + 1, x => p x && sweep poly p n (feed poly x false)

theorem sweep_spec {poly : BitVec w} {p : BitVec w → Bool} {n j : Nat}
    (h : sweep poly p n (syndrome poly j) = true) : ∀ k < n, p (syndrome poly (j + k)) = true := by
  induction n generalizing j with
  | zero => simp
  | succ n ih =>
    obtain ⟨hfirst, hrest⟩ := Bool.and_eq_true_iff.mp h
    intro k hk
    cases k with
    | zero => exact hfirst
    | succ k =>
      rw [Nat.add_comm k 1, ← Nat.add_assoc]
      exact ih (j := j + 1) hrest k (by omega)

end InverterTools.ShiftCrc
