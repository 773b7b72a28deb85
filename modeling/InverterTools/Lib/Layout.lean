import InverterTools.Lib.Bytes

/-! # Fixed-width layouts

A layout is a list of fields, each of which takes a fixed number of characters.  A text matches a
layout when it can be cut into such fields; since the widths are fixed there is one way to cut, so
`Matches` is decidable and a text is checked field by field (`matches_append`). -/

namespace InverterTools

/-- A field: a decimal number of fixed width with a greatest value, or one of some characters. -/
inductive Field where
  | num (width hi : ℕ)
  | char (allowed : Bytes)
deriving DecidableEq, Repr

namespace Field

/-- The number of characters of a field. -/
def width : Field → ℕ
  | num w _ => w
  | char _ => 1

/-- The texts of a field. -/
def Matches : Field → Bytes → Prop
  | num w hi, s => s.length = w ∧ AllDigits s ∧ numVal s ≤ hi
  | char allowed, s => ∃ b ∈ allowed, s = [b]

theorem Matches.length_eq {f : Field} {s : Bytes} (h : f.Matches s) : s.length = f.width := by
  cases f with
  | num w hi => exact h.1
  | char allowed =>
      obtain ⟨b, -, rfl⟩ := h
      rfl

end Field

/-- A list of fields, one after the other. -/
abbrev Layout := List Field

namespace Layout

/-- The number of characters of a layout. -/
def width (l : Layout) : ℕ := (l.map Field.width).sum

/-- The texts of a layout. -/
def Matches : Layout → Bytes → Prop
  | [], s => s = []
  | f :: l, s => f.Matches (s.take f.width) ∧ Matches l (s.drop f.width)

theorem matches_append {f : Field} {l : Layout} {a s : Bytes} (ha : a.length = f.width) :
    Layout.Matches (f :: l) (a ++ s) ↔ f.Matches a ∧ Layout.Matches l s := by
  rw [Matches, ← ha, List.take_left, List.drop_left]

theorem matches_cons {f : Field} {l : Layout} {a s : Bytes} (ha : f.Matches a)
    (hs : Layout.Matches l s) : Layout.Matches (f :: l) (a ++ s) :=
  (matches_append ha.length_eq).mpr ⟨ha, hs⟩

theorem matches_singleton {f : Field} {s : Bytes} : Layout.Matches [f] s ↔ f.Matches s := by
  constructor
  · rintro ⟨h1, h2⟩
    have hle : s.length ≤ f.width := by
      have := congrArg List.length h2
      simp only [List.length_drop, List.length_nil] at this
      omega
    rwa [List.take_of_length_le hle] at h1
  · intro h
    have hnil : Layout.Matches [] [] := rfl
    simpa using matches_cons h hnil

theorem Matches.length_eq : ∀ {l : Layout} {s : Bytes}, Layout.Matches l s → s.length = l.width
  | [], s, h => by
      rw [Matches] at h
      rw [h]
      rfl
  | f :: l, s, ⟨h1, h2⟩ => by
      have hf := h1.length_eq
      have hl := Matches.length_eq h2
      rw [List.length_take] at hf
      rw [List.length_drop] at hl
      simp only [width, List.map_cons, List.sum_cons] at hl ⊢
      omega

end Layout

/-! ### Numbers in fields -/

theorem not_allDigits_cons_minus (s : Bytes) : ¬ AllDigits (0x2D :: s) := fun h =>
  absurd (h 0x2D List.mem_cons_self) (by decide)

/-- A natural number in a field of zeros fills a number field exactly when it fits. -/
theorem fixed_matches_iff {w n hi : ℕ} (hw : 0 < w) :
    (Field.num w hi).Matches (fixed w n) ↔ n < 10 ^ w ∧ n ≤ hi := by
  constructor
  · rintro ⟨hlen, -, hval⟩
    rw [fixed, numVal_zeroPad, numVal_decimal] at hval
    rw [fixed, zeroPad_length] at hlen
    exact ⟨(decimal_length_le_iff hw).mp (by omega), hval⟩
  · rintro ⟨hlt, hle⟩
    obtain ⟨h1, h2, h3⟩ := fixed_spec hw hlt
    exact ⟨h1, h2, by rwa [h3]⟩

theorem zeroPad_intDecimal_matches_iff {w hi : ℕ} {z : ℤ} (hw : 0 < w) :
    (Field.num w hi).Matches (zeroPad w (intDecimal z)) ↔ 0 ≤ z ∧ z < 10 ^ w ∧ z ≤ hi := by
  rcases lt_or_ge z 0 with hneg | hpos
  · refine iff_of_false ?_ (fun h => absurd h.1 (not_le.mpr hneg))
    rintro ⟨-, hdigits, -⟩
    rw [intDecimal, if_pos hneg, zeroPad, allDigits_append] at hdigits
    exact not_allDigits_cons_minus _ hdigits.2
  · obtain ⟨n, rfl⟩ := Int.eq_ofNat_of_zero_le hpos
    have hdec : intDecimal (n : ℤ) = decimal n := by
      rw [intDecimal, if_neg (by omega)]
      simp
    rw [hdec, ← fixed, fixed_matches_iff hw]
    constructor
    · rintro ⟨h1, h2⟩
      exact ⟨hpos, by exact_mod_cast h1, by exact_mod_cast h2⟩
    · rintro ⟨-, h1, h2⟩
      exact ⟨by exact_mod_cast h1, by exact_mod_cast h2⟩

theorem digit_matches {d hi : ℕ} (hd : d < 10) (hhi : d ≤ hi) :
    (Field.num 1 hi).Matches [digit d] := by
  have : (Field.num 1 hi).Matches (fixed 1 d) :=
    (fixed_matches_iff (by norm_num)).mpr ⟨by omega, hhi⟩
  rwa [fixed, decimal_of_lt hd] at this

theorem eq_digit_of_matches {hi : ℕ} {s : Bytes} (h : (Field.num 1 hi).Matches s) :
    ∃ d, d ≤ hi ∧ d < 10 ∧ s = [digit d] := by
  obtain ⟨hlen, hdigits, hval⟩ := h
  obtain ⟨b, rfl⟩ := List.length_eq_one_iff.mp hlen
  have hb := isDigit_iff.mp (hdigits b List.mem_cons_self)
  have hv : numVal [b] = digitVal b := by simp [numVal]
  refine ⟨digitVal b, by rwa [hv] at hval, digitVal_lt (isDigit_iff.mpr hb), ?_⟩
  have hround : UInt8.ofNat (0x30 + (b.toNat - 0x30)) = b := by
    rw [← UInt8.toNat_inj, UInt8.toNat_ofNat']
    omega
  rw [digit, digitVal, hround]

theorem comma_notMem_of_allDigits {s : Bytes} (h : AllDigits s) : (0x2C : UInt8) ∉ s :=
  fun hmem => absurd (h _ hmem) (by decide)

theorem comma_notMem_intDecimal (w : ℕ) (z : ℤ) : (0x2C : UInt8) ∉ zeroPad w (intDecimal z) := by
  rw [zeroPad, List.mem_append, not_or]
  refine ⟨fun h => absurd (List.eq_of_mem_replicate h) (by decide), ?_⟩
  unfold intDecimal
  split_ifs
  · rw [List.mem_cons, not_or]
    exact ⟨by decide, comma_notMem_of_allDigits (allDigits_decimal _)⟩
  · exact comma_notMem_of_allDigits (allDigits_decimal _)

/-- The number in a field of zeros, with the minus sign that can stand behind them. -/
def fieldInt (s : Bytes) : ℤ :=
  match s.dropWhile (· != 0x2D) with
  | [] => numVal s
  | _ :: t => -(numVal t : ℤ)

theorem fieldInt_of_allDigits {s : Bytes} (h : AllDigits s) : fieldInt s = numVal s := by
  have hdrop : s.dropWhile (· != 0x2D) = [] := by
    rw [List.dropWhile_eq_nil_iff]
    intro b hb
    rw [bne_iff_ne]
    rintro rfl
    exact absurd (h _ hb) (by decide)
  rw [fieldInt, hdrop]

/-- The numbers in the fields of the given widths at the head of a text. -/
def cutInts : List ℕ → Bytes → List ℤ
  | [], _ => []
  | w :: ws, s => fieldInt (s.take w) :: cutInts ws (s.drop w)

theorem cutInts_cons {w : ℕ} {ws : List ℕ} {a s : Bytes} (ha : a.length = w) :
    cutInts (w :: ws) (a ++ s) = fieldInt a :: cutInts ws s := by
  rw [cutInts, List.take_left' ha, List.drop_left' ha]

theorem cutInts_singleton {w : ℕ} {a : Bytes} (ha : a.length = w) :
    cutInts [w] a = [fieldInt a] := by
  rw [cutInts, List.take_of_length_le ha.le, cutInts]

/-- A number in a field reads back. -/
theorem fieldInt_zeroPad (w : ℕ) (z : ℤ) : fieldInt (zeroPad w (intDecimal z)) = z := by
  unfold intDecimal
  split_ifs with hneg
  · have hzeros : ∀ b ∈ List.replicate (w - (0x2D :: decimal z.natAbs).length) (0x30 : UInt8),
        (b != 0x2D) = true := by
      intro b hb
      rw [List.eq_of_mem_replicate hb]
      rfl
    have hdrop : (zeroPad w (0x2D :: decimal z.natAbs)).dropWhile (· != 0x2D) =
        0x2D :: decimal z.natAbs := by
      rw [zeroPad, List.dropWhile_append_of_pos hzeros]
      rfl
    rw [fieldInt, hdrop]
    simp only [numVal_decimal]
    omega
  · rw [fieldInt_of_allDigits (allDigits_zeroPad (allDigits_decimal _)), numVal_zeroPad,
      numVal_decimal]
    omega

end InverterTools
