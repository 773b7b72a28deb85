import InverterTools.Lib.Outcome
import InverterTools.Lib.FloatText

/-! # Exceptions, number parsing and `util.cc`

The exceptions of the program with their texts, the `std::sto*` functions as `libstdc++` defines
them on 64-bit targets (`std::invalid_argument` when nothing is converted,
`std::out_of_range` when the value does not fit, the function's name as the text), and the helper
functions of `util.cc`.  `Machine` says what processors do differently: which numbers `strtof` and
`strtod` refuse as too small, and what becomes of a floating-point number that no `int` can hold
(C++ leaves this cast undefined). -/

namespace InverterTools

/-- The exception classes that occur; all derive from `std::exception`. -/
inductive ExnClass where
  | invalidArgument
  | outOfRange
  | lengthError
  | overflowError
  | runtimeError
  | deviceError
  | timeoutError
  | invalidDataError
  | invalidResponseError
  | parseError
  | typeError
deriving DecidableEq, Repr

/-- An exception and its `what()`. -/
structure Exn where
  cls : ExnClass
  what : Bytes
deriving DecidableEq, Repr

/-- `std::invalid_argument` with a literal text. -/
def invalidArgument (s : String) : Exn := ⟨.invalidArgument, ascii s⟩

/-- The conversion outcome as `libstdc++` raises it. -/
def Conv.toExcept {α : Type} (name : String) : Conv α → Except Exn α
  | .noConversion => .error ⟨.invalidArgument, ascii name⟩
  | .outOfRange => .error ⟨.outOfRange, ascii name⟩
  | .ok a => .ok a

/-- `std::stoul`. -/
def stoul (s : Bytes) : Except Exn ℕ := (strtoul s).toExcept "stoul"

/-- `std::stoi`: `strtol`, then a range check for `int`. -/
def stoi (s : Bytes) : Except Exn ℤ :=
  match strtol s with
  | .ok z => if z < -2 ^ 31 ∨ 2 ^ 31 ≤ z then .error ⟨.outOfRange, ascii "stoi"⟩ else .ok z
  | c => c.toExcept "stoi"

namespace P18

/-- What differs from processor to processor. -/
structure Machine where
  castInt : CFloat → ℤ
  castInt_range : ∀ x, -2 ^ 31 ≤ castInt x ∧ castInt x < 2 ^ 31
  tinyAfterRounding : Bool

/-- x86-64: a cast that does not fit gives the least `int`; underflow is decided after rounding. -/
def x86 : Machine := ⟨fun _ => -2 ^ 31, fun _ => by decide, true⟩

end P18

/-- `std::stof`. -/
def stof (m : P18.Machine) (s : Bytes) : Except Exn CFloat :=
  (strtod m.tinyAfterRounding binary32 s).toExcept "stof"

/-- `std::stod`. -/
def stod (m : P18.Machine) (s : Bytes) : Except Exn CFloat :=
  (strtod m.tinyAfterRounding binary64 s).toExcept "stod"

/-- `static_cast<unsigned>`. -/
def toUnsigned (n : ℕ) : ℕ := n % 2 ^ 32

/-- `static_cast<unsigned short>`. -/
def toUShort (n : ℕ) : ℕ := n % 2 ^ 16

/-- `static_cast<int>`. -/
def toInt (n : ℕ) : ℤ := Int.bmod n (2 ^ 32)

/-- `stou`. -/
def stou (s : Bytes) : Except Exn ℕ := toUnsigned <$> stoul s

/-- `stouh`. -/
def stouh (s : Bytes) : Except Exn ℕ := toUShort <$> stoul s

/-- `is_numeric`. -/
def isNumeric (s : Bytes) : Bool := !s.isEmpty && s.all isDigit

/-- `is_date_valid`. -/
def isDateValid (y m d : ℤ) : Bool :=
  if y < 2000 ∨ 2099 < y then false
  else if d < 1 ∨ 31 < d then false
  else if m < 1 ∨ 12 < m then false
  else if (m = 4 ∨ m = 6 ∨ m = 9 ∨ m = 11) ∧ d = 31 then false
  else decide (m ≠ 2 ∨ (y % 4 ≠ 0 ∧ d ≤ 28) ∨ (y % 4 = 0 ∧ d ≤ 29))

/-- `index_of`; `none` is the source's `-1`. -/
def indexOf {α β : Type} (eq : α → β → Bool) (haystack : List α) (needle : β) : Option ℕ :=
  haystack.findIdx? (eq · needle)

/-- `s.find(c, pos)`; `none` is `npos`. -/
def findFrom (s : Bytes) (c : UInt8) (pos : ℕ) : Option ℕ :=
  ((s.drop pos).findIdx? (· == c)).map (pos + ·)

/-- The loop of `split`: `prev` and `pos` are the source's two positions, `out` the vector so far.
The first argument bounds the number of rounds. -/
def splitLoop (s : Bytes) (separator : UInt8) : ℕ → ℕ → ℕ → List Bytes → Option (List Bytes)
  | 0, _, _, _ => none
  | fuel + 1, prev, pos, out =>
      match findFrom s separator pos with
      | some p =>
          splitLoop s separator fuel (p + 1) (p + 1) (out ++ [(s.drop prev).take (p - prev)])
      | none => some (out ++ [s.drop prev])

/-- `split`. -/
def split (s : Bytes) (separator : UInt8) : List Bytes :=
  (splitLoop s separator (s.length + 1) 0 0 []).getD []

/-- `string_has`. -/
def stringHas (s : Bytes) (c : UInt8) : Bool := (findFrom s c 0).isSome

theorem stringHas_iff {s : Bytes} {c : UInt8} : stringHas s c = true ↔ c ∈ s := by
  simp [stringHas, findFrom]

theorem findFrom_bounds {s : Bytes} {c : UInt8} {pos p : ℕ} (h : findFrom s c pos = some p) :
    pos ≤ p ∧ p < s.length := by
  obtain ⟨i, hi, rfl⟩ := Option.map_eq_some_iff.mp h
  have := (List.findIdx?_eq_some_iff_findIdx_eq.mp hi).1
  rw [List.length_drop] at this
  omega

/-- The loop of `split` ends: every round moves `pos` forward, and cuts one part off the rest. -/
theorem splitLoop_eq (s : Bytes) (c : UInt8) : ∀ (fuel pos : ℕ) (out : List Bytes),
    s.length + 1 ≤ fuel + pos → pos ≤ s.length →
      splitLoop s c fuel pos pos out = some (out ++ (s.drop pos).splitOn c)
  | 0, _, _, h, hp => by omega
  | fuel + 1, pos, out, h, hp => by
      rw [splitLoop]
      cases hf : findFrom s c pos with
      | none =>
          have hnone : c ∉ s.drop pos := fun hmem => by
            have hall := List.findIdx?_eq_none_iff.mp (Option.map_eq_none_iff.mp hf)
            simpa using hall c hmem
          rw [List.splitOn_eq_singleton hnone]
      | some p =>
          obtain ⟨-, hlt⟩ := findFrom_bounds hf
          obtain ⟨i, hi, rfl⟩ := Option.map_eq_some_iff.mp hf
          obtain ⟨hlen, heq, hbefore⟩ := List.findIdx?_eq_some_iff_getElem.mp hi
          have hnot : c ∉ (s.drop pos).take i := fun hmem => by
            obtain ⟨j, hj, rfl⟩ := List.mem_take_iff_getElem.mp hmem
            exact hbefore j (by omega) (beq_self_eq_true _)
          have hcut : s.drop pos = (s.drop pos).take i ++ c :: s.drop (pos + i + 1) := by
            have hdrop : s.drop (pos + i + 1) = (s.drop pos).drop (i + 1) := by
              rw [List.drop_drop, Nat.add_assoc]
            rw [hdrop, ← beq_iff_eq.mp heq, ← List.drop_eq_getElem_cons hlen,
              List.take_append_drop]
          show splitLoop s c fuel (pos + i + 1) (pos + i + 1)
            (out ++ [(s.drop pos).take (pos + i - pos)]) = _
          rw [splitLoop_eq s c fuel _ _ (by omega) (by omega), Nat.add_sub_cancel_left, hcut,
            List.splitOn_append_cons_self_of_not_mem hnot, ← hcut, List.append_assoc,
            List.singleton_append]

theorem split_eq_splitOn (s : Bytes) (c : UInt8) : split s c = s.splitOn c := by
  rw [split, splitLoop_eq s c _ _ _ (by omega) (by omega)]
  rfl

/-- The pieces between separators are free of them, and there is one more piece than separators. -/
theorem splitOn_pieces (s : Bytes) (c : UInt8) :
    (∀ piece ∈ s.splitOn c, c ∉ piece) ∧ (s.splitOn c).length = s.count c + 1 := by
  induction s with
  | nil => simp
  | cons b s ih =>
      obtain ⟨piece, rest, hs⟩ := List.exists_cons_of_ne_nil (List.splitOn_ne_nil c s)
      rw [hs] at ih
      obtain ⟨hpieces, hlen⟩ := ih
      rw [List.splitOn_cons_eq_if_modifyHead, hs]
      by_cases hb : b = c
      · subst hb
        rw [if_pos (beq_self_eq_true b), List.count_cons_self, List.length_cons, hlen]
        exact ⟨List.forall_mem_cons.mpr ⟨List.not_mem_nil, hpieces⟩, rfl⟩
      · rw [if_neg (by simpa using hb), List.count_cons_of_ne hb, ← hlen]
        obtain ⟨hfirst, hrest⟩ := List.forall_mem_cons.mp hpieces
        refine ⟨List.forall_mem_cons.mpr ⟨?_, hrest⟩, rfl⟩
        exact List.not_mem_cons_of_ne_of_not_mem (Ne.symm hb) hfirst

/-- **`split` inverts joining.**  The loop ends after at most one round more than the string is
long, the pieces joined are the string, no piece contains the separator, and they are one more
than the separators; and pieces without the separator come back when they are joined. -/
theorem split_inverts_join (s : Bytes) (c : UInt8) :
    splitLoop s c (s.length + 1) 0 0 [] = some (split s c) ∧
      [c].intercalate (split s c) = s ∧ (∀ piece ∈ split s c, c ∉ piece) ∧
      (split s c).length = s.count c + 1 ∧
      ∀ pieces : List Bytes, pieces ≠ [] → (∀ piece ∈ pieces, c ∉ piece) →
        split ([c].intercalate pieces) c = pieces := by
  obtain ⟨hpieces, hlen⟩ := splitOn_pieces s c
  rw [split_eq_splitOn]
  refine ⟨splitLoop_eq s c _ _ _ (by omega) (by omega), List.intercalate_splitOn c, hpieces, hlen,
    fun pieces hne hfree => ?_⟩
  rw [split_eq_splitOn]
  exact List.splitOn_intercalate c hfree hne

theorem subset_intercalate {sep s : Bytes} {list : List Bytes} (h : s ∈ list) :
    s ⊆ sep.intercalate list := by
  induction list with
  | nil => exact absurd h List.not_mem_nil
  | cons t list ih =>
      cases list with
      | nil =>
          rw [List.mem_singleton.mp h, List.intercalate_singleton]
          exact List.Subset.refl t
      | cons u list =>
          rw [List.intercalate_cons_cons, List.append_assoc]
          rcases List.mem_cons.mp h with rfl | h
          · exact List.subset_append_left _ _
          · have htail := List.Subset.trans (ih h) (List.subset_append_right sep _)
            exact List.Subset.trans htail (List.subset_append_right t _)

theorem subset_of_mem_split {s t : Bytes} {c : UInt8} (h : s ∈ split t c) : s ⊆ t := by
  rw [split_eq_splitOn] at h
  have hsub : s ⊆ [c].intercalate (t.splitOn c) := subset_intercalate h
  rwa [List.intercalate_splitOn] at hsub

theorem isNumeric_iff {s : Bytes} : isNumeric s = true ↔ s ≠ [] ∧ AllDigits s := by
  simp [isNumeric, AllDigits]

theorem stoul_eq_ok {s : Bytes} {n : ℕ} : stoul s = .ok n ↔ strtoul s = .ok n := by
  unfold stoul
  cases strtoul s <;> simp [Conv.toExcept]

theorem stoi_eq_ok {s : Bytes} {z : ℤ} :
    stoi s = .ok z ↔ strtol s = .ok z ∧ -2 ^ 31 ≤ z ∧ z < 2 ^ 31 := by
  unfold stoi
  cases strtol s with
  | noConversion => simp [Conv.toExcept]
  | outOfRange => simp [Conv.toExcept]
  | ok w =>
      simp only
      split_ifs with h
      · simp only [Conv.ok.injEq, false_iff]
        rintro ⟨rfl, h1, h2⟩
        omega
      · simp only [Except.ok.injEq, Conv.ok.injEq]
        exact ⟨fun hw => ⟨hw, by omega⟩, fun hw => hw.1⟩

theorem stof_eq_ok {m : P18.Machine} {s : Bytes} {x : CFloat} :
    stof m s = .ok x ↔ strtod m.tinyAfterRounding binary32 s = .ok x := by
  unfold stof
  cases strtod m.tinyAfterRounding binary32 s <;> simp [Conv.toExcept]

theorem stod_eq_ok {m : P18.Machine} {s : Bytes} {x : CFloat} :
    stod m s = .ok x ↔ strtod m.tinyAfterRounding binary64 s = .ok x := by
  unfold stod
  cases strtod m.tinyAfterRounding binary64 s <;> simp [Conv.toExcept]

theorem stoi_allDigits {s : Bytes} (h : AllDigits s) (hs : s ≠ []) (hv : numVal s < 2 ^ 31) :
    stoi s = .ok (numVal s) :=
  stoi_eq_ok.mpr ⟨strtol_allDigits h hs (by omega), by omega, by omega⟩

theorem stoul_allDigits {s : Bytes} (h : AllDigits s) (hs : s ≠ []) (hv : numVal s < 2 ^ 64) :
    stoul s = .ok (numVal s) :=
  stoul_eq_ok.mpr (strtoul_allDigits h hs hv)

/-- The number `std::stoul` reads, cast to `unsigned`, and the number `std::stoi` reads agree when
the cast is below `2 ^ 31`. -/
theorem stoi_of_toUnsigned {s : Bytes} {n : ℕ} {z : ℤ} (hu : stoul s = .ok n)
    (hi : stoi s = .ok z) (hn : toUnsigned n < 2 ^ 31) : z = toUnsigned n := by
  obtain ⟨hl, h1, h2⟩ := stoi_eq_ok.mp hi
  have := strtoul_strtol (stoul_eq_ok.mp hu) hl
  unfold toUnsigned at hn ⊢
  omega

end InverterTools
