import InverterTools.Encoding

/-! # Voltages

A voltage is read as a `float` and checked, then read again as a `double`, multiplied by ten and
rounded.  `tenths` is what is sent for a number; it is monotone, so what is sent for an accepted
text follows from what is sent for two numbers around the accepted ones.

A text `nan` passes the range checks, because every comparison with it is false; that is the only
way to send a voltage out of range (`voltages_sent_iff`). -/

namespace InverterTools.P18

/-- `round(val * 10)` for the `double` next to a number. -/
def tenths (q : ℚ) : ℤ := CFloat.roundAway (binary64.roundPos (binary64.roundPos q * 10))

theorem roundAway_of_nonneg {q : ℚ} (h : 0 ≤ q) : CFloat.roundAway q = ⌊q + 1 / 2⌋ := by
  rw [CFloat.roundAway, if_neg (not_lt.mpr h)]

theorem tenths_eq_floor {q : ℚ} (h : 0 ≤ q) :
    tenths q = ⌊binary64.roundPos (binary64.roundPos q * 10) + 1 / 2⌋ :=
  roundAway_of_nonneg
    (binary64.roundPos_nonneg (mul_nonneg (binary64.roundPos_nonneg h) (by norm_num)))

theorem tenths_mono {p q : ℚ} (hp : 0 ≤ p) (h : p ≤ q) : tenths p ≤ tenths q := by
  have hread := binary64.roundPos_mono hp h
  have hprod : binary64.roundPos p * 10 ≤ binary64.roundPos q * 10 := by linarith
  have hpos : 0 ≤ binary64.roundPos p * 10 :=
    mul_nonneg (binary64.roundPos_nonneg hp) (by norm_num)
  rw [tenths_eq_floor hp, tenths_eq_floor (hp.trans h)]
  apply Int.floor_le_floor
  linarith [binary64.roundPos_mono hpos hprod]

/-- The `float` next to a number below 64. -/
theorem float_near {q : ℚ} (h0 : 0 < q) (h64 : q < 64) :
    q - 1 / 2 ^ 19 ≤ binary32.roundPos q ∧ binary32.roundPos q ≤ q + 1 / 2 ^ 19 := by
  have h := abs_le.mp (binary32.roundPos_near (e := 5) (s := 18) (by decide) rfl h0
    (h64.trans_eq (by norm_num)))
  exact ⟨by linarith only [h.1], by linarith only [h.2]⟩

theorem double_near {q : ℚ} (h0 : 0 < q) (h1024 : q < 1024) :
    q - 1 / 2 ^ 44 ≤ binary64.roundPos q ∧ binary64.roundPos q ≤ q + 1 / 2 ^ 44 := by
  have h := abs_le.mp (binary64.roundPos_near (e := 9) (s := 43) (by decide) rfl h0
    (h1024.trans_eq (by norm_num)))
  exact ⟨by linarith only [h.1], by linarith only [h.2]⟩

/-- Near a whole number of tenths this number is sent. -/
theorem tenths_of_near {q : ℚ} {n : ℕ} (h1 : 1 ≤ q) (h59 : q ≤ 59) (hlo : n - 2 / 5 ≤ 10 * q)
    (hhi : 10 * q ≤ n + 2 / 5) : tenths q = n := by
  obtain ⟨h2, h3⟩ := double_near (q := q) (by linarith only [h1]) (by linarith only [h59])
  obtain ⟨h4, h5⟩ := double_near (q := binary64.roundPos q * 10) (by linarith only [h1, h2])
    (by linarith only [h59, h3])
  rw [tenths_eq_floor (by linarith only [h1]), Int.floor_eq_iff, Int.cast_natCast]
  exact ⟨by linarith only [h2, h4, hlo], by linarith only [h3, h5, hhi]⟩

/-! ### The two readings of a text -/

theorem scanFloat_of_stof {m : Machine} {s : Bytes} {r : ℚ} (h : stof m s = .ok (.fin r))
    (h1 : 1 < r) (h59 : r < 59) :
    ∃ q, scanFloat s = some (.num false q) ∧ r = binary32.roundPos q ∧ 1 ≤ q ∧ q ≤ 59 := by
  obtain ⟨neg, q, hs, hq, hr⟩ := strtod_eq_ok_fin (stof_eq_ok.mp h)
  have hpos := binary32.roundPos_nonneg hq
  cases neg with
  | true =>
      rw [if_pos rfl] at hr
      linarith
  | false =>
      rw [if_neg (by simp)] at hr
      have hone : binary32.roundPos ((1 : ℕ) : ℚ) = 1 := by
        rw [binary32.roundPos_natCast (by decide), Nat.cast_one]
      have hfn : binary32.roundPos ((59 : ℕ) : ℚ) = 59 := by
        rw [binary32.roundPos_natCast (by decide), Nat.cast_ofNat]
      have hlo : ((1 : ℕ) : ℚ) < q :=
        binary32.lt_of_roundPos_lt hq (by rw [hone, ← hr]; exact h1)
      have hhi : q < ((59 : ℕ) : ℚ) :=
        binary32.lt_of_roundPos_lt (by norm_num) (by rw [hfn, ← hr]; exact h59)
      push_cast at hlo hhi
      exact ⟨q, hs, hr, hlo.le, hhi.le⟩

theorem roundPos_lt_max {F : FloatFormat} (hprec : 59 < 2 ^ F.prec) (hmax : 6 ≤ F.emax + 1) {q : ℚ}
    (h0 : 0 ≤ q) (h : q ≤ 59) : F.roundPos q < 2 ^ (F.emax + 1) := by
  have hle : F.roundPos q ≤ 59 := by
    exact_mod_cast F.roundPos_le_natCast hprec h0 (by push_cast; exact h)
  calc F.roundPos q ≤ 59 := hle
    _ < 2 ^ (6 : ℤ) := by norm_num
    _ ≤ 2 ^ (F.emax + 1) := zpow_le_zpow_right₀ (by norm_num) hmax

/-- Zero, or a number from one to 59, as it is denoted by a text. -/
structure Denotes (s : Bytes) (q : ℚ) : Prop where
  scan : scanFloat s = some (.num false q)
  pos : q = 0 ∨ 1 ≤ q
  le : q ≤ 59

theorem Denotes.nonneg {s : Bytes} {q : ℚ} (h : Denotes s q) : 0 ≤ q := by
  rcases h.pos with rfl | h1
  · exact le_rfl
  · linarith

theorem Denotes.strtod_eq {s : Bytes} {q : ℚ} (h : Denotes s q) {after : Bool} {F : FloatFormat}
    (hprec : 59 < 2 ^ F.prec) (hmax : 6 ≤ F.emax + 1) :
    strtod after F s = .ok (.fin (F.roundPos q)) := by
  refine strtod_of_num h.scan (roundPos_lt_max hprec hmax h.nonneg h.le) (h.pos.imp_right ?_)
  intro h1
  have hmin : (2 : ℚ) ^ F.emin ≤ 1 := by
    rw [← zpow_zero (2 : ℚ)]
    exact zpow_le_zpow_right₀ (by norm_num) F.emin_nonpos
  linarith

theorem Denotes.stof_eq {s : Bytes} {q : ℚ} (h : Denotes s q) (m : Machine) :
    stof m s = .ok (.fin (binary32.roundPos q)) :=
  stof_eq_ok.mpr (h.strtod_eq (by decide) (by decide))

theorem Denotes.packVoltage_eq {s : Bytes} {q : ℚ} (h : Denotes s q) (m : Machine) :
    packVoltage m s = .ok (fixedInt 3 (tenths q)) := by
  have hd : stod m s = .ok (.fin (binary64.roundPos q)) :=
    stod_eq_ok.mpr (h.strtod_eq (by decide) (by decide))
  have hle : binary64.roundPos q ≤ 59 := by
    have hprec : 59 < 2 ^ binary64.prec := by decide
    exact_mod_cast binary64.roundPos_le_natCast hprec h.nonneg (by push_cast; exact h.le)
  rw [packVoltage, hd, tenths,
    ← (roundInt_timesTen_eq m (binary64.roundPos_nonneg h.nonneg) hle).1]
  rfl

/-! ### Fields of three digits -/

/-- A field of exactly three digits with an allowed number. -/
def VoltageField (S : Set ℤ) (f : Bytes) : Prop :=
  f.length = 3 ∧ AllDigits f ∧ (numVal f : ℤ) ∈ S

theorem voltageField_iff {S : Set ℤ} (hS : ∀ z ∈ S, 0 ≤ z ∧ z ≤ 999) (z : ℤ) :
    VoltageField S (fixedInt 3 z) ↔ z ∈ S := by
  have hmatches := @zeroPad_intDecimal_matches_iff 3 999 z (by norm_num)
  have hvalue : AllDigits (fixedInt 3 z) → (numVal (fixedInt 3 z) : ℤ) = z := fun h => by
    rw [← fieldInt_of_allDigits h, fixedInt, fieldInt_zeroPad]
  constructor
  · rintro ⟨-, hdigits, hmem⟩
    rwa [hvalue hdigits] at hmem
  · intro hmem
    obtain ⟨h0, h999⟩ := hS z hmem
    obtain ⟨hlen, hdigits, -⟩ := hmatches.mpr ⟨h0, by omega, by exact_mod_cast h999⟩
    exact ⟨hlen, hdigits, by rwa [hvalue hdigits]⟩

/-! ### The range checks -/

/-- A number that passes a range check: it is between two numbers outside the range whose tenths are
the ends of the range. -/
theorem tenths_of_voltageIn {m : Machine} {s : Bytes} {r lo hi l h p p' : ℚ} {err : String}
    (hs : stof m s = .ok (.fin r)) (hlo : binary64.round lo = .fin l)
    (hhi : binary64.round hi = .fin h) (hv : voltageIn (.fin r) lo hi err = .ok ())
    (hl : 1 < l) (hh : h < 59) (hp0 : 0 ≤ p) (hp : binary32.roundPos p < l) (hp' : 0 ≤ p')
    (hph : h < binary32.roundPos p') :
    ∃ q, Denotes s q ∧ tenths p ≤ tenths q ∧ tenths q ≤ tenths p' := by
  rcases voltageIn_eq_ok hlo hhi hv with hnan | ⟨r', hr, h1, h2⟩
  · cases hnan
  obtain rfl := CFloat.fin.inj hr
  obtain ⟨q, hscan, rfl, hq1, hq59⟩ := scanFloat_of_stof hs (by linarith) (by linarith)
  have hpq := binary32.lt_of_roundPos_lt (show 0 ≤ q by linarith) (hp.trans_le h1)
  have hqp := binary32.lt_of_roundPos_lt hp' (h2.trans_lt hph)
  exact ⟨q, ⟨hscan, .inr hq1, hq59⟩, tenths_mono hp0 hpq.le,
    tenths_mono (by linarith) hqp.le⟩

/-- The field of a voltage that passed a range check: in range, unless the text is a NaN and the
processor makes of it what it will. -/
theorem voltageIn_field_iff {m : Machine} {s : Bytes} {v : CFloat} {lo hi l h p p' : ℚ}
    {err : String} {u : Unit} (hs : stof m s = .ok v) (hv : voltageIn v lo hi err = .ok u)
    (hlo : binary64.round lo = .fin l) (hhi : binary64.round hi = .fin h)
    (hl : 1 < l) (hh : h < 59) (hp0 : 0 ≤ p) (hp : binary32.roundPos p < l) (hp' : 0 ≤ p')
    (hph : h < binary32.roundPos p') (ha : 0 ≤ tenths p) (hb : tenths p' ≤ 999) :
    ∃ f, packVoltage m s = .ok f ∧ (VoltageField (Set.Icc (tenths p) (tenths p')) f ↔
      (scanFloat s = some .nan → m.castInt .nan ∈ Set.Icc (tenths p) (tenths p'))) := by
  have hS : ∀ z ∈ Set.Icc (tenths p) (tenths p'), 0 ≤ z ∧ z ≤ 999 := fun z hz =>
    ⟨ha.trans hz.1, hz.2.trans hb⟩
  rcases voltageIn_eq_ok hlo hhi hv with rfl | ⟨r, rfl, -, -⟩
  · have hnan : scanFloat s = some .nan := strtod_eq_ok_nan_iff.mp (stof_eq_ok.mp hs)
    have hd : stod m s = .ok .nan := stod_eq_ok.mpr (strtod_eq_ok_nan_iff.mpr hnan)
    refine ⟨fixedInt 3 (m.castInt .nan), ?_, ?_⟩
    · rw [packVoltage, hd]
      rfl
    · rw [voltageField_iff hS]
      exact ⟨fun h _ => h, fun h => h hnan⟩
  · obtain ⟨q, hq, h1, h2⟩ := tenths_of_voltageIn hs hlo hhi hv hl hh hp0 hp hp' hph
    refine ⟨_, hq.packVoltage_eq m, ?_⟩
    rw [voltageField_iff hS]
    refine iff_of_true ⟨h1, h2⟩ fun hnan => ?_
    rw [hq.scan] at hnan
    cases hnan

theorem tenths_bounds :
    (binary32.roundPos 47.99 < 48 ∧ tenths 47.99 = 480) ∧
      ((8219069319951155 / 140737488355328 : ℚ) < binary32.roundPos 58.41 ∧
        tenths 58.41 = 584) ∧
      (binary32.roundPos 39.99 < 40 ∧ tenths 39.99 = 400) ∧
      (48 < binary32.roundPos 48.01 ∧ tenths 48.01 = 480) := by
  have hsent : ∀ (q : ℚ) (n : ℕ), 1 ≤ q ∧ q ≤ 59 ∧ n - 2 / 5 ≤ 10 * q ∧ 10 * q ≤ n + 2 / 5 →
      tenths q = n := fun q n h => tenths_of_near h.1 h.2.1 h.2.2.1 h.2.2.2
  refine ⟨⟨?_, ?_⟩, ⟨?_, ?_⟩, ⟨?_, ?_⟩, ?_, ?_⟩
  · exact (float_near (by norm_num) (by norm_num)).2.trans_lt (by norm_num)
  · exact hsent 47.99 480 (by norm_num)
  · exact lt_of_lt_of_le (by norm_num) (float_near (by norm_num) (by norm_num)).1
  · exact hsent 58.41 584 (by norm_num)
  · exact (float_near (by norm_num) (by norm_num)).2.trans_lt (by norm_num)
  · exact hsent 39.99 400 (by norm_num)
  · exact lt_of_lt_of_le (by norm_num) (float_near (by norm_num) (by norm_num)).1
  · exact hsent 48.01 480 (by norm_num)

/-! ### The tables of thresholds -/

/-- The re-charge thresholds in tenths of a volt. -/
def rechargeTenths : List ℕ :=
  [110, 113, 115, 118, 120, 123, 125, 128, 220, 225, 230, 235, 240, 245, 250, 255, 440, 450, 460,
    470, 480, 490, 500, 510]

/-- The re-discharge thresholds in tenths of a volt. -/
def redischargeTenths : List ℕ :=
  [0, 120, 123, 125, 128, 130, 133, 135, 138, 140, 143, 145, 240, 245, 250, 255, 260, 265, 270,
    275, 280, 285, 290, 480, 490, 500, 510, 520, 530, 540, 550, 560, 570, 580]

/-- What reads as the entry of a table is sent as `n` tenths: the entry is between the readings of
two numbers that are sent so. -/
def pins (n : ℕ) : CFloat → Bool
  | .fin r => if n = 0 then r = 0 else (1 < r ∧ r < 59) ∧
      (binary32.roundPos ((10 * n - 1) / 100) < r ∧ tenths ((10 * n - 1) / 100) = n) ∧
      r < binary32.roundPos ((10 * n + 1) / 100) ∧ tenths ((10 * n + 1) / 100) = n
  | _ => false

theorem floatLiteral_zero : floatLiteral 0 = .fin 0 := by
  rw [floatLiteral, binary64.round_zero]
  exact binary32.round_zero

/-- A literal is read as a `double` first, then as a `float`. -/
theorem floatLiteral_near {q : ℚ} (h1 : 1 ≤ q) (h59 : q ≤ 59) :
    ∃ r, floatLiteral q = .fin r ∧ q - 1 / 2 ^ 18 ≤ r ∧ r ≤ q + 1 / 2 ^ 18 := by
  have hprec : 1 < 2 ^ binary64.prec ∧ 59 < 2 ^ binary64.prec := by decide
  have hlo : (1 : ℚ) ≤ binary64.roundPos q := by
    exact_mod_cast binary64.natCast_le_roundPos hprec.1 (by push_cast; exact h1)
  have hhi : binary64.roundPos q ≤ 59 := by
    exact_mod_cast binary64.roundPos_le_natCast hprec.2 (by linarith) (by push_cast; exact h59)
  obtain ⟨h2, h3⟩ := double_near (q := q) (by linarith only [h1]) (by linarith only [h59])
  obtain ⟨h4, h5⟩ := float_near (q := binary64.roundPos q) (by linarith only [hlo])
    (by linarith only [hhi])
  refine ⟨binary32.roundPos (binary64.roundPos q), ?_, by linarith only [h2, h4],
    by linarith only [h3, h5]⟩
  rw [floatLiteral, binary64.round_of_lt (by linarith)
    (roundPos_lt_max (by decide) (by decide) (by linarith) h59)]
  exact binary32.round_of_lt (by linarith)
    (roundPos_lt_max (by decide) (by decide) (by linarith) hhi)

theorem pins_floatLiteral {n : ℕ} (h20 : 20 ≤ n) (h580 : n ≤ 580) :
    pins n (floatLiteral (n / 10)) = true := by
  have h20' : (20 : ℚ) ≤ n := by exact_mod_cast h20
  have h580' : (n : ℚ) ≤ 580 := by exact_mod_cast h580
  obtain ⟨r, hr, hlo, hhi⟩ := floatLiteral_near (show (1 : ℚ) ≤ n / 10 by linarith) (by linarith)
  -- the two numbers around the entry
  set p : ℚ := (10 * n - 1) / 100 with hp
  set p' : ℚ := (10 * n + 1) / 100 with hp'
  have h1 : 1 ≤ p ∧ 1 ≤ p' := ⟨by linarith only [h20', hp], by linarith only [h20', hp']⟩
  have h59 : p ≤ 59 ∧ p' ≤ 59 := ⟨by linarith only [h580', hp], by linarith only [h580', hp']⟩
  obtain ⟨-, hbelow⟩ := float_near (q := p) (by linarith only [h1.1]) (by linarith only [h59.1])
  obtain ⟨habove, -⟩ := float_near (q := p') (by linarith only [h1.2]) (by linarith only [h59.2])
  rw [hr]
  dsimp only [pins]
  rw [if_neg (by omega)]
  refine decide_eq_true ⟨⟨?_, ?_⟩, ⟨?_, ?_⟩, ?_, ?_⟩
  · linarith only [h20', hlo]
  · linarith only [h580', hhi]
  · linarith only [hbelow, hlo, hp]
  · exact tenths_of_near h1.1 h59.1 (by linarith only [hp]) (by linarith only [hp])
  · linarith only [habove, hhi, hp']
  · exact tenths_of_near h1.2 h59.2 (by linarith only [hp']) (by linarith only [hp'])

theorem table_pinned {ns : List ℕ} {qs : List ℚ}
    (h : ∀ q ∈ qs, ∃ n ∈ ns, (n = 0 ∨ (20 ≤ n ∧ n ≤ 580)) ∧ q = n / 10) :
    ∀ x ∈ qs.map floatLiteral, (ns.any fun n => pins n x) = true := by
  intro x hx
  obtain ⟨q, hq, rfl⟩ := List.mem_map.mp hx
  obtain ⟨n, hn, hrange, rfl⟩ := h q hq
  refine List.any_eq_true.mpr ⟨n, hn, ?_⟩
  rcases hrange with rfl | ⟨h20, h580⟩
  · rw [Nat.cast_zero, zero_div, floatLiteral_zero]
    rfl
  · exact pins_floatLiteral h20 h580

theorem tables_pinned :
    (∀ t ∈ [batACRechargeVoltages12V, batACRechargeVoltages24V, batACRechargeVoltages48V],
      ∀ x ∈ t, (rechargeTenths.any fun n => pins n x) = true) ∧
    ∀ t ∈ [batACRedischargeVoltages12V, batACRedischargeVoltages24V, batACRedischargeVoltages48V],
      ∀ x ∈ t, (redischargeTenths.any fun n => pins n x) = true := by
  simp only [List.forall_mem_cons, List.not_mem_nil, IsEmpty.forall_iff, implies_true, and_true]
  exact ⟨⟨table_pinned (by decide +kernel), table_pinned (by decide +kernel),
    table_pinned (by decide +kernel)⟩, table_pinned (by decide +kernel),
    table_pinned (by decide +kernel), table_pinned (by decide +kernel)⟩

theorem packVoltage_zero {m : Machine} {s : Bytes} (hs : stof m s = .ok (.fin 0)) :
    packVoltage m s = .ok (fixedInt 3 0) := by
  obtain ⟨neg, hscan⟩ := scanFloat_of_strtod_zero (stof_eq_ok.mp hs)
  have hlt := roundPos_lt_max (F := binary64) (by decide) (by decide) le_rfl (by norm_num)
  have hd := @strtod_of_num m.tinyAfterRounding binary64 s neg 0 hscan hlt (.inl rfl)
  have hzero : (if neg then -binary64.roundPos 0 else binary64.roundPos 0) = 0 := by
    rw [binary64.roundPos_zero, neg_zero, ite_self]
  rw [hzero] at hd
  rw [packVoltage, stod_eq_ok.mpr hd]
  show Except.ok (fixedInt 3 (m.roundInt (timesTen (.fin 0)))) = _
  rw [(roundInt_timesTen_eq m le_rfl (by norm_num)).1, zero_mul, binary64.roundPos_zero,
    roundAway_of_nonneg le_rfl]
  norm_num

/-- What reads as a pinned entry: zero, or a number close to its tenths. -/
theorem denotes_of_pins {m : Machine} {s : Bytes} {n : ℕ} {x : CFloat} (hpin : pins n x = true)
    (hs : stof m s = .ok x) :
    (n = 0 ∧ x = .fin 0) ∨ ∃ q, Denotes s q ∧ (10 * n - 1) / 100 < q ∧ q < (10 * n + 1) / 100 ∧
      tenths q = n := by
  cases x with
  | nan => cases hpin
  | inf neg => cases hpin
  | fin r =>
      dsimp only [pins] at hpin
      by_cases hn : n = 0
      · rw [if_pos hn] at hpin
        rw [of_decide_eq_true hpin]
        exact .inl ⟨hn, rfl⟩
      · rw [if_neg hn] at hpin
        obtain ⟨⟨h1, h59⟩, ⟨hlo, hlo'⟩, hhi, hhi'⟩ := of_decide_eq_true hpin
        obtain ⟨q, hscan, rfl, hq1, hq59⟩ := scanFloat_of_stof hs h1 h59
        have hone : (1 : ℚ) ≤ n := by exact_mod_cast Nat.one_le_iff_ne_zero.mpr hn
        have hpq := binary32.lt_of_roundPos_lt (show 0 ≤ q by linarith) hlo
        have hqp := binary32.lt_of_roundPos_lt (show (0 : ℚ) ≤ (10 * n + 1) / 100 by positivity) hhi
        have hle := tenths_mono (div_nonneg (by linarith) (by norm_num)) hpq.le
        have hge := tenths_mono (show 0 ≤ q by linarith) hqp.le
        rw [hlo'] at hle
        rw [hhi'] at hge
        exact .inr ⟨q, ⟨hscan, .inr hq1, hq59⟩, hpq, hqp, le_antisymm hge hle⟩

theorem packVoltage_of_pins {m : Machine} {s : Bytes} {n : ℕ} {x : CFloat} (hpin : pins n x = true)
    (hs : stof m s = .ok x) : packVoltage m s = .ok (fixedInt 3 n) := by
  obtain ⟨rfl, rfl⟩ | ⟨q, hq, -, -, htenths⟩ := denotes_of_pins hpin hs
  · exact packVoltage_zero hs
  · rw [hq.packVoltage_eq m, htenths]

theorem pins_of_listed {v : CFloat} {tables : List (List CFloat)} {ns : List ℕ} {err : String}
    {u : Unit} (hT : ∀ t ∈ tables, ∀ x ∈ t, (ns.any fun n => pins n x) = true)
    (hv : voltageListed v tables err = .ok u) : ∃ n ∈ ns, pins n v = true := by
  simp only [voltageListed, check_eq_ok, List.any_eq_true, indexOf, List.findIdx?_isSome] at hv
  obtain ⟨t, ht, x, hx, heq⟩ := hv
  obtain ⟨n, hn, hpin⟩ := List.any_eq_true.mp (hT t ht x hx)
  have hxv : x = v := by
    cases x with
    | nan => cases hpin
    | inf neg => cases hpin
    | fin q =>
        cases v with
        | nan => cases heq
        | inf neg => cases heq
        | fin r => exact congrArg CFloat.fin (of_decide_eq_true heq)
  exact ⟨n, hn, hxv ▸ hpin⟩

theorem packVoltage_listed {m : Machine} {s : Bytes} {v : CFloat} {tables : List (List CFloat)}
    {ns : List ℕ} {err : String} {u : Unit}
    (hT : ∀ t ∈ tables, ∀ x ∈ t, (ns.any fun n => pins n x) = true) (hs : stof m s = .ok v)
    (hv : voltageListed v tables err = .ok u) :
    ∃ n ∈ ns, packVoltage m s = .ok (fixedInt 3 n) := by
  obtain ⟨n, hn, hpin⟩ := pins_of_listed hT hv
  exact ⟨n, hn, packVoltage_of_pins hpin hs⟩

/-! ### What is sent -/

/-- The values in tenths of a volt that each position of a command allows. -/
def voltageRanges : CommandType → List (Set ℤ)
  | .setBatteryMaxChargeVoltage => [Set.Icc 480 584, Set.Icc 480 584]
  | .setBatteryCutOffVoltage => [Set.Icc 400 480]
  | .setBatteryChargeThresholds =>
      [{z | ∃ n ∈ rechargeTenths, z = (n : ℤ)}, {z | ∃ n ∈ redischargeTenths, z = (n : ℤ)}]
  | _ => []

/-- The argument field consists of fields of three digits with allowed voltages, with commas in
between. -/
def VoltagesInRange (c : CommandType) (fields : Bytes) : Prop :=
  ∃ parts, fields = (ascii ",").intercalate parts ∧
    List.Forall₂ (fun f S => VoltageField S f) parts (voltageRanges c)

/-- Digits have no comma, so the parts of a field are determined. -/
theorem voltagesInRange_pair_iff {c : CommandType} {S T : Set ℤ} (hc : voltageRanges c = [S, T])
    {f g : Bytes} (hf : (0x2C : UInt8) ∉ f) :
    VoltagesInRange c (f ++ ascii "," ++ g) ↔ VoltageField S f ∧ VoltageField T g := by
  have hjoin : ∀ a b : Bytes, (ascii ",").intercalate [a, b] = a ++ 0x2C :: b := fun a b => by
    rw [List.intercalate_cons_cons, List.intercalate_singleton, List.append_assoc]
    rfl
  constructor
  · rintro ⟨parts, hparts, hall⟩
    rw [hc] at hall
    obtain ⟨a, as, ha, has, rfl⟩ := List.forall₂_cons_right_iff.mp hall
    obtain ⟨b, bs, hb, hbs, rfl⟩ := List.forall₂_cons_right_iff.mp has
    obtain rfl := List.forall₂_nil_right_iff.mp hbs
    have hcomma : (0x2C : UInt8) ∉ a := comma_notMem_of_allDigits ha.2.1
    rw [hjoin, List.append_assoc] at hparts
    obtain rfl := eq_of_append_cons_eq hf hcomma hparts
    obtain ⟨-, rfl⟩ := List.cons.inj (List.append_cancel_left hparts)
    exact ⟨ha, hb⟩
  · rintro ⟨ha, hb⟩
    refine ⟨[f, g], ?_, ?_⟩
    · rw [hjoin, List.append_assoc]
      rfl
    · rw [hc]
      exact .cons ha (.cons hb .nil)

theorem comma_notMem_packVoltage {m : Machine} {s f : Bytes} (h : packVoltage m s = .ok f) :
    (0x2C : UInt8) ∉ f := by
  obtain ⟨v, -, rfl⟩ := map_eq_ok.mp h
  exact comma_notMem_intDecimal 3 _

/-- What a command allows a NaN to become. -/
def NanInRange (m : Machine) (c : CommandType) (args : List Bytes) : Prop :=
  ∀ s ∈ voltageArgs c args, scanFloat s = some .nan → ∀ S ∈ voltageRanges c, m.castInt .nan ∈ S

theorem chargeVoltage_field_iff {m : Machine} {s : Bytes} {x : CFloat} {err : String} {u : Unit}
    (hs : stof m s = .ok x) (hx : voltageIn x 48.0 58.4 err = .ok u) :
    ∃ f, packVoltage m s = .ok f ∧ (VoltageField (Set.Icc 480 584) f ↔
      (scanFloat s = some .nan → m.castInt .nan ∈ Set.Icc (480 : ℤ) 584)) := by
  obtain ⟨⟨hlo, hlo'⟩, ⟨hhi, hhi'⟩, -, -⟩ := tenths_bounds
  obtain ⟨-, h48, h58⟩ := round_bounds
  have h := @voltageIn_field_iff m s x 48.0 58.4 _ _ 47.99 58.41 err u hs hx h48 h58
    (by norm_num) (by norm_num) (by norm_num) hlo (by norm_num) hhi (by omega) (by omega)
  rwa [hlo', hhi'] at h

theorem cutOffVoltage_field_iff {m : Machine} {s : Bytes} {x : CFloat} {err : String} {u : Unit}
    (hs : stof m s = .ok x) (hx : voltageIn x 40.0 48.0 err = .ok u) :
    ∃ f, packVoltage m s = .ok f ∧ (VoltageField (Set.Icc 400 480) f ↔
      (scanFloat s = some .nan → m.castInt .nan ∈ Set.Icc (400 : ℤ) 480)) := by
  obtain ⟨-, -, ⟨hlo, hlo'⟩, hhi, hhi'⟩ := tenths_bounds
  obtain ⟨h40, h48, -⟩ := round_bounds
  have h := @voltageIn_field_iff m s x 40.0 48.0 _ _ 39.99 48.01 err u hs hx h40 h48
    (by norm_num) (by norm_num) (by norm_num) hlo (by norm_num) hhi (by omega) (by omega)
  rwa [hlo', hhi'] at h

theorem setBatteryMaxChargeVoltage_sent_iff {m : Machine} {a b : Bytes} {args : List Bytes}
    (hv : validateArgs m .setBatteryMaxChargeVoltage [a, b] = .ok args) :
    (∃ fields, packArguments m .setBatteryMaxChargeVoltage args = .ok fields ∧
      VoltagesInRange .setBatteryMaxChargeVoltage fields) ↔
      NanInRange m .setBatteryMaxChargeVoltage args := by
  obtain ⟨v, w, hav, hbw, hcv, hfv, rfl⟩ := setBatteryMaxChargeVoltage_accepted hv
  obtain ⟨f, hf, hfiff⟩ := chargeVoltage_field_iff (m := m) (s := a) hav hcv
  obtain ⟨g, hg, hgiff⟩ := chargeVoltage_field_iff (m := m) (s := b) hbw hfv
  have hpack : packArguments m .setBatteryMaxChargeVoltage [a, b] = .ok (f ++ ascii "," ++ g) :=
    (twoVoltages_packed (.inl rfl)).mpr ⟨f, g, hf, hg, rfl⟩
  have hiff := voltagesInRange_pair_iff (c := .setBatteryMaxChargeVoltage) (g := g) rfl
    (comma_notMem_packVoltage hf)
  simp only [hpack, Except.ok.injEq, exists_eq_left', hiff, hfiff, hgiff, NanInRange, voltageArgs,
    voltageRanges, List.forall_mem_cons, List.getD_cons_zero, List.getD_cons_succ,
    List.not_mem_nil, IsEmpty.forall_iff, implies_true, and_true, and_self]

theorem setBatteryCutOffVoltage_sent_iff {m : Machine} {a : Bytes} {args : List Bytes}
    (hv : validateArgs m .setBatteryCutOffVoltage [a] = .ok args) :
    (∃ fields, packArguments m .setBatteryCutOffVoltage args = .ok fields ∧
      VoltagesInRange .setBatteryCutOffVoltage fields) ↔
      NanInRange m .setBatteryCutOffVoltage args := by
  obtain ⟨v, hav, hcheck, rfl⟩ := setBatteryCutOffVoltage_accepted hv
  obtain ⟨f, hf, hfiff⟩ := cutOffVoltage_field_iff (m := m) (s := a) hav hcheck
  have hpack : packArguments m .setBatteryCutOffVoltage [a] = .ok f := hf
  have hiff : VoltagesInRange .setBatteryCutOffVoltage f ↔ VoltageField (Set.Icc 400 480) f := by
    constructor
    · rintro ⟨parts, rfl, hall⟩
      obtain ⟨b, bs, hb, hbs, rfl⟩ := List.forall₂_cons_right_iff.mp hall
      obtain rfl := List.forall₂_nil_right_iff.mp hbs
      rwa [List.intercalate_singleton]
    · intro h
      exact ⟨[f], (List.intercalate_singleton ..).symm, .cons h .nil⟩
  simp only [hpack, Except.ok.injEq, exists_eq_left', hiff, hfiff, NanInRange, voltageArgs,
    voltageRanges, List.forall_mem_cons, List.getD_cons_zero, List.not_mem_nil,
    IsEmpty.forall_iff, implies_true, and_true]

/-- A NaN equals no entry of a table. -/
theorem setBatteryChargeThresholds_sent {m : Machine} {a b : Bytes} {args : List Bytes}
    (hv : validateArgs m .setBatteryChargeThresholds [a, b] = .ok args) :
    ∃ fields, packArguments m .setBatteryChargeThresholds args = .ok fields ∧
      VoltagesInRange .setBatteryChargeThresholds fields := by
  obtain ⟨v, w, hav, hbw, hcv, hdv, rfl⟩ := setBatteryChargeThresholds_accepted hv
  obtain ⟨n, hn, hf⟩ := packVoltage_listed (m := m) (s := a) tables_pinned.1 hav hcv
  obtain ⟨k, hk, hg⟩ := packVoltage_listed (m := m) (s := b) tables_pinned.2 hbw hdv
  have hpack : packArguments m .setBatteryChargeThresholds [a, b] =
      .ok (fixedInt 3 n ++ ascii "," ++ fixedInt 3 k) :=
    (twoVoltages_packed (.inr rfl)).mpr ⟨_, _, hf, hg, rfl⟩
  have hmax : (∀ n ∈ rechargeTenths, n ≤ 999) ∧ ∀ n ∈ redischargeTenths, n ≤ 999 := by decide
  refine ⟨_, hpack, (voltagesInRange_pair_iff rfl (comma_notMem_packVoltage hf)).mpr ⟨?_, ?_⟩⟩
  · refine (voltageField_iff ?_ _).mpr ⟨n, hn, rfl⟩
    rintro z ⟨n, hn, rfl⟩
    have := hmax.1 n hn
    omega
  · refine (voltageField_iff ?_ _).mpr ⟨k, hk, rfl⟩
    rintro z ⟨k, hk, rfl⟩
    have := hmax.2 k hk
    omega

/-- **Only voltages in range are sent** for accepted arguments, in fields of exactly three digits,
if and only if no argument is a NaN, or the processor makes an allowed number of it. -/
theorem voltages_sent_iff (m : Machine) (command : Bytes) (argv : List Bytes) {c : CommandType}
    (hc : c = .setBatteryMaxChargeVoltage ∨ c = .setBatteryCutOffVoltage ∨
      c = .setBatteryChargeThresholds) {args : List Bytes}
    (hv : validateInput m (getArgs argv) command = .ok (c, args)) :
    (∃ fields, packArguments m c args = .ok fields ∧ VoltagesInRange c fields) ↔
      NanInRange m c args := by
  obtain ⟨-, given, hgiven, hvalid⟩ := validateInput_eq_ok.mp hv
  rcases hc with rfl | rfl | rfl
  · obtain ⟨a, b, rfl⟩ := List.length_eq_two.mp (getArgs_length hgiven).1
    exact setBatteryMaxChargeVoltage_sent_iff hvalid
  · obtain ⟨a, rfl⟩ := List.length_eq_one_iff.mp (getArgs_length hgiven).1
    exact setBatteryCutOffVoltage_sent_iff hvalid
  · obtain ⟨a, b, rfl⟩ := List.length_eq_two.mp (getArgs_length hgiven).1
    refine iff_of_true (setBatteryChargeThresholds_sent hvalid) fun s hs => ?_
    exact absurd hs List.not_mem_nil

/-- `set-battery-cutoff-voltage 47.97`. -/
theorem voltages_sent_cutoff :
    (∃ fields, packArguments x86 .setBatteryCutOffVoltage [ascii "47.97"] = .ok fields ∧
        VoltagesInRange .setBatteryCutOffVoltage fields) ↔
      NanInRange x86 .setBatteryCutOffVoltage [ascii "47.97"] :=
  voltages_sent_iff x86 (ascii "set-battery-cutoff-voltage") [ascii "47.97"] (.inr (.inl rfl))
    (show _ = Except.ok (CommandType.setBatteryCutOffVoltage, _) by decide +kernel)

/-- `set-max-charge-voltage nan nan` is accepted, and sends what `(int)NaN` is. -/
theorem voltages_nan : ¬ ∀ (command : Bytes) (argv args : List Bytes),
    validateInput x86 (getArgs argv) command = .ok (.setBatteryMaxChargeVoltage, args) →
      ∃ fields, packArguments x86 .setBatteryMaxChargeVoltage args = .ok fields ∧
        VoltagesInRange .setBatteryMaxChargeVoltage fields := by
  intro h
  have hsent := h (ascii "set-max-charge-voltage") [ascii "nan", ascii "nan"]
    [ascii "nan", ascii "nan"] (by decide +kernel)
  have hpack : packArguments x86 .setBatteryMaxChargeVoltage [ascii "nan", ascii "nan"] =
      .ok (ascii "-2147483648" ++ ascii "," ++ ascii "-2147483648") := by
    decide
  obtain ⟨fields, hfields, hrange⟩ := hsent
  obtain rfl := Except.ok.inj (hpack.symm.trans hfields)
  have hfirst := ((voltagesInRange_pair_iff rfl (by decide)).mp hrange).1.1
  exact absurd hfirst (by decide)

end InverterTools.P18
