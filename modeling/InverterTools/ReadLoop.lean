import InverterTools.Connection

/-! # The receive buffer of a connection

`Connection::readLoop` is called with a buffer of `bufSize` bytes and may fill all but the last.
The terminator is written at `bufptr[rcvd]` after `bufptr` has moved on by `rcvd`, so a chunk of
`r` bytes at offset `p` puts it at `p + 2 * r`.  `readLoop_touched_iff` says what this
leaves: the loop stays inside the buffer exactly when no chunk reaches that far. -/

namespace InverterTools.Server

/-- What `recv` promises: a call asked for `bufSize - 1 - pos` bytes stores at most these. -/
def RecvStep.Asked (s : RecvStep) : Prop := s.data.length ≤ bufSize - 1 - s.pos

/-- The chunk is one after which no terminator is written, or one whose terminator is inside. -/
def RecvStep.Fits (s : RecvStep) : Prop :=
  s.data.head? = some EOT ∨ s.pos + 2 * s.data.length ≤ bufSize - 1

instance (s : RecvStep) : Decidable s.Asked :=
  inferInstanceAs (Decidable (s.data.length ≤ bufSize - 1 - s.pos))

instance (s : RecvStep) : Decidable s.Fits :=
  inferInstanceAs (Decidable (s.data.head? = some EOT ∨ s.pos + 2 * s.data.length ≤ bufSize - 1))

theorem cstr_length_lt {mem : Bytes} (h : 0 ∈ mem) : (cstr mem).length < mem.length := by
  refine lt_of_le_of_ne (cstr_isPrefix mem).length_le fun heq => ?_
  rw [← (cstr_isPrefix mem).eq_of_length heq] at h
  exact zero_notMem_cstr mem h

/-- The search reads no further than the terminating NUL. -/
theorem scanned_le {needle mem : Bytes} {i : ℕ} (h : i ∈ scanned needle mem) :
    i ≤ (cstr mem).length := by
  unfold scanned at h
  cases hs : strstr needle (cstr mem) with
  | none =>
      simp only [hs, List.mem_range] at h
      omega
  | some k =>
      simp only [hs, List.mem_range] at h
      have := (strstr_some hs).2
      omega

theorem scanned_set_lt {mem : Bytes} {nul i : ℕ} (hn : nul < mem.length)
    (h : i ∈ scanned crlf (mem.set nul 0)) : i < mem.length := by
  have hmem : 0 ∈ mem.set nul 0 := List.mem_set hn 0
  have hlt := cstr_length_lt hmem
  have hle := scanned_le h
  rw [List.length_set] at hlt
  omega

/-- A loop with room left logs its first chunk in every branch, so it was asked for. -/
theorem asked_of_steps {c mem : Bytes} {rs : List Recv} {pos left : ℕ} {readed : ℤ}
    (hzero : left ≠ 0)
    (h : ∀ s ∈ (readLoop (.data c :: rs) mem pos left readed).steps, s.Asked) :
    RecvStep.Asked ⟨mem, pos, c⟩ := by
  rw [readLoop, if_neg hzero] at h
  apply h
  dsimp only
  split_ifs <;> simp

theorem readLoop_chunk {c mem : Bytes} (rs : List Recv) {pos left : ℕ} (readed : ℤ)
    (hzero : left ≠ 0) (hc : c ≠ []) (hroom : pos + c.length ≤ mem.length) :
    readLoop (.data c :: rs) mem pos left readed =
      let nul := pos + c.length + c.length
      let stored := List.range' pos c.length
      let mem' := (splice mem pos c).set nul 0
      let touched := stored ++ nul :: scanned crlf mem'
      if c.head? = some EOT then
        ⟨.ret (readed + c.length), splice mem pos c, stored, [⟨mem, pos, c⟩], rs⟩
      else if mem.length ≤ nul then
        ⟨.fault, splice mem pos c, stored ++ [nul], [⟨mem, pos, c⟩], rs⟩
      else if (strstr crlf (cstr mem')).isSome then
        ⟨.ret (readed + c.length), mem', touched, [⟨mem, pos, c⟩], rs⟩
      else
        let r := readLoop rs mem' (pos + c.length) (left - c.length) (readed + c.length)
        ⟨r.outcome, r.mem, touched ++ r.touched, ⟨mem, pos, c⟩ :: r.steps, r.unread⟩ := by
  rw [readLoop, if_neg hzero]
  dsimp only
  rw [if_neg hc, if_neg (not_lt.mpr hroom), splice_length hroom]

theorem readLoop_touched : ∀ {rs : List Recv} {mem : Bytes} {pos left : ℕ} {readed : ℤ},
    mem.length = bufSize → pos + left = bufSize - 1 →
    (∀ s ∈ (readLoop rs mem pos left readed).steps, s.Asked) →
    ((∀ i ∈ (readLoop rs mem pos left readed).touched, i < bufSize) ↔
      ∀ s ∈ (readLoop rs mem pos left readed).steps, s.Fits)
  | [], mem, pos, left, readed, _, _, _ => by simp [readLoop]
  | e :: rs, mem, pos, left, readed, hmem, hleft, hasked => by
      by_cases hzero : left = 0
      · simp [readLoop, hzero]
      cases e with
      | error => simp [readLoop, hzero]
      | data c =>
          by_cases hc : c = []
          · simp only [readLoop, hzero, hc, if_true, if_false, List.mem_singleton, forall_eq,
              RecvStep.Fits]
            simp only [List.not_mem_nil, false_imp_iff, implies_true, true_iff, List.length_nil]
            omega
          have hroom : pos + c.length ≤ bufSize - 1 := by
  -- the loop from offset `pos` on, by induction on the `recv` results
            have := asked_of_steps hzero hasked
            simp only [RecvStep.Asked] at this
            omega
          have hstored : ∀ i ∈ List.range' pos c.length, i < bufSize := fun i hi => by
            have := (List.mem_range'_1.mp hi).2
            omega
          have hlen : (splice mem pos c).length = bufSize := by
            rw [splice_length (by omega), hmem]
          rw [readLoop_chunk rs readed hzero hc (by omega), hmem] at hasked ⊢
          dsimp only at hasked ⊢
          by_cases heot : c.head? = some EOT
          · simp only [heot, if_true, List.mem_singleton, forall_eq, RecvStep.Fits, true_or,
              iff_true]
            exact hstored
          rw [if_neg heot] at hasked ⊢
          by_cases hnul : bufSize ≤ pos + c.length + c.length
          · -- the terminator is written outside
            simp only [hnul, if_true, List.mem_singleton, forall_eq]
            refine iff_of_false (fun h => ?_) (fun h => ?_)
            · have := h (pos + c.length + c.length) (by simp)
              omega
            · rcases h with h | h
              · exact heot h
              · simp only at h
                omega
          rw [if_neg hnul] at hasked ⊢
          have hfits : RecvStep.Fits ⟨mem, pos, c⟩ := .inr (by simp only; omega)
          have htouched : ∀ i ∈ List.range' pos c.length ++ (pos + c.length + c.length) ::
              scanned crlf ((splice mem pos c).set (pos + c.length + c.length) 0),
              i < bufSize := fun i hi => by
            rcases List.mem_append.mp hi with hi | hi
            · exact hstored i hi
            · rcases List.mem_cons.mp hi with rfl | hi
              · omega
              · exact hlen ▸ scanned_set_lt (by omega) hi
          split_ifs at hasked ⊢ with hfound
          · simp only [List.mem_singleton, forall_eq, iff_true_intro hfits, iff_true]
            exact htouched
          · simp only [List.forall_mem_cons, List.forall_mem_append] at hasked htouched ⊢
            have ih := readLoop_touched (by rw [List.length_set, hlen]) (by omega) hasked.2
            rw [ih]
            exact ⟨fun h => ⟨hfits, h.2⟩, fun h => ⟨htouched, h.2⟩⟩

/-- **The buffer of a request.**  For all results of `recv`, whatever the buffer held: every index
that `readLoop` writes or scans is inside the buffer of `Connection::run` if and only if every
chunk starts with `EOT` or leaves `p + 2 * r` inside. -/
theorem readLoop_touched_iff (mem : Bytes) (rs : List Recv) (hmem : mem.length = bufSize)
    (hasked : ∀ s ∈ (readLoop rs mem 0 (bufSize - 1) 0).steps, s.Asked) :
    (∀ i ∈ (readLoop rs mem 0 (bufSize - 1) 0).touched, i < bufSize) ↔
      ∀ s ∈ (readLoop rs mem 0 (bufSize - 1) 0).steps, s.Fits :=
  readLoop_touched hmem (by decide) hasked

/-- A first chunk of 1023 bytes. -/
theorem readLoop_touched_iff_chunk :
    (∀ i ∈ (readLoop [.data (List.replicate 1023 0x41)] (List.replicate bufSize 0) 0
      (bufSize - 1) 0).touched, i < bufSize) ↔
      ∀ s ∈ (readLoop [.data (List.replicate 1023 0x41)] (List.replicate bufSize 0) 0
        (bufSize - 1) 0).steps, s.Fits :=
  readLoop_touched_iff _ _ (by decide +kernel) (by decide +kernel)

/-- A first chunk of 1024 bytes puts its terminator right behind the buffer. -/
theorem readLoop_leaves_buffer : ¬ ∀ (mem : Bytes) (rs : List Recv), mem.length = bufSize →
    (∀ s ∈ (readLoop rs mem 0 (bufSize - 1) 0).steps, s.Asked) →
    ∀ i ∈ (readLoop rs mem 0 (bufSize - 1) 0).touched, i < bufSize := fun h =>
  absurd (h (List.replicate bufSize 0) [.data (List.replicate 1024 0x41)] (by decide +kernel)
    (by decide +kernel) 2048 (by decide +kernel)) (by decide)

end InverterTools.Server
