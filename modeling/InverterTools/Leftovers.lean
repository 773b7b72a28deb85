import InverterTools.Segments

/-! # Old bytes in the receive buffer

`receivedEnd` says how a request ends from the bytes received for it alone.  `readLoop` agrees
with it (`readLoop_decided_iff`) unless the terminator falls outside the buffer or the search,
which runs on to the terminator, completes a CRLF with bytes that were in the buffer before. -/

namespace InverterTools.Server

/-- The bytes that `recv` delivered. -/
def Recv.bytes : Recv → Bytes
  | .data c => c
  | .error => []

/-- How a request ends, from the bytes `got` of it and the results of `recv` still to come: the
value returned and the results that are not asked for. -/
def receivedEnd : List Recv → Bytes → ℕ → Outcome Exn ℤ × List Recv
  | rs, got, 0 => (.ret got.length, rs)
  | [], _, _ + 1 => (.pending, [])
  | .error :: rs, _, _ + 1 => (.ret (-1), rs)
  | .data c :: rs, got, left + 1 =>
      if c = [] then (.ret got.length, rs)
      else if c.head? = some EOT ∨ crlf <:+: cstr (got ++ c) then (.ret (got ++ c).length, rs)
      else receivedEnd rs (got ++ c) (left + 1 - c.length)

/-- What a request may end with: a failed `recv`, the end of the stream, a chunk that starts with
`EOT`, bytes with a CRLF among them, or a full buffer. -/
def EndsRequest (size : ℕ) (got : Bytes) (used : List Recv) : Prop :=
  used.getLast? = some .error ∨ used.getLast? = some (.data []) ∨
    (∃ c, used.getLast? = some (.data c) ∧ c.head? = some EOT) ∨
    crlf <:+: got ++ (used.map Recv.bytes).flatten ∨
    size ≤ (got ++ (used.map Recv.bytes).flatten).length

/-- The old bytes that the search reads behind the received ones: as many as the chunk has, up to
a NUL. -/
def RecvStep.stale (s : RecvStep) : Bytes :=
  cstr ((s.mem.drop (s.pos + s.data.length)).take s.data.length)

/-- The steps that do not reach the defect: the end of the stream; a chunk that starts with `EOT`;
and a chunk whose terminator is inside the buffer and behind which the old bytes complete no
CRLF. -/
def RecvStep.Undisturbed (s : RecvStep) : Prop :=
  s.data = [] ∨ s.data.head? = some EOT ∨
    (s.Fits ∧ (crlf <:+: cstr s.got ∨ 0 ∈ s.got ∨ ¬ crlf <:+: s.got ++ s.stale))

instance (s : RecvStep) : Decidable s.Undisturbed :=
  inferInstanceAs (Decidable (s.data = [] ∨ s.data.head? = some EOT ∨
    (s.Fits ∧ (crlf <:+: cstr s.got ∨ 0 ∈ s.got ∨ ¬ crlf <:+: s.got ++ s.stale))))

/-! ### The end of a request -/

/-- A request that is not at its end takes at least one more result of `recv`. -/
theorem receivedEnd_unread : ∀ (rs : List Recv) (got : Bytes) (left : ℕ),
    (receivedEnd rs got left).2 <:+ rs ∧ (left ≠ 0 → (receivedEnd rs got left).2 <:+ rs.tail)
  | rs, got, 0 => by simp [receivedEnd]
  | [], got, left + 1 => by simp [receivedEnd]
  | .error :: rs, got, left + 1 => by simp [receivedEnd]
  | .data c :: rs, got, left + 1 => by
      rw [receivedEnd]
      split_ifs
      · simp
      · simp
      · have h := (receivedEnd_unread rs (got ++ c) (left + 1 - c.length)).1
        exact ⟨h.trans (List.suffix_cons _ _), fun _ => h⟩

theorem receivedEnd_ne {rs : List Recv} {got : Bytes} {left : ℕ} {v : ℤ} (h : left ≠ 0) :
    receivedEnd rs got left ≠ (.ret v, rs) := by
  intro heq
  cases rs with
  | nil =>
      obtain ⟨k, rfl⟩ := Nat.exists_eq_succ_of_ne_zero h
      rw [receivedEnd] at heq
      cases heq
  | cons e rs =>
      have hlen := ((receivedEnd_unread (e :: rs) got left).2 h).length_le
      rw [heq, List.length_cons, List.tail_cons] at hlen
      omega

theorem receivedEnd_ne_fault : ∀ (rs : List Recv) (got : Bytes) (left : ℕ),
    (receivedEnd rs got left).1 ≠ .fault
  | rs, got, 0 => by simp [receivedEnd]
  | [], got, left + 1 => by simp [receivedEnd]
  | .error :: rs, got, left + 1 => by simp [receivedEnd]
  | .data c :: rs, got, left + 1 => by
      rw [receivedEnd]
      split_ifs
      · simp
      · simp
      · exact receivedEnd_ne_fault rs _ _

theorem EndsRequest.cons {size size' : ℕ} {got c : Bytes} {used : List Recv} (hsize : size' ≤ size)
    (h : EndsRequest size (got ++ c) used) : EndsRequest size' got (.data c :: used) := by
  have hlast : ∀ {e : Recv}, used.getLast? = some e →
      (Recv.data c :: used).getLast? = some e := fun h => by
    rw [List.getLast?_cons, h]
    rfl
  have hbytes : got ++ ((Recv.data c :: used).map Recv.bytes).flatten =
      got ++ c ++ (used.map Recv.bytes).flatten := by
    rw [List.map_cons, List.flatten_cons, Recv.bytes, List.append_assoc]
  unfold EndsRequest at h ⊢
  rw [hbytes]
  rcases h with h | h | ⟨d, h, hd⟩ | h | h
  · exact .inl (hlast h)
  · exact .inr (.inl (hlast h))
  · exact .inr (.inr (.inl ⟨d, hlast h, hd⟩))
  · exact .inr (.inr (.inr (.inl h)))
  · exact .inr (.inr (.inr (.inr (hsize.trans h))))

theorem receivedEnd_ends : ∀ {rs : List Recv} {got : Bytes} {left : ℕ} {v : ℤ},
    (receivedEnd rs got left).1 = .ret v →
    ∃ used, rs = used ++ (receivedEnd rs got left).2 ∧ EndsRequest (got.length + left) got used
  | rs, got, 0, v, h => by
      rw [receivedEnd]
      exact ⟨[], rfl, .inr (.inr (.inr (.inr (by simp))))⟩
  | [], got, left + 1, v, h => by simp [receivedEnd] at h
  | .error :: rs, got, left + 1, v, h => by
      rw [receivedEnd]
      exact ⟨[.error], rfl, .inl rfl⟩
  | .data c :: rs, got, left + 1, v, h => by
      rw [receivedEnd] at h ⊢
      by_cases hc : c = []
      · rw [if_pos hc]
        exact ⟨[.data c], rfl, .inr (.inl (by rw [hc]; rfl))⟩
      rw [if_neg hc] at h ⊢
      by_cases hend : c.head? = some EOT ∨ crlf <:+: cstr (got ++ c)
      · rw [if_pos hend]
        refine ⟨[.data c], rfl, ?_⟩
        rcases hend with heot | hcr
        · exact .inr (.inr (.inl ⟨c, rfl, heot⟩))
        · have hgot : crlf <:+: got ++ c := hcr.trans (cstr_isPrefix _).isInfix
          exact .inr (.inr (.inr (.inl (by simpa [Recv.bytes] using hgot))))
      rw [if_neg hend] at h ⊢
      obtain ⟨used, hused, hends⟩ := receivedEnd_ends h
      refine ⟨.data c :: used, by rw [List.cons_append, ← hused], hends.cons ?_⟩
      rw [List.length_append]
      omega

/-! ### The loop -/

/-- The text that is searched: the received bytes, and old ones unless a NUL was received. -/
theorem cstr_terminated {mem got c : Bytes} (hgot : mem.take got.length = got)
    (hroom : got.length + c.length + c.length < mem.length) :
    cstr (RecvStep.terminated ⟨mem, got.length, c⟩) =
      if 0 ∈ got ++ c then cstr (got ++ c)
      else got ++ c ++ RecvStep.stale ⟨mem, got.length, c⟩ := by
  set tail := mem.drop (got.length + c.length) with htail
  have hlen : c.length < tail.length := by
    rw [htail, List.length_drop]
    omega
  have hsplit : RecvStep.terminated ⟨mem, got.length, c⟩ =
      got ++ c ++ (tail.take c.length ++ 0 :: tail.drop (c.length + 1)) := by
    simp only [RecvStep.terminated, splice, hgot]
    rw [List.set_append_right _ _ (by simp), List.length_append, Nat.add_sub_cancel_left,
      List.set_eq_take_append_cons_drop, if_pos hlen]
  rw [hsplit]
  split_ifs with h0
  · exact cstr_append_of_mem h0
  · rw [cstr_append_of_notMem h0, cstr_append_cons_zero]
    rfl

/-- An undisturbed chunk is one for which the search finds what is in the received bytes. -/
theorem found_iff {mem got c : Bytes} (hgot : mem.take got.length = got)
    (hroom : got.length + c.length + c.length < mem.length)
    (hsame : crlf <:+: cstr (got ++ c) ∨ 0 ∈ got ++ c ∨
      ¬ crlf <:+: got ++ c ++ RecvStep.stale ⟨mem, got.length, c⟩) :
    crlf <:+: cstr (RecvStep.terminated ⟨mem, got.length, c⟩) ↔ crlf <:+: cstr (got ++ c) := by
  rw [cstr_terminated hgot hroom]
  split_ifs with h0
  · exact Iff.rfl
  rw [cstr_of_notMem h0] at hsame ⊢
  rcases hsame with h | h | h
  · exact iff_of_true (h.trans List.infix_append_left) h
  · exact absurd h h0
  · exact iff_of_false h fun hc => h (hc.trans List.infix_append_left)

/-- Otherwise it finds a CRLF that was not received. -/
theorem found_stale {mem got c : Bytes} (hgot : mem.take got.length = got)
    (hroom : got.length + c.length + c.length < mem.length)
    (hdiff : ¬ (crlf <:+: cstr (got ++ c) ∨ 0 ∈ got ++ c ∨
      ¬ crlf <:+: got ++ c ++ RecvStep.stale ⟨mem, got.length, c⟩)) :
    crlf <:+: cstr (RecvStep.terminated ⟨mem, got.length, c⟩) := by
  rw [not_or, not_or, not_not] at hdiff
  rw [cstr_terminated hgot hroom, if_neg hdiff.2.1]
  exact hdiff.2.2

theorem readLoop_received : ∀ {rs : List Recv} {mem got : Bytes} {left : ℕ},
    mem.length = bufSize → got.length + left = bufSize - 1 → mem.take got.length = got →
    (∀ s ∈ (readLoop rs mem got.length left got.length).steps, s.Asked) →
    (((readLoop rs mem got.length left got.length).outcome,
        (readLoop rs mem got.length left got.length).unread) = receivedEnd rs got left ↔
      ∀ s ∈ (readLoop rs mem got.length left got.length).steps, s.Undisturbed)
  | [], mem, got, left, _, _, _, _ => by
      cases left <;> simp [readLoop, receivedEnd]
  | e :: rs, mem, got, 0, _, _, _, _ => by
      simp [readLoop, receivedEnd]
  | .error :: rs, mem, got, left + 1, _, _, _, _ => by
      simp [readLoop, receivedEnd]
  | .data c :: rs, mem, got, left + 1, hmem, hleft, hgot, hasked => by
      by_cases hc : c = []
      · simp [readLoop, receivedEnd, hc, RecvStep.Undisturbed]
      have hpos := List.length_pos_of_ne_nil hc
      have hsize : bufSize = 2048 := rfl
      have hroom : got.length + c.length ≤ bufSize - 1 := by
  -- the loop from the bytes `got` on, by induction on the results of `recv`
        have := asked_of_steps (Nat.succ_ne_zero left) hasked
        simp only [RecvStep.Asked] at this
        omega
      have hcast : (got.length : ℤ) + c.length = ((got ++ c).length : ℕ) := by
        rw [List.length_append, Nat.cast_add]
      rw [readLoop_chunk rs _ (Nat.succ_ne_zero left) hc (by omega), hcast] at hasked ⊢
      rw [receivedEnd, if_neg hc]
      dsimp only at hasked ⊢
      by_cases heot : c.head? = some EOT
      · simp [heot, RecvStep.Undisturbed]
      simp only [heot, if_false, false_or] at hasked ⊢
      have hgot' : (mem.take got.length ++ c) = got ++ c := by rw [hgot]
      have hiff : RecvStep.Undisturbed ⟨mem, got.length, c⟩ ↔
          RecvStep.Fits ⟨mem, got.length, c⟩ ∧ (crlf <:+: cstr (got ++ c) ∨ 0 ∈ got ++ c ∨
            ¬ crlf <:+: got ++ c ++ RecvStep.stale ⟨mem, got.length, c⟩) := by
        simp only [RecvStep.Undisturbed, RecvStep.got, hc, heot, false_or, hgot]
      by_cases hnul : mem.length ≤ got.length + c.length + c.length
      · -- the terminator is written outside, and what follows is undefined
        rw [if_pos hnul]
        refine iff_of_false (fun heq => ?_) fun h => ?_
        · have hfault := congrArg Prod.fst heq
          split_ifs at hfault
          exact receivedEnd_ne_fault _ _ _ hfault.symm
        · rcases (hiff.mp (h _ List.mem_cons_self)).1 with h | h
          · exact heot h
          · simp only at h
            omega
      rw [if_neg hnul] at hasked ⊢
      have hfits : RecvStep.Fits ⟨mem, got.length, c⟩ := .inr (by simp only; omega)
      have hterm : (splice mem got.length c).set (got.length + c.length + c.length) 0 =
          RecvStep.terminated ⟨mem, got.length, c⟩ := rfl
      simp only [hterm, strstr_isSome_iff] at hasked ⊢
      by_cases hsame : crlf <:+: cstr (got ++ c) ∨ 0 ∈ got ++ c ∨
          ¬ crlf <:+: got ++ c ++ RecvStep.stale ⟨mem, got.length, c⟩
      · simp only [found_iff hgot (not_le.mp hnul) hsame] at hasked ⊢
        have hstep : RecvStep.Undisturbed ⟨mem, got.length, c⟩ := hiff.mpr ⟨hfits, hsame⟩
        by_cases hcr : crlf <:+: cstr (got ++ c)
        · simp only [hcr, if_true, List.forall_mem_singleton, hstep]
        · simp only [hcr, if_false, List.forall_mem_cons, hstep, true_and] at hasked ⊢
          obtain ⟨htlen, t, ht⟩ := terminated_eq (c := c) hgot (by omega)
          rw [← List.length_append] at hasked ⊢
          exact readLoop_received (by rw [htlen, hmem]) (by rw [List.length_append]; omega)
            (by rw [ht, List.take_left]) hasked.2
      · -- the search finds a CRLF that was not received
        have hcr : ¬ crlf <:+: cstr (got ++ c) := fun h => hsame (.inl h)
        simp only [found_stale hgot (not_le.mp hnul) hsame, hcr, if_true, if_false]
        refine iff_of_false (fun heq => ?_) fun h => ?_
        · exact receivedEnd_ne (by omega) heq.symm
        · exact hsame (hiff.mp (h _ List.mem_cons_self)).2

/-- What the loop returns, and after which chunk, is decided by the bytes that were received; and it
returns only for a reason among them. -/
structure DecidedByReceived (rs : List Recv) (r : ReadEnd) : Prop where
  end_eq : (r.outcome, r.unread) = receivedEnd rs [] (bufSize - 1)
  ends : ∀ v, r.outcome = .ret v →
    ∃ used, rs = used ++ r.unread ∧ EndsRequest (bufSize - 1) [] used

/-- **Old bytes never influence a request** exactly when, at every chunk, the terminator is inside
the buffer and the old bytes in front of it complete no CRLF. -/
theorem readLoop_decided_iff (mem : Bytes) (rs : List Recv) (hmem : mem.length = bufSize)
    (hasked : ∀ s ∈ (readLoop rs mem 0 (bufSize - 1) 0).steps, s.Asked) :
    DecidedByReceived rs (readLoop rs mem 0 (bufSize - 1) 0) ↔
      ∀ s ∈ (readLoop rs mem 0 (bufSize - 1) 0).steps, s.Undisturbed := by
  have hiff := @readLoop_received rs mem [] (bufSize - 1) hmem (Nat.zero_add _) rfl hasked
  refine Iff.trans ⟨fun h => h.end_eq, fun h => ⟨h, fun v hv => ?_⟩⟩ hiff
  have hv' : (receivedEnd rs [] (bufSize - 1)).1 = .ret v := (congrArg Prod.fst h).symm.trans hv
  obtain ⟨used, hused, hends⟩ := receivedEnd_ends hv'
  refine ⟨used, ?_, ?_⟩
  · rw [← congrArg Prod.snd h] at hused
    exact hused
  · rwa [List.length_nil, Nat.zero_add] at hends

/-- A line in two chunks, in a buffer of zeros. -/
theorem readLoop_decided_two_chunks :
    DecidedByReceived [.data (ascii "v"), .data (ascii " 1" ++ crlf)]
        (readLoop [.data (ascii "v"), .data (ascii " 1" ++ crlf)] (List.replicate bufSize 0) 0
          (bufSize - 1) 0) ↔
      ∀ s ∈ (readLoop [.data (ascii "v"), .data (ascii " 1" ++ crlf)] (List.replicate bufSize 0) 0
        (bufSize - 1) 0).steps, s.Undisturbed :=
  readLoop_decided_iff _ _ (by decide +kernel) (by decide +kernel)

/-- The first three bytes of a request, in front of a CRLF that the buffer held: they are returned
as a request. -/
theorem readLoop_disturbed : ¬ ∀ (mem : Bytes) (rs : List Recv), mem.length = bufSize →
    (∀ s ∈ (readLoop rs mem 0 (bufSize - 1) 0).steps, s.Asked) →
    DecidedByReceived rs (readLoop rs mem 0 (bufSize - 1) 0) := by
  intro h
  have hend := (h (ascii "raw" ++ crlf ++ List.replicate 2043 0) [.data (ascii "exe")]
    (by decide +kernel) (by decide +kernel)).end_eq
  have hpending : receivedEnd [.data (ascii "exe")] [] (bufSize - 1) = (.pending, []) := by
    decide
  have hret : (readLoop [.data (ascii "exe")] (ascii "raw" ++ crlf ++ List.replicate 2043 0) 0
      (bufSize - 1) 0).outcome ≠ .pending := by
    decide +kernel
  rw [hpending] at hend
  exact hret (Prod.mk.inj hend).1

end InverterTools.Server
