import InverterTools.ReadLoop
import InverterTools.Tokens

/-! # Segmentation of the request stream

A client sends lines, the network cuts the stream into chunks, and nothing is carried over from one
`readLoop` to the next.  `RecvStep.Clean` is the condition on one `recv` call under which this
does no harm.  `readLoop_line` follows the loop over one line and `run_lines` the connection over
the whole stream: when all steps are clean, the requests are the lines. -/

namespace InverterTools.Server

/-- A line of the protocol, without its CRLF. -/
structure RequestLine (line : Bytes) : Prop where
  no_NUL : 0 ∉ line
  no_crlf : ¬ crlf <:+: line
  length_le : line.length ≤ 2045

/-- The line closes the connection. -/
def closes (line : Bytes) : Bool := line.head? == some EOT

/-- The bytes collected for the current request once the chunk is in. -/
def RecvStep.got (s : RecvStep) : Bytes := s.mem.take s.pos ++ s.data

/-- The buffer with the chunk and the terminator `readLoop` writes after it. -/
def RecvStep.terminated (s : RecvStep) : Bytes :=
  (splice s.mem s.pos s.data).set (s.pos + s.data.length + s.data.length) 0

/-- The steps that do not reach the defect: the end of the stream; a request that starts with
`EOT`; a chunk that ends exactly at the end of the line; and a chunk inside a line that does not
start with `EOT` and behind which the search finds no CRLF in what the buffer held before.  The
last two leave the terminator inside the buffer. -/
def RecvStep.Clean (s : RecvStep) : Prop :=
  s.data = [] ∨ s.got.head? = some EOT ∨
    (crlf <:+ s.got ∧ ¬ crlf <:+: s.got.dropLast ∧ s.Fits) ∨
    (s.data.head? ≠ some EOT ∧ s.Fits ∧ ¬ crlf <:+: cstr s.terminated)

instance (s : RecvStep) : Decidable s.Clean :=
  inferInstanceAs (Decidable (s.data = [] ∨ s.got.head? = some EOT ∨
    (crlf <:+ s.got ∧ ¬ crlf <:+: s.got.dropLast ∧ s.Fits) ∨
    (s.data.head? ≠ some EOT ∧ s.Fits ∧ ¬ crlf <:+: cstr s.terminated)))

theorem crlf_infix_cstr {line : Bytes} (h : 0 ∉ line) (t : Bytes) :
    crlf <:+: cstr (line ++ crlf ++ t) := by
  have h0 : 0 ∉ line ++ crlf := by
    rw [List.mem_append, not_or]
    exact ⟨h, by decide⟩
  rw [cstr_append_of_notMem h0]
  exact ⟨line, cstr t, rfl⟩

theorem head?_append_crlf {line : Bytes} (h : closes line = false) (t : Bytes) :
    (line ++ crlf ++ t).head? ≠ some EOT := by
  cases line with
  | nil => exact fun h => absurd (Option.some.inj h) (by decide)
  | cons b line => simpa [closes] using h

theorem terminated_eq {mem got c : Bytes} (hgot : mem.take got.length = got)
    (hroom : got.length + c.length ≤ mem.length) :
    (RecvStep.terminated ⟨mem, got.length, c⟩).length = mem.length ∧
      ∃ t, RecvStep.terminated ⟨mem, got.length, c⟩ = got ++ c ++ t := by
  refine ⟨by rw [RecvStep.terminated, List.length_set, splice_length hroom],
    (mem.drop (got.length + c.length)).set c.length 0, ?_⟩
  simp only [RecvStep.terminated, splice, hgot]
  rw [List.set_append_right _ _ (by simp), List.length_append, Nat.add_sub_cancel_left]

/-! ### One line -/

/-- `readLoop` has returned the line and left the chunks of the rest of the stream. -/
structure LineRead (line more : Bytes) (tail : List Recv) (chunks : List Bytes) (r : ReadEnd) :
    Prop where
  outcome_eq : r.outcome = .ret (line.length + 2 : ℕ)
  mem_length : r.mem.length = bufSize
  mem_take : r.mem.take (line.length + 2) = line ++ crlf
  unread_eq : ∃ rest : List Bytes, r.unread = rest.map .data ++ tail ∧ rest.flatten = more ∧
    rest.length < chunks.length ∧ ∀ c ∈ rest, c ≠ []

/-- What a clean step does inside a line that does not close the connection: it completes the
line, or the search goes on. -/
theorem RecvStep.Clean.cases_of_line {line more c rest got mem : Bytes} (hl : RequestLine line)
    (hopen : closes line = false) (hgot : mem.take got.length = got) (hc : c ≠ [])
    (heq : got ++ c ++ rest = line ++ crlf ++ more)
    (h : RecvStep.Clean ⟨mem, got.length, c⟩) : RecvStep.Fits ⟨mem, got.length, c⟩ ∧
      (got ++ c = line ++ crlf ∧ rest = more ∨
        c.head? ≠ some EOT ∧ ¬ crlf <:+: cstr (RecvStep.terminated ⟨mem, got.length, c⟩)) := by
  simp only [RecvStep.Clean, RecvStep.got, hgot] at h
  rcases h with h | h | ⟨⟨l, hsplit⟩, hcr, hfits⟩ | ⟨hhead, hfits, hnone⟩
  · exact absurd h hc
  · refine absurd ?_ (head?_append_crlf hopen more)
    rw [← heq, List.head?_append, h]
    rfl
  · rw [← hsplit] at heq
    have hl' : l <:+: (got ++ c).dropLast := by
      rw [← hsplit]
      exact ⟨[], [CR], by simp [crlf, List.dropLast_append_of_ne_nil]⟩
    obtain rfl := append_crlf_inj hl.no_crlf (not_isInfix_of_isInfix hcr hl') heq
    exact ⟨hfits, .inl ⟨hsplit.symm, List.append_cancel_left heq⟩⟩
  · exact ⟨hfits, .inr ⟨hhead, hnone⟩⟩

/-- **`readLoop` over one line.**  From the bytes `got` of the line on, clean steps bring exactly
the rest of the line and leave the following chunks in the socket. -/
theorem readLoop_line {line more : Bytes} (hl : RequestLine line) (hopen : closes line = false)
    (tail : List Recv) : ∀ {chunks : List Bytes} {mem got : Bytes} {left : ℕ},
    mem.length = bufSize → got.length + left = bufSize - 1 → mem.take got.length = got →
    got.length < line.length + 2 → (∀ c ∈ chunks, c ≠ []) →
    got ++ chunks.flatten = line ++ crlf ++ more →
    (∀ s ∈ (readLoop (chunks.map .data ++ tail) mem got.length left got.length).steps, s.Asked) →
    (∀ s ∈ (readLoop (chunks.map .data ++ tail) mem got.length left got.length).steps, s.Clean) →
    LineRead line more tail chunks
      (readLoop (chunks.map .data ++ tail) mem got.length left got.length)
  | [], mem, got, left, _, _, _, hlt, _, heq, _, _ => by
      have := congrArg List.length heq
      simp only [List.flatten_nil, List.append_nil, List.length_append, List.length_cons,
        List.length_nil] at this
      omega
  | c :: chunks, mem, got, left, hmem, hleft, hgot, hlt, hne, heq, hasked, hclean => by
      have hlen := hl.length_le
      have hsize : bufSize = 2048 := rfl
      have hc := hne c List.mem_cons_self
      have hpos := List.length_pos_of_ne_nil hc
      rw [List.flatten_cons, ← List.append_assoc] at heq
      rw [List.map_cons, List.cons_append] at hasked hclean ⊢
      have hzero : left ≠ 0 := by omega
      have hroom : got.length + c.length ≤ bufSize - 1 := by
        have := asked_of_steps hzero hasked
        simp only [RecvStep.Asked] at this
        omega
      rw [readLoop_chunk _ _ hzero hc (by omega)] at hasked hclean ⊢
      dsimp only at hasked hclean ⊢
      obtain ⟨hfits, hcases⟩ := RecvStep.Clean.cases_of_line hl hopen hgot hc heq
        (hclean ⟨mem, got.length, c⟩ (by split_ifs <;> simp))
      obtain ⟨htlen, t, ht⟩ := terminated_eq (c := c) hgot (by omega)
      have htake : (splice mem got.length c).take (got.length + c.length) = got ++ c := by
        rw [splice_take (by omega), hgot]
      by_cases hhead : c.head? = some EOT
      · -- the chunk ends the loop, so it has to be the end of the line
        rcases hcases with ⟨hline, hrest⟩ | ⟨hhead', -⟩
        · have hll := congrArg List.length hline
          simp only [List.length_append, List.length_cons, List.length_nil] at hll
          simp only [hhead, if_true]
          refine ⟨?_, by rw [splice_length (by omega), hmem], ?_, chunks, rfl, hrest, by simp,
            fun d hd => hne d (List.mem_cons_of_mem _ hd)⟩
          · rw [show line.length + 2 = got.length + c.length by omega, Nat.cast_add]
          · rw [show line.length + 2 = got.length + c.length by omega, htake, hline]
        · exact absurd hhead hhead'
      · have hnul : ¬ mem.length ≤ got.length + c.length + c.length := by
          rcases hfits with h | h
          · exact absurd h hhead
          · simp only at h
            omega
        simp only [hhead, hnul, if_false] at hasked hclean ⊢
        have hterm : (splice mem got.length c).set (got.length + c.length + c.length) 0 =
            RecvStep.terminated ⟨mem, got.length, c⟩ := rfl
        rw [hterm] at hasked hclean ⊢
        rcases hcases with ⟨hline, hrest⟩ | ⟨-, hnone⟩
        · have hll := congrArg List.length hline
          simp only [List.length_append, List.length_cons, List.length_nil] at hll
          have hfound : (strstr crlf (cstr (RecvStep.terminated ⟨mem, got.length, c⟩))).isSome := by
            rw [strstr_isSome_iff, ht, hline]
            exact crlf_infix_cstr hl.no_NUL t
          simp only [hfound, if_true]
          refine ⟨?_, by rw [htlen, hmem], ?_, chunks, rfl, hrest, by simp,
            fun d hd => hne d (List.mem_cons_of_mem _ hd)⟩
          · rw [show line.length + 2 = got.length + c.length by omega, Nat.cast_add]
          · rw [ht, hline, show line.length + 2 = (line ++ crlf).length by simp, List.take_left]
        · have hfound :
              ¬ (strstr crlf (cstr (RecvStep.terminated ⟨mem, got.length, c⟩))).isSome := by
            rwa [strstr_isSome_iff]
          simp only [hfound] at hasked hclean ⊢
          have hcast : (got.length : ℤ) + c.length = ((got ++ c).length : ℕ) := by simp
          rw [hcast, ← List.length_append] at hasked hclean ⊢
          -- the line is not complete: a complete one would have been found
          have hlt' : (got ++ c).length < line.length + 2 := by
            by_contra hge
            obtain ⟨u, hu⟩ : line ++ crlf <+: got ++ c := by
              refine List.prefix_of_prefix_length_le ⟨more, rfl⟩ ⟨chunks.flatten, heq⟩ ?_
              simp only [List.length_append, List.length_cons, List.length_nil] at hge ⊢
              omega
            refine hnone ?_
            rw [ht, ← hu, List.append_assoc]
            exact crlf_infix_cstr hl.no_NUL (u ++ t)
          obtain ⟨h1, h2, h3, rest, h4, h5, h6, h7⟩ := readLoop_line hl hopen tail
            (by rw [htlen, hmem]) (by rw [List.length_append]; omega)
            (by rw [ht, List.take_left]) hlt' (fun d hd => hne d (List.mem_cons_of_mem _ hd)) heq
            (fun s hs => hasked s (List.mem_cons_of_mem _ hs))
            (fun s hs => hclean s (List.mem_cons_of_mem _ hs))
          exact ⟨h1, h2, h3, rest, h4, h5, by simp only [List.length_cons]; omega, h7⟩

/-! ### The connection -/

/-- A chunk that starts with `EOT` is all `readLoop` takes. -/
theorem readLoop_EOT {c mem : Bytes} (rs : List Recv) (hc : c.head? = some EOT)
    (hroom : c.length ≤ bufSize - 1) (hmem : mem.length = bufSize) :
    readLoop (.data c :: rs) mem 0 (bufSize - 1) 0 =
      ⟨.ret c.length, splice mem 0 c, List.range' 0 c.length, [⟨mem, 0, c⟩], rs⟩ := by
  have hne : c ≠ [] := by
    rintro rfl
    simp at hc
  have hsize : bufSize = 2048 := rfl
  rw [readLoop_chunk rs 0 (by omega) hne (by omega)]
  dsimp only
  rw [if_pos hc, zero_add]

/-- The terminator `Connection::run` writes behind the bytes received. -/
theorem set_terminator {mem s : Bytes} (hs : mem.take s.length = s) (hlt : s.length < mem.length) :
    ∃ t, mem.set s.length 0 = s ++ 0 :: t := by
  refine ⟨mem.drop (s.length + 1), ?_⟩
  rw [List.set_eq_take_append_cons_drop, if_pos hlt, hs]

theorem readLoop_steps_subset (respond : List Bytes → Outcome Exn Bool) (fuel : ℕ) (mem : Bytes)
    (rs : List Recv) (requests : List Bytes) :
    (readLoop rs mem 0 (bufSize - 1) 0).steps ⊆ (run respond (fuel + 1) mem rs requests).steps := by
  rw [run]
  dsimp only
  split
  · split_ifs
    · exact fun s hs => hs
    · exact fun s hs => hs
    · split <;> simp
  all_goals exact fun s hs => hs

theorem run_of_request {respond : List Bytes → Outcome Exn Bool}
    (hrespond : ∀ requests, respond requests = .ret true) {fuel : ℕ} {mem s t : Bytes}
    {rs : List Recv} {requests : List Bytes} (h0 : 0 ∉ s) (hne : s ≠ [])
    (hopen : (s ++ 0 :: t).head? ≠ some EOT)
    (hret : (readLoop rs mem 0 (bufSize - 1) 0).outcome = .ret s.length)
    (hmem : (readLoop rs mem 0 (bufSize - 1) 0).mem.set s.length 0 = s ++ 0 :: t) :
    run respond (fuel + 1) mem rs requests =
      let r := readLoop rs mem 0 (bufSize - 1) 0
      let next := run respond fuel (splice (s ++ 0 :: t) 0 (tokenise s).text) r.unread
        (requests ++ [s])
      ⟨next.outcome, next.requests, r.steps ++ next.steps⟩ := by
  have hpos := List.length_pos_of_ne_nil hne
  rw [run]
  simp only [hret]
  rw [if_neg (by omega), Int.toNat_natCast, hmem, if_neg hopen, cstr_append_zero h0, hrespond]

theorem head?_of_closes {c line rest more : Bytes} (hclose : closes line = true) (hc : c ≠ [])
    (h : c ++ rest = line ++ crlf ++ more) : c.head? = some EOT := by
  obtain ⟨b, c, rfl⟩ := List.exists_cons_of_ne_nil hc
  cases line with
  | nil => simp [closes] at hclose
  | cons d line =>
      simp only [List.cons_append, List.cons.injEq] at h
      simpa [closes, h.1] using hclose

theorem run_of_EOT {respond : List Bytes → Outcome Exn Bool} {fuel : ℕ} {c mem : Bytes}
    {rs : List Recv} {requests : List Bytes} (hhead : c.head? = some EOT)
    (hroom : c.length ≤ bufSize - 1) (hmem : mem.length = bufSize) :
    (run respond (fuel + 1) mem (.data c :: rs) requests).outcome = .ret () ∧
      (run respond (fuel + 1) mem (.data c :: rs) requests).requests = requests := by
  obtain ⟨b, c, rfl⟩ := List.exists_cons_of_ne_nil (l := c) (by
    rintro rfl
    simp at hhead)
  have hhead' : ((splice mem 0 (b :: c)).set (b :: c).length 0).head? = some EOT := by
    simpa [splice] using hhead
  have hpos : 0 < (b :: c).length := Nat.succ_pos _
  rw [run, readLoop_EOT _ hhead hroom hmem]
  dsimp only
  rw [if_neg (by omega), Int.toNat_natCast, if_pos hhead']
  exact ⟨rfl, rfl⟩

/-- **A connection whose steps are all clean.**  By induction on the lines: the requests are the
lines up to the first that starts with `EOT`. -/
theorem run_lines {respond : List Bytes → Outcome Exn Bool}
    (hrespond : ∀ requests, respond requests = .ret true) {lines chunks : List Bytes} {fuel : ℕ}
    {mem : Bytes} {requests : List Bytes} (hlines : ∀ l ∈ lines, RequestLine l)
    (hne : ∀ c ∈ chunks, c ≠ []) (hstream : chunks.flatten = (lines.map (· ++ crlf)).flatten)
    (hfuel : chunks.length < fuel) (hmem : mem.length = bufSize)
    (hasked : ∀ s ∈ (run respond fuel mem (chunks.map Recv.data ++ [Recv.data []]) requests).steps,
      s.Asked)
    (hclean : ∀ s ∈ (run respond fuel mem (chunks.map Recv.data ++ [Recv.data []]) requests).steps,
      s.Clean) :
    (run respond fuel mem (chunks.map Recv.data ++ [Recv.data []]) requests).outcome = .ret () ∧
      (run respond fuel mem (chunks.map Recv.data ++ [Recv.data []]) requests).requests =
        requests ++ (lines.takeWhile (! closes ·)).map (· ++ crlf) := by
  have hsize : bufSize = 2048 := rfl
  induction lines generalizing chunks fuel mem requests with
  | nil =>
      obtain ⟨fuel, rfl⟩ := Nat.exists_eq_succ_of_ne_zero (Nat.ne_zero_of_lt hfuel)
      obtain rfl : chunks = [] := by
        cases chunks with
        | nil => rfl
        | cons c cs =>
            have : c = [] := by
              simp only [List.map_nil, List.flatten_nil, List.flatten_cons,
                List.append_eq_nil_iff] at hstream
              exact hstream.1
            exact absurd this (hne c List.mem_cons_self)
      simp [run, readLoop, bufSize]
  | cons line lines ih =>
      obtain ⟨fuel, rfl⟩ := Nat.exists_eq_succ_of_ne_zero (Nat.ne_zero_of_lt hfuel)
      have hl := hlines line List.mem_cons_self
      have hlen := hl.length_le
      rw [List.map_cons, List.flatten_cons] at hstream
      cases hopen : closes line with
      | true =>
          rw [List.takeWhile_cons_of_neg (by simp [hopen]), List.map_nil, List.append_nil]
          cases chunks with
          | nil => simp at hstream
          | cons c chunks =>
              have hhead := head?_of_closes hopen (hne c List.mem_cons_self) hstream
              have hsub := readLoop_steps_subset respond fuel mem
                ((c :: chunks).map .data ++ [.data []]) requests
              have hroom : c.length ≤ bufSize - 1 := by
                have hstep : RecvStep.Asked ⟨mem, 0, c⟩ :=
                  asked_of_steps (by omega) fun s hs => hasked s (hsub hs)
                simpa [RecvStep.Asked] using hstep
              exact run_of_EOT hhead hroom hmem
      | false =>
          have hsub := readLoop_steps_subset respond fuel mem
            (chunks.map .data ++ [.data []]) requests
          obtain ⟨h1, h2, h3, rest, h4, h5, h6, h7⟩ :=
            @readLoop_line _ _ hl hopen [.data []] chunks _ [] (bufSize - 1) hmem (by simp) rfl
            (by simp) hne hstream
            (fun s hs => hasked s (hsub hs)) (fun s hs => hclean s (hsub hs))
          simp only [List.length_nil, Nat.cast_zero] at h1 h2 h3 h4
          rw [show line.length + 2 = (line ++ crlf).length by simp] at h1 h3
          obtain ⟨t, ht⟩ := set_terminator h3 (by rw [h2, List.length_append]; simp; omega)
          have h0 : 0 ∉ line ++ crlf := by
            rw [List.mem_append, not_or]
            exact ⟨hl.no_NUL, by decide⟩
          have hround := @run_of_request _ hrespond fuel _ _ _ _ requests h0
            (by simp) (head?_append_crlf hopen (0 :: t)) h1 ht
          have hlen' : (splice (line ++ crlf ++ 0 :: t) 0 (tokenise (line ++ crlf)).text).length =
              bufSize := by
            have hfit : 0 + (tokenise (line ++ crlf)).text.length ≤
                (line ++ crlf ++ 0 :: t).length := by
              rw [tokenise_length, Nat.zero_add]
              exact (List.prefix_append _ _).length_le
            rw [splice_length hfit, ← ht, List.length_set, h2]
          rw [hround] at hasked hclean ⊢
          simp only [h4] at hasked hclean ⊢
          obtain ⟨ih1, ih2⟩ := @ih rest fuel _ (requests ++ [line ++ crlf])
            (fun l h => hlines l (List.mem_cons_of_mem _ h)) h7 h5 (by omega) hlen'
            (fun s hs => hasked s (List.mem_append_right _ hs))
            (fun s hs => hclean s (List.mem_append_right _ hs))
          refine ⟨ih1, ?_⟩
          rw [ih2, List.takeWhile_cons_of_pos (by simp [hopen])]
          simp

/-- **The requests are the lines.**  A client sends lines, each with its CRLF, in any chunks, and
closes.  If every `recv` call is clean, the connection hands exactly the lines up to the first that
starts with `EOT` to `processRequest`, one by one, and what `processRequest` makes of each are the
words of that line.  So two such segmentations give the same requests. -/
theorem run_requests {respond : List Bytes → Outcome Exn Bool}
    (hrespond : ∀ requests, respond requests = .ret true) (lines chunks : List Bytes) (mem : Bytes)
    (hlines : ∀ l ∈ lines, RequestLine l) (hne : ∀ c ∈ chunks, c ≠ [])
    (hstream : chunks.flatten = (lines.map (· ++ crlf)).flatten) (hmem : mem.length = bufSize)
    (r : RunEnd)
    (hr : r = run respond (chunks.length + 1) mem (chunks.map .data ++ [.data []]) [])
    (hasked : ∀ s ∈ r.steps, s.Asked) (hclean : ∀ s ∈ r.steps, s.Clean) :
    r.outcome = .ret () ∧ r.requests = (lines.takeWhile (! closes ·)).map (· ++ crlf) ∧
      r.requests.map (fun s => (tokenise s).result) =
        (lines.takeWhile (! closes ·)).map lineRequest := by
  subst hr
  obtain ⟨h1, h2⟩ := run_lines hrespond hlines hne hstream (Nat.lt_succ_self _) hmem hasked hclean
  rw [List.nil_append] at h2
  refine ⟨h1, h2, ?_⟩
  rw [h2, List.map_map]
  refine List.map_congr_left fun l hl => ?_
  exact tokenise_line (hlines l (List.takeWhile_prefix _ |>.subset hl)).no_crlf

/-- Two lines in three chunks: the first is cut, the second closes the connection. -/
theorem run_requests_cut_line :
    (run (fun _ => .ret true) 4 (List.replicate bufSize 0)
      ([ascii "v", ascii " 1" ++ crlf, [EOT, CR, LF]].map .data ++ [.data []]) []).requests =
        [ascii "v 1" ++ crlf] :=
  (run_requests (fun _ => rfl) [ascii "v 1", [EOT]] [ascii "v", ascii " 1" ++ crlf, [EOT, CR, LF]]
    (List.replicate bufSize 0)
    (by
      simp only [List.mem_cons, List.not_mem_nil, or_false, forall_eq_or_imp, forall_eq]
      exact ⟨⟨by decide, by decide, by decide⟩, ⟨by decide, by decide, by decide⟩⟩)
    (by decide) (by decide) (by decide +kernel) _ rfl (by decide +kernel)
    (by decide +kernel)).2.1

/-- Two lines in one chunk are handled as one request. -/
theorem run_merges_lines : ¬ ∀ (lines chunks : List Bytes) (mem : Bytes) (r : RunEnd),
    (∀ l ∈ lines, RequestLine l) → (∀ c ∈ chunks, c ≠ []) →
    chunks.flatten = (lines.map (· ++ crlf)).flatten → mem.length = bufSize →
    r = run (fun _ => .ret true) (chunks.length + 1) mem (chunks.map .data ++ [.data []]) [] →
    (∀ s ∈ r.steps, s.Asked) →
    r.requests.map (fun s => (tokenise s).result) =
      (lines.takeWhile (! closes ·)).map lineRequest := fun h => by
  have := h [ascii "v 1", ascii "format json"] [ascii "v 1" ++ crlf ++ ascii "format json" ++ crlf]
    (List.replicate bufSize 0) _
    (by
      simp only [List.mem_cons, List.not_mem_nil, or_false, forall_eq_or_imp, forall_eq]
      exact ⟨⟨by decide, by decide, by decide⟩, ⟨by decide, by decide, by decide⟩⟩)
    (by decide) (by decide) (by decide +kernel) rfl (by decide +kernel)
  exact absurd (congrArg List.length this) (by decide +kernel)

end InverterTools.Server
