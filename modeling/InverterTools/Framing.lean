import InverterTools.Device

/-! # Framing on the device link

`Device::recv` undoes `Device::send`.  The loop of `readLoop` is followed with one invariant,
`Filled`: the buffer starts with the bytes received so far, none of them a carriage return, and
the moving pointer, the remaining size and the count agree with their number.  `readLoop_ret`
reads a normal return backwards, `readLoop_delivered` runs the loop forwards over any chunking;
with the checksum facts they give `recv_inverts_send`. -/

namespace InverterTools.Voltronic

/-- The bytes of a stream up to and including its first carriage return. -/
def throughCR (s : Bytes) : Bytes := s.takeWhile (· != CR) ++ [CR]

theorem throughCR_append {body t : Bytes} (h : CR ∉ body) :
    throughCR (body ++ CR :: t) = body ++ [CR] := by
  have hb : ∀ b ∈ body, (b != CR) = true := fun b hb => by
    rw [bne_iff_ne]
    rintro rfl
    exact h hb
  rw [throughCR, List.takeWhile_append_of_pos hb]
  simp

theorem CR_notMem_of_throughCR {s body : Bytes} (h : throughCR s = body ++ [CR]) : CR ∉ body := by
  rw [throughCR, List.append_left_inj] at h
  rw [← h]
  intro hmem
  have := List.mem_takeWhile_imp hmem
  simp at this

theorem exists_eq_append_CR {s : Bytes} (h : CR ∈ s) :
    ∃ body t, s = body ++ CR :: t ∧ CR ∉ body := by
  obtain ⟨body, t, rfl, hb⟩ := List.eq_append_cons_of_mem h
  exact ⟨body, t, rfl, hb⟩

theorem exists_frame_eq {flags : Flags} {p : Bytes} (hp : CR ∉ p) :
    ∃ body, Device.frame flags p = body ++ [CR] ∧ CR ∉ body := by
  unfold Device.frame
  split_ifs
  · refine ⟨p ++ crcWrite (crcCalculate p), rfl, ?_⟩
    rw [List.mem_append, not_or]
    exact ⟨hp, CR_notMem_crcWrite p⟩
  · exact ⟨p, rfl, hp⟩

namespace Device

variable (dev : Device) (started : UInt64)

/-- What a driver may do with a buffer of `left` bytes: each read returns the number of bytes it
stored, at most as many as there is room for, or it throws. -/
def Delivers : ℕ → List ReadEvent → Prop
  | _, [] => True
  | left, e :: es =>
      (∃ x, dev.driver.read e.code = .error x) ∨
        (dev.driver.read e.code = .ok e.data.length ∧ e.data.length ≤ left ∧
          Delivers (left - e.data.length) es)

/-- The bytes a list of reads has stored. -/
def delivered (es : List ReadEvent) : Bytes := es.flatMap ReadEvent.data

/-- The variables of `readLoop` in a buffer of `cap` bytes after the bytes `got`. -/
structure Filled (cap : ℕ) (got : Bytes) (s : ReadState) : Prop where
  cap_eq : s.mem.length = cap
  pos_eq : s.pos = got.length
  left_eq : s.left = cap - got.length
  size_eq : s.size = got.length
  got_le : got.length ≤ cap
  take_eq : s.mem.take got.length = got
  no_CR : CR ∉ got

/-! ### The inner loop -/

theorem scanBytes_eq : ∀ (n : ℕ) (s : ReadState), s.pos + n ≤ s.mem.length →
    scanBytes n s =
      let window := (s.mem.drop s.pos).take n
      if CR ∈ window then .found (s.size + (window.takeWhile (· != CR)).length + 1)
      else .more ⟨s.mem, s.pos + n, s.left - n, s.size + n⟩
  | 0, s, _ => by simp [scanBytes]
  | n + 1, s, h => by
      have hpos : s.pos < s.mem.length := by omega
      have hdrop := List.drop_eq_getElem_cons hpos
      rw [scanBytes, List.getElem?_eq_getElem hpos]
      simp only [hdrop, List.take_succ_cons]
      by_cases hb : s.mem[s.pos] = CR
      · simp [hb]
      · have hne : (s.mem[s.pos] != CR) = true := bne_iff_ne.mpr hb
        have hmem : CR ∈ s.mem[s.pos] :: (s.mem.drop (s.pos + 1)).take n ↔
            CR ∈ (s.mem.drop (s.pos + 1)).take n := by
          rw [List.mem_cons]
          exact or_iff_right fun h => hb h.symm
        rw [if_neg hb, scanBytes_eq n _ (by simpa using by omega)]
        simp only [hmem, List.takeWhile_cons, hne, if_true, List.length_cons]
        split_ifs
        · congr 1
          omega
        · congr 2 <;> omega

/-- One read of `data` bytes into the room that is left: either the first carriage return is among
them, or they extend the bytes received. -/
theorem Filled.scan {cap : ℕ} {got : Bytes} {s : ReadState} (hs : Filled cap got s) {data : Bytes}
    (hd : data.length ≤ cap - got.length) :
    let mem := splice s.mem s.pos data
    mem.length = cap ∧ mem.take (got ++ data).length = got ++ data ∧
      (CR ∈ data → scanBytes data.length { s with mem := mem } =
        .found ((got ++ data).takeWhile (· != CR)).length.succ) ∧
      (CR ∉ data → ∃ s', scanBytes data.length { s with mem := mem } = .more s' ∧
        s'.mem = mem ∧ Filled cap (got ++ data) s') := by
  intro mem
  have hle := hs.got_le
  have hcap := hs.cap_eq
  have hpos := hs.pos_eq
  have hlen : mem.length = cap := by
    rw [← hcap]
    exact splice_length (by omega)
  have htake : mem.take (got ++ data).length = got ++ data := by
    have : (splice s.mem s.pos data).take (s.pos + data.length) = s.mem.take s.pos ++ data :=
      splice_take (by omega)
    rw [hpos, hs.take_eq] at this
    rw [List.length_append]
    simpa only [mem, hpos] using this
  have hwindow : (mem.drop s.pos).take data.length = data := by
    have h := congrArg (List.drop got.length) htake
    rwa [List.drop_take, List.drop_left, List.length_append, Nat.add_sub_cancel_left,
      ← hpos] at h
  have hscan := scanBytes_eq data.length { s with mem := mem } (by simpa using by omega)
  simp only [hwindow] at hscan
  refine ⟨hlen, htake, fun h => ?_, fun h => ?_⟩
  · have hgot : ∀ b ∈ got, (b != CR) = true := fun b hb => by
      rw [bne_iff_ne]
      rintro rfl
      exact hs.no_CR hb
    rw [hscan, if_pos h, List.takeWhile_append_of_pos hgot, List.length_append, hs.size_eq]
  · refine ⟨_, by rw [hscan, if_neg h], rfl, ?_⟩
    constructor
    · exact hlen
    · simp [hpos]
    · simp only [hs.left_eq, List.length_append]
      omega
    · simp [hs.size_eq]
    · rw [List.length_append]
      omega
    · exact htake
    · rw [List.mem_append, not_or]
      exact ⟨hs.no_CR, h⟩

/-! ### The outer loop -/

theorem delivered_cons (e : ReadEvent) (es : List ReadEvent) :
    delivered (e :: es) = e.data ++ delivered es := rfl

/-- **The loop read backwards**: when `readLoop` returns `n`, the reads it made have delivered a
carriage return, the `n`-th byte is the first one, and all delivered bytes stand at the head of the
buffer. -/
theorem readLoop_ret {cap : ℕ} : ∀ {es : List ReadEvent} {got : Bytes} {s : ReadState} {n : ℕ},
    Filled cap got s → dev.Delivers s.left es → (dev.readLoop started es s).outcome = .ret n →
    ∃ used body extra, es = used ++ (dev.readLoop started es s).unread ∧
      got ++ delivered used = body ++ CR :: extra ∧ CR ∉ body ∧ n = body.length + 1 ∧
      (dev.readLoop started es s).mem.length = cap ∧
      (dev.readLoop started es s).mem.take (got ++ delivered used).length = got ++ delivered used
  | [], _, _, _, _, _, h => by simp [readLoop] at h
  | e :: es, got, s, n, hs, hd, h => by
      rcases hd with ⟨x, hx⟩ | ⟨hok, hroom, hd⟩
      · simp [readLoop, hx] at h
      · rw [hs.left_eq] at hroom
        obtain ⟨hlen, htake, hfound, hmore⟩ := hs.scan hroom
        by_cases hCR : CR ∈ e.data
        · have hloop : dev.readLoop started (e :: es) s =
              ⟨.ret ((got ++ e.data).takeWhile (· != CR)).length.succ,
                splice s.mem s.pos e.data, es⟩ := by
            rw [readLoop, hok]
            simp only [hfound hCR]
          rw [hloop] at h ⊢
          obtain ⟨body, extra, hsplit, hbody⟩ :=
            exists_eq_append_CR (s := got ++ e.data) (List.mem_append_right _ hCR)
          have hthrough := congrArg List.length (throughCR_append (t := extra) hbody)
          simp only [throughCR, ← hsplit, List.length_append, List.length_singleton] at hthrough
          refine ⟨[e], body, extra, rfl, by simpa [delivered] using hsplit, hbody, ?_, hlen,
            by simpa [delivered] using htake⟩
          simp only [Outcome.ret.injEq] at h
          omega
        · obtain ⟨s', hscan, hmem, hs'⟩ := hmore hCR
          have hleft : s.left - e.data.length = s'.left := by
            rw [hs.left_eq, hs'.left_eq, List.length_append]
            omega
          rw [readLoop, hok] at h ⊢
          simp only [hscan] at h ⊢
          split_ifs at h ⊢ with htime hfull
          obtain ⟨used, body, extra, hes, hsplit, hbody, hn, hcap, hpre⟩ :=
            readLoop_ret hs' (hleft ▸ hd) h
          refine ⟨e :: used, body, extra, by rw [List.cons_append, ← hes], ?_, hbody, hn, hcap, ?_⟩
          · rwa [delivered_cons, ← List.append_assoc]
          · rwa [delivered_cons, ← List.append_assoc]

/-- **The loop run forwards**: with time left and no failing read, `readLoop` returns as soon as
the delivered bytes hold a carriage return that fits in the buffer, whatever the chunks are. -/
theorem readLoop_delivered {cap : ℕ} {body extra : Bytes} (hfit : body.length < cap) :
    ∀ {es : List ReadEvent} {got : Bytes} {s : ReadState},
    Filled cap got s → dev.Delivers s.left es →
    (∀ e ∈ es, dev.getTimeLeft started e.now ≠ 0) →
    (∀ e ∈ es, ∀ x, dev.driver.read e.code ≠ .error x) →
    got ++ delivered es = body ++ CR :: extra → ∃ n, (dev.readLoop started es s).outcome = .ret n
  | [], got, s, hs, _, _, _, heq => by
      have : CR ∈ got := by
        rw [delivered, List.flatMap_nil, List.append_nil] at heq
        simp [heq]
      exact absurd this hs.no_CR
  | e :: es, got, s, hs, hd, htime, hread, heq => by
      rcases hd with ⟨x, hx⟩ | ⟨hok, hroom, hd⟩
      · exact absurd hx (hread e List.mem_cons_self x)
      · rw [hs.left_eq] at hroom
        obtain ⟨-, -, hfound, hmore⟩ := hs.scan hroom
        rw [readLoop, hok]
        by_cases hCR : CR ∈ e.data
        · exact ⟨_, by simp only [hfound hCR]; rfl⟩
        · obtain ⟨s', hscan, -, hs'⟩ := hmore hCR
          have hleft : s.left - e.data.length = s'.left := by
            rw [hs.left_eq, hs'.left_eq, List.length_append]
            omega
          rw [delivered_cons, ← List.append_assoc] at heq
          -- the bytes received so far end before the carriage return, so the buffer is not full
          have hshort : (got ++ e.data).length ≤ body.length := by
            by_contra hlong
            have hpre : body ++ [CR] <+: got ++ e.data := by
              have hbody : body ++ [CR] <+: body ++ CR :: extra := ⟨extra, by simp⟩
              refine List.prefix_of_prefix_length_le hbody ⟨_, heq⟩ ?_
              rw [List.length_append, List.length_singleton]
              omega
            exact hs'.no_CR (hpre.subset (by simp))
          have hleft_pos : ¬ s'.left ≤ 0 := by
            rw [hs'.left_eq]
            omega
          simp only [hscan, htime e List.mem_cons_self, hleft_pos, if_false]
          exact readLoop_delivered hfit hs' (hleft ▸ hd)
            (fun e he => htime e (List.mem_cons_of_mem _ he))
            (fun e he => hread e (List.mem_cons_of_mem _ he)) heq

/-! ### Results of the driver -/

theorem toInt_of_lt {n : ℕ} (h : n < 2 ^ 31) : toInt n = n := by
  unfold toInt
  rw [Int.bmod_eq_of_le] <;> omega

theorem toOffset_of_lt {n : ℕ} (h : n < 2 ^ 31) : toOffset n = n := by
  unfold toOffset
  rw [Int.bmod_eq_of_le] <;> omega

/-! ### `recv` and `send` -/

theorem filled_start (buf : Bytes) : Filled buf.length [] ⟨buf, 0, buf.length, 0⟩ :=
  ⟨rfl, rfl, rfl, rfl, Nat.zero_le _, rfl, List.not_mem_nil⟩

theorem checkResponse_noFlags {buf body : Bytes} (hbuf : buf.take body.length = body) {n : ℕ} :
    checkResponse noFlags buf (body.length + 1) = .ok n ↔
      frame noFlags (buf.take n) = body ++ [CR] ∧ n ≤ body.length := by
  have hcheck : checkResponse noFlags buf (body.length + 1) = .ok body.length := by
    simp [checkResponse, noFlags]
  have hframe : frame noFlags (buf.take n) = buf.take n ++ [CR] := rfl
  rw [hcheck, hframe, List.append_left_inj, Except.ok.injEq]
  constructor
  · rintro rfl
    exact ⟨hbuf, le_rfl⟩
  · rintro ⟨htake, hn⟩
    have := congrArg List.length (hbuf.trans htake.symm)
    have := congrArg List.length hbuf
    simp only [List.length_take] at *
    omega

/-- With a checksum the payload is followed by the word that belongs to it. -/
theorem checkResponse_defaultFlags {buf body : Bytes} (hbuf : buf.take body.length = body) {n : ℕ} :
    checkResponse defaultFlags buf (body.length + 1) = .ok n ↔
      frame defaultFlags (buf.take n) = body ++ [CR] ∧ n ≤ body.length := by
  have hframe : frame defaultFlags (buf.take n) =
      (buf.take n ++ crcWrite (crcCalculate (buf.take n))) ++ [CR] := rfl
  have hlen : body.length ≤ buf.length := by
    have := congrArg List.length hbuf
    rw [List.length_take] at this
    omega
  rw [hframe, List.append_left_inj]
  rcases Nat.lt_or_ge body.length 2 with hshort | hlong
  · -- too small for a checksum
    have hcheck : checkResponse defaultFlags buf (body.length + 1) =
        .error ⟨.invalidDataError, ascii "response is too small"⟩ := by
      simp only [checkResponse, defaultFlags, if_true]
      exact if_pos (by omega)
    rw [hcheck]
    refine iff_of_false (by simp) fun ⟨h, hn⟩ => ?_
    have := congrArg List.length h
    simp only [List.length_append, crcWrite, List.length_cons, List.length_nil] at this
    omega
  · obtain ⟨k, hk⟩ : ∃ k, body.length = k + 2 := ⟨body.length - 2, by omega⟩
    have hbody : body = buf.take k ++ [buf.getD k 0, buf.getD (k + 1) 0] := by
      rw [← hbuf, hk, List.take_succ_eq_append_getElem (by omega),
        List.take_succ_eq_append_getElem (by omega), List.append_assoc,
        List.getD_eq_getElem?_getD, List.getD_eq_getElem?_getD,
        List.getElem?_eq_getElem (by omega), List.getElem?_eq_getElem (by omega)]
      rfl
    have hcheck : checkResponse defaultFlags buf (body.length + 1) = .ok n ↔
        n = k ∧ crcRead (buf.getD k 0) (buf.getD (k + 1) 0) = crcCalculate (buf.take k) := by
      simp only [checkResponse, defaultFlags, hk, if_true]
      rw [if_neg (by omega), show k + 2 + 1 - (2 + 1) = k by omega]
      split_ifs with hcrc
      · rw [Except.ok.injEq, eq_comm]
        exact (and_iff_left hcrc.2).symm
      · simp only [false_iff, not_and]
        exact fun _ h => hcrc ⟨trivial, h⟩
    rw [hcheck]
    constructor
    · rintro ⟨rfl, hcrc⟩
      refine ⟨?_, by omega⟩
      rw [← hcrc, crcWrite_crcRead, ← hbody]
    · rintro ⟨h, hn⟩
      have hnk : n = k := by
        have := congrArg List.length h
        simp only [List.length_append, crcWrite, List.length_cons, List.length_nil,
          List.length_take] at this
        omega
      subst hnk
      refine ⟨rfl, ?_⟩
      rw [hbody, List.append_right_inj, crcWrite] at h
      obtain ⟨h0, h1⟩ := List.cons.inj h
      rw [← h0, ← (List.cons.inj h1).1, crcRead_crcWrite]

theorem checkResponse_eq_ok {flags : Flags} (hflags : flags = defaultFlags ∨ flags = noFlags)
    {buf body : Bytes} (hbuf : buf.take body.length = body) {n : ℕ} :
    checkResponse flags buf (body.length + 1) = .ok n ↔
      frame flags (buf.take n) = body ++ [CR] ∧ n ≤ body.length := by
  rcases hflags with rfl | rfl
  · exact checkResponse_defaultFlags hbuf
  · exact checkResponse_noFlags hbuf

/-- The frame `recv` expects around a payload: with a checksum when `FLAG_READ_CRC` is set. -/
def replyFrame (flags : Flags) (p : Bytes) : Bytes :=
  frame { flags with writeCrc := flags.readCrc } p

theorem replyFrame_eq_frame {flags : Flags} (h : flags.writeCrc = flags.readCrc) (p : Bytes) :
    replyFrame flags p = frame flags p := by
  unfold replyFrame frame
  rw [← h]

/-- Whatever the flags are, what passes the check is the frame of a payload. -/
theorem frame_of_checkResponse {flags : Flags} {buf body : Bytes}
    (hbuf : buf.take body.length = body) {n : ℕ}
    (h : checkResponse flags buf (body.length + 1) = .ok n) :
    replyFrame flags (buf.take n) = body ++ [CR] ∧ n ≤ body.length := by
  -- only a pair of flags for reading matters, and a checksum that is not verified never passes
  cases hread : flags.readCrc with
  | false =>
      have hcheck : checkResponse noFlags buf (body.length + 1) = .ok n := by
        rw [← h]
        simp [checkResponse, hread, noFlags]
      have := (checkResponse_noFlags hbuf).mp hcheck
      rwa [replyFrame, frame, hread]
  | true =>
      have hcheck : checkResponse defaultFlags buf (body.length + 1) = .ok n := by
        cases hverify : flags.verifyCrc with
        | true =>
            rw [← h]
            simp [checkResponse, hread, hverify, defaultFlags]
        | false =>
            simp only [checkResponse, hread, hverify, Bool.false_eq_true, false_and,
              if_true, if_false] at h
            split_ifs at h
      have := (checkResponse_defaultFlags hbuf).mp hcheck
      rwa [replyFrame, frame, hread]

/-- A normal return of `recv`, read backwards: the delivered bytes begin with the frame of the
payload it returns, and the rest of the frame stands in the buffer. -/
theorem recv_ret {buf : Bytes} {es : List ReadEvent} {n : ℕ} (hd : dev.Delivers buf.length es)
    (h : (dev.recv started buf es).outcome = .ret n) :
    ∃ used extra, es = used ++ (dev.recv started buf es).unread ∧
      delivered used = replyFrame dev.flags ((dev.recv started buf es).mem.take n) ++ extra ∧
      throughCR (delivered used) = replyFrame dev.flags ((dev.recv started buf es).mem.take n) ∧
      (dev.recv started buf es).mem.length = buf.length ∧ n ≤ buf.length := by
  simp only [recv, Outcome.bind_eq_ret, Outcome.lift_eq_ret] at h ⊢
  obtain ⟨size, hloop, hcheck⟩ := h
  obtain ⟨used, body, extra, hes, hsplit, hbody, rfl, hlen, hpre⟩ :=
    readLoop_ret dev started (filled_start buf) hd hloop
  rw [List.nil_append] at hsplit hpre
  have hhead : (dev.readLoop started es ⟨buf, 0, buf.length, 0⟩).mem.take body.length = body := by
    have := congrArg (List.take body.length) hpre
    rwa [hsplit, List.take_take, List.take_left, min_eq_left (by simp)] at this
  obtain ⟨hframe, hn⟩ := frame_of_checkResponse hhead hcheck
  refine ⟨used, extra, hes, ?_, ?_, hlen, ?_⟩
  · rw [hframe, hsplit]
    simp
  · rw [hframe, hsplit, throughCR_append hbody]
  · have := congrArg List.length hhead
    rw [List.length_take] at this
    omega

theorem recv_frame (hflags : dev.flags = defaultFlags ∨ dev.flags = noFlags) {buf p extra : Bytes}
    {es : List ReadEvent} (hp : CR ∉ p) (hfit : (frame dev.flags p).length ≤ buf.length)
    (hd : dev.Delivers buf.length es) (htime : ∀ e ∈ es, dev.getTimeLeft started e.now ≠ 0)
    (hread : ∀ e ∈ es, ∀ x, dev.driver.read e.code ≠ .error x)
    (hes : delivered es = frame dev.flags p ++ extra) :
    (dev.recv started buf es).outcome = .ret p.length ∧
      (dev.recv started buf es).mem.take p.length = p := by
  obtain ⟨body, hframe, hbody⟩ : ∃ body, frame dev.flags p = body ++ [CR] ∧ CR ∉ body :=
    exists_frame_eq hp
  have hstream : [] ++ delivered es = body ++ CR :: extra := by
    rw [List.nil_append, hes, hframe]
    simp
  have hroom : body.length < buf.length := by
    rw [hframe, List.length_append, List.length_singleton] at hfit
    omega
  obtain ⟨size, hloop⟩ :=
    readLoop_delivered dev started hroom (filled_start buf) hd htime hread hstream
  obtain ⟨used, body', extra', hused, hsplit, hbody', rfl, hlen, hpre⟩ :=
    readLoop_ret dev started (filled_start buf) hd hloop
  set mem := (dev.readLoop started es ⟨buf, 0, buf.length, 0⟩).mem with hmem
  rw [List.nil_append] at hsplit hpre hstream
  -- the reads made are a prefix of all reads, so the first carriage return is the same
  obtain rfl : body = body' := by
    have hall := congrArg delivered hused
    rw [hstream, delivered, List.flatMap_append, ← delivered, hsplit, List.append_assoc] at hall
    exact eq_of_append_cons_eq hbody hbody' hall
  have hhead : mem.take body.length = body := by
    have := congrArg (List.take body.length) hpre
    rwa [hsplit, List.take_take, List.take_left, min_eq_left (by simp)] at this
  have hpbody : p <+: body := by
    rw [frame] at hframe
    split_ifs at hframe
    · exact ⟨_, List.append_cancel_right hframe⟩
    · exact ⟨[], by rw [List.append_nil]; exact List.append_cancel_right hframe⟩
  have hpayload : mem.take p.length = p := by
    have := congrArg (List.take p.length) hhead
    rw [List.take_take, min_eq_left hpbody.length_le] at this
    rw [this, ← List.prefix_iff_eq_take.mp hpbody]
  refine ⟨?_, hpayload⟩
  have hcheck := (checkResponse_eq_ok hflags hhead).mpr
    ⟨by rw [hpayload, hframe], hpbody.length_le⟩
  rw [recv]
  simp only [hloop, Outcome.ret_bind, ← hmem, hcheck, Outcome.lift_ok]

/-- **Framing round trip.**  With the flags of the constructor, or with none: a payload without
carriage returns whose frame fits in the buffer is received as it was sent, however the frame is
cut into reads and whatever follows it; and a call of `recv` that returns `n` has been given a
carriage return and, up to the first one, the frame of the first `n` bytes of its buffer. -/
theorem recv_inverts_send (hflags : dev.flags = defaultFlags ∨ dev.flags = noFlags) (buf : Bytes)
    (es : List ReadEvent) (hd : dev.Delivers buf.length es) :
    (∀ p extra : Bytes, CR ∉ p → (frame dev.flags p).length ≤ buf.length →
      (∀ e ∈ es, dev.getTimeLeft started e.now ≠ 0) →
      (∀ e ∈ es, ∀ x, dev.driver.read e.code ≠ .error x) →
      delivered es = frame dev.flags p ++ extra →
      (dev.recv started buf es).outcome = .ret p.length ∧
        (dev.recv started buf es).mem.take p.length = p) ∧
    (∀ n, (dev.recv started buf es).outcome = .ret n → ∃ used,
      es = used ++ (dev.recv started buf es).unread ∧ CR ∈ delivered used ∧ n ≤ buf.length ∧
      throughCR (delivered used) = frame dev.flags ((dev.recv started buf es).mem.take n)) := by
  refine ⟨fun p extra hp hfit htime hread hes =>
    recv_frame dev started hflags hp hfit hd htime hread hes, fun n h => ?_⟩
  obtain ⟨used, extra, hused, hall, hthrough, -, hn⟩ := recv_ret dev started hd h
  have hsame : dev.flags.writeCrc = dev.flags.readCrc := by
    rcases hflags with hf | hf <;> rw [hf] <;> rfl
  rw [replyFrame_eq_frame hsame] at hall hthrough
  have hCR : CR ∈ delivered used := by
    rw [hall, frame]
    split_ifs <;> simp
  exact ⟨used, hused, hCR, hn, hthrough⟩

/-- The frame of `"1"` arrives after an empty read, in two chunks, with a byte behind it. -/
theorem recv_inverts_send_two_chunks :
    let dev : Device := ⟨.usb, defaultFlags, TIMEOUT⟩
    let es : List ReadEvent := [⟨0, [], 5, 5⟩, ⟨2, (frame defaultFlags [0x31]).take 2, 10, 10⟩,
      ⟨3, (frame defaultFlags [0x31]).drop 2 ++ [0x41], 15, 15⟩]
    (dev.recv 0 (List.replicate 8 0) es).outcome = .ret 1 ∧
      (dev.recv 0 (List.replicate 8 0) es).mem.take 1 = [0x31] := by
  intro dev es
  refine (recv_inverts_send dev 0 (.inl rfl) (List.replicate 8 0) es ?_).1 [0x31] [0x41]
    (by decide) (by decide) (by decide) (fun e he x => ?_) (by decide)
  · exact .inr ⟨rfl, by decide, .inr ⟨rfl, by decide, .inr ⟨rfl, by decide, trivial⟩⟩⟩
  · simp only [es, List.mem_cons, List.not_mem_nil, or_false] at he
    rcases he with rfl | rfl | rfl <;> simp [dev, Driver.read]

/-! ### `run` -/

theorem run_ret {env : Script} {inbuf outbuf : Bytes} {n : ℕ}
    (h : (dev.run env inbuf outbuf).outcome = .ret n) :
    (dev.send env.started inbuf env.writes).outcome = .ret () ∧
      (dev.recv env.started outbuf env.reads).outcome = .ret n ∧
      dev.run env inbuf outbuf =
        ⟨.ret n, (dev.recv env.started outbuf env.reads).mem,
          (dev.send env.started inbuf env.writes).wire,
          (dev.recv env.started outbuf env.reads).unread⟩ := by
  unfold run at h ⊢
  cases hs : (dev.send env.started inbuf env.writes).outcome with
  | throw x => simp [hs] at h
  | fault => simp [hs] at h
  | pending => simp [hs] at h
  | ret u =>
      simp only [hs] at h ⊢
      split_ifs at h ⊢ with htime
      have hrecv : (dev.recv env.started outbuf env.reads).outcome = .ret n := h
      refine ⟨trivial, hrecv, ?_⟩
      rw [hrecv]

end Device

end InverterTools.Voltronic
