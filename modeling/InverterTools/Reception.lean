import InverterTools.Framing

/-! # What a device can do to a transaction

The results of the driver libraries are of type `int`: the number of bytes transferred, or a
negative code.  The serial driver does not look at the sign, so a negative code moves the pointers
of `writeLoop` backwards and lets `readLoop` look at the rest of the buffer.  `WritesOutside`,
`ReadsOutside`, `Fills` and `Line` say which results lead out of the buffers, fill the buffer of an
answer, or complete a line; `recv_fault_iff`, `recv_handled_iff` and `recv_ret_iff` say that nothing
else happens, short of an exception that the callers expect. -/

namespace InverterTools

/-- The exceptions that `Server::executeCommand` translates and `main` of the tool reports. -/
def Exn.Handled (e : Exn) : Prop :=
  e.cls ∈ [ExnClass.deviceError, .timeoutError, .invalidDataError, .invalidResponseError,
    .parseError]

instance (e : Exn) : Decidable e.Handled := inferInstanceAs (Decidable (_ ∈ _))

namespace Voltronic.Device

variable (dev : Device) (started : UInt64)

/-! ### Writing -/

/-- The results of the writes are of type `int`. -/
def IntResults (es : List WriteEvent) : Prop := ∀ e ∈ es, -2 ^ 31 ≤ e.code ∧ e.code < 2 ^ 31

/-- The writes lead in front of the frame of `size` bytes, from offset `off` on. -/
def WritesOutside (size : ℤ) : ℤ → List WriteEvent → Prop
  | _, [] => False
  | off, e :: es => off < 0 ∨ ∃ n, dev.driver.write e.code = .ok n ∧ off + toInt n < size ∧
      dev.getTimeLeft started e.now ≠ 0 ∧ WritesOutside size (off + toInt n) es

/-- The writes take all of the frame, in time. -/
def WritesAll (size : ℤ) : ℤ → List WriteEvent → Prop
  | _, [] => False
  | off, e :: es => 0 ≤ off ∧ ∃ n, dev.driver.write e.code = .ok n ∧
      (size ≤ off + toInt n ∨
        dev.getTimeLeft started e.now ≠ 0 ∧ WritesAll size (off + toInt n) es)

/-- The count of a write is the same as an `int` and as an offset. -/
theorem toOffset_of_write {d : Driver} {code : ℤ} {n : ℕ} (h1 : -2 ^ 31 ≤ code)
    (h2 : code < 2 ^ 31) (h : d.write code = .ok n) : toOffset n = toInt n := by
  unfold toOffset toInt
  cases d with
  | usb =>
      unfold Driver.write at h
      dsimp only at h
      split_ifs at h
      obtain rfl := Except.ok.inj h
      have hle : hidReportSize (toSize code) ≤ 8 := by
        unfold hidReportSize
        split_ifs <;> omega
      rw [Int.bmod_eq_of_le (by omega) (by omega), Int.bmod_eq_of_le (by omega) (by omega)]
  | serial =>
      obtain rfl := Except.ok.inj h
      have hn : ((toSize code : ℕ) : ℤ) = code % 2 ^ 64 := by
        unfold toSize
        omega
      have hmod : code % 2 ^ 64 % 2 ^ 32 = code % 2 ^ 32 := by omega
      rw [hn, Int.bmod_def, Int.bmod_def]
      push_cast
      split_ifs <;> omega

theorem writeLoop_fault_iff {data : Bytes} {es : List WriteEvent} {off left : ℤ} {wire : Bytes}
    (hint : IntResults es) (hleft : off + left = data.length) :
    (dev.writeLoop started data off left wire es).outcome = .fault ↔
      dev.WritesOutside started data.length off es := by
  induction es generalizing off left wire with
  | nil => simp [writeLoop, WritesOutside]
  | cons e es ih =>
      obtain ⟨⟨h1, h2⟩, hrest⟩ := List.forall_mem_cons.mp hint
      have hrange : (off < 0 ∨ (data.length : ℤ) < off + left) ↔ off < 0 := by omega
      unfold writeLoop WritesOutside
      rw [if_congr hrange rfl rfl]
      by_cases hoff : off < 0
      · simp [hoff]
      rw [if_neg hoff]
      cases hw : dev.driver.write e.code with
      | error x => simp [hoff]
      | ok n =>
          simp only [toOffset_of_write h1 h2 hw, hoff, false_or, Except.ok.injEq,
            exists_eq_left']
          split_ifs with hdone htime
          · simp
            omega
          · simp [htime]
          · rw [ih hrest (by omega)]
            simp [htime]
            omega

theorem writeLoop_ret_iff {data : Bytes} {es : List WriteEvent} {off left : ℤ} {wire : Bytes}
    (hint : IntResults es) (hleft : off + left = data.length) :
    (dev.writeLoop started data off left wire es).outcome = .ret () ↔
      dev.WritesAll started data.length off es := by
  induction es generalizing off left wire with
  | nil => simp [writeLoop, WritesAll]
  | cons e es ih =>
      obtain ⟨⟨h1, h2⟩, hrest⟩ := List.forall_mem_cons.mp hint
      have hrange : (off < 0 ∨ (data.length : ℤ) < off + left) ↔ off < 0 := by omega
      unfold writeLoop WritesAll
      rw [if_congr hrange rfl rfl]
      by_cases hoff : off < 0
      · simp [hoff]
      rw [if_neg hoff]
      cases hw : dev.driver.write e.code with
      | error x => simp
      | ok n =>
          simp only [toOffset_of_write h1 h2 hw, Except.ok.injEq, exists_eq_left',
            not_lt.mp hoff, true_and]
          split_ifs with hdone htime
          · simp
            omega
          · simp [htime]
            omega
          · rw [ih hrest (by omega)]
            simp [htime]
            omega

/-- A writer that waits has not seen the end of its time. -/
theorem writeLoop_pending {data : Bytes} {es : List WriteEvent} {off left : ℤ} {wire : Bytes}
    (h : (dev.writeLoop started data off left wire es).outcome = .pending) :
    ∀ e ∈ es, dev.getTimeLeft started e.now ≠ 0 := by
  induction es generalizing off left wire with
  | nil => simp
  | cons e es ih =>
      unfold writeLoop at h
      by_cases hrange : off < 0 ∨ data.length < off + left
      · simp [if_pos hrange] at h
      rw [if_neg hrange] at h
      cases hw : dev.driver.write e.code with
      | error x => simp [hw] at h
      | ok n =>
          simp only [hw] at h
          split_ifs at h with hdone htime
          exact List.forall_mem_cons.mpr ⟨htime, ih h⟩

/-! ### Reading -/

/-- What the driver libraries promise of reads into `left` bytes: they report the number of bytes
stored, or a negative code, whatever was stored before the failure. -/
def Answers : ℕ → List ReadEvent → Prop
  | _, [] => True
  | left, e :: es =>
      e.data.length ≤ left ∧ ((e.code = e.data.length ∧ Answers (left - e.data.length) es) ∨
        (e.code < 0 ∧ -2 ^ 31 ≤ e.code))

/-- A read that brings no carriage return, with time left after it. -/
def Quiet (e : ReadEvent) : Prop :=
  0 ≤ e.code ∧ CR ∉ e.data ∧ dev.getTimeLeft started e.now ≠ 0

/-- The reads fill `room` bytes without a carriage return. -/
def Fills : ℕ → List ReadEvent → Prop
  | _, [] => False
  | room, e :: es =>
      dev.Quiet started e ∧ (e.data.length = room ∨ Fills (room - e.data.length) es)

/-- A negative code is taken for a count, and the buffer holds no carriage return from there on;
`pos` bytes were received before. -/
def ReadsOutside (buf : Bytes) : ℕ → List ReadEvent → Prop
  | _, [] => False
  | pos, e :: es =>
      (e.code < 0 ∧ (∃ n, dev.driver.read e.code = .ok n) ∧ CR ∉ e.data ∧
        CR ∉ buf.drop (pos + e.data.length)) ∨
        (dev.Quiet started e ∧ pos + e.data.length < buf.length ∧
          ReadsOutside buf (pos + e.data.length) es)

/-- The buffer after some bytes were stored in it. -/
def stored (buf got : Bytes) : Bytes := got ++ buf.drop got.length

/-- The reads complete a line, which stands in the buffer `mem` then; behind the bytes `got`.  A
negative code finds the line in what the buffer held before. -/
def Line (buf : Bytes) : Bytes → List ReadEvent → Bytes → Prop
  | _, [], _ => False
  | got, e :: es, mem =>
      (mem = stored buf (got ++ e.data) ∧ (∃ n, dev.driver.read e.code = .ok n) ∧
        (CR ∈ e.data ∨ e.code < 0 ∧ CR ∈ buf.drop (got.length + e.data.length))) ∨
        (dev.Quiet started e ∧ (got ++ e.data).length < buf.length ∧
          Line buf (got ++ e.data) es mem)

theorem read_of_count {d : Driver} {n : ℕ} (h : n < 2 ^ 64) : d.read n = .ok n := by
  have hsize : toSize n = n := by
    unfold toSize
    omega
  unfold Driver.read
  cases d with
  | usb =>
      dsimp only
      rw [if_neg (by omega), hsize]
  | serial =>
      dsimp only
      rw [hsize]

/-- A negative code is an exception, or a count no buffer has. -/
theorem le_of_read_neg {d : Driver} {code : ℤ} {n : ℕ} (h1 : code < 0) (h2 : -2 ^ 31 ≤ code)
    (h : d.read code = .ok n) : 2 ^ 63 ≤ n := by
  have hsize : 2 ^ 63 ≤ toSize code := by
    unfold toSize
    omega
  unfold Driver.read at h
  cases d with
  | usb =>
      dsimp only at h
      split_ifs at h
      rwa [← Except.ok.inj h]
  | serial => rwa [← Except.ok.inj h]

/-- A scan that is too long ends at the first carriage return, or leaves the buffer. -/
theorem scanBytes_of_lt : ∀ (n : ℕ) (s : ReadState), s.pos ≤ s.mem.length →
    s.mem.length < s.pos + n →
    scanBytes n s =
      let window := s.mem.drop s.pos
      if CR ∈ window then .found (s.size + (window.takeWhile (· != CR)).length + 1) else .outside
  | 0, s, hpos, h => by omega
  | n + 1, s, hpos, h => by
      rw [scanBytes]
      by_cases hlt : s.pos < s.mem.length
      · have hdrop := List.drop_eq_getElem_cons hlt
        rw [List.getElem?_eq_getElem hlt]
        simp only [hdrop]
        by_cases hb : s.mem[s.pos] = CR
        · simp [hb]
        · have hne : (s.mem[s.pos] != CR) = true := bne_iff_ne.mpr hb
          have hmem : CR ∈ s.mem[s.pos] :: s.mem.drop (s.pos + 1) ↔
              CR ∈ s.mem.drop (s.pos + 1) := by
            rw [List.mem_cons]
            exact or_iff_right fun h => hb h.symm
          rw [if_neg hb, scanBytes_of_lt n _ (by simpa using hlt) (by simpa using by omega)]
          simp only [hmem, List.takeWhile_cons, hne, if_true, List.length_cons]
          split_ifs
          · congr 1
            omega
          · rfl
      · rw [List.getElem?_eq_none (by omega), List.drop_eq_nil_of_le (by omega)]
        simp

theorem stored_length {buf got : Bytes} (h : got.length ≤ buf.length) :
    (stored buf got).length = buf.length := by
  rw [stored, List.length_append, List.length_drop]
  omega

theorem splice_stored {buf got data : Bytes} :
    splice (stored buf got) got.length data = stored buf (got ++ data) := by
  have hdrop : (stored buf got).drop (got.length + data.length) =
      buf.drop (got ++ data).length := by
    rw [stored, ← List.drop_drop, List.drop_left, List.drop_drop, List.length_append]
  rw [splice, hdrop, stored, List.take_left, stored]

/-- The line of a buffer ends at its first carriage return. -/
def lineSize (mem : Bytes) : ℕ := (mem.takeWhile (· != CR)).length + 1

theorem lineSize_append {s t : Bytes} (h : CR ∉ s) : lineSize (s ++ t) = s.length + lineSize t := by
  have hs : ∀ b ∈ s, (b != CR) = true := fun b hb => by
    rw [bne_iff_ne]
    rintro rfl
    exact h hb
  rw [lineSize, List.takeWhile_append_of_pos hs, List.length_append, lineSize, Nat.add_assoc]

theorem lineSize_le {mem : Bytes} (h : CR ∈ mem) : lineSize mem ≤ mem.length := by
  obtain ⟨body, t, rfl, hbody⟩ := exists_eq_append_CR h
  rw [lineSize_append hbody, List.length_append, List.length_cons, lineSize]
  simp

theorem Line.length_eq {buf mem : Bytes} {es : List ReadEvent} : ∀ {got : Bytes},
    dev.Line started buf got es mem → got.length ≤ buf.length →
    Answers (buf.length - got.length) es → mem.length = buf.length ∧ CR ∈ mem := by
  induction es with
  | nil => exact fun h => absurd h id
  | cons e es ih =>
      intro got h hgot ha
      obtain ⟨hroom, ha⟩ := ha
      have hfit : (got ++ e.data).length ≤ buf.length := by
        rw [List.length_append]
        omega
      rcases h with ⟨rfl, -, hCR⟩ | ⟨hquiet, -, h⟩
      · refine ⟨stored_length hfit, ?_⟩
        rw [stored, List.length_append, List.mem_append, List.mem_append]
        rcases hCR with hnew | ⟨-, hold⟩
        · exact .inl (.inr hnew)
        · exact .inr hold
      · rcases ha with ⟨-, ha⟩ | ⟨hneg, -⟩
        · refine ih h hfit ?_
          rwa [List.length_append, ← Nat.sub_sub]
        · exact absurd hquiet.1 (not_le.mpr hneg)

section

variable {buf got : Bytes} {e : ReadEvent} {es : List ReadEvent} {s : ReadState}

/-- **One round of `readLoop`.**  The driver fails; a negative code leads out of the buffer, or to
a line in it; a line is complete; the time is up; the buffer is full; or the loop goes on. -/
theorem readLoop_step (hbuf : buf.length < 2 ^ 62) (hs : Filled buf.length got s)
    (hmem : s.mem = stored buf got) (ha : Answers s.left (e :: es)) :
    (e.code < 0 ∧ ∃ x, dev.driver.read e.code = .error x ∧
      dev.readLoop started (e :: es) s = ⟨.throw x, s.mem, es⟩) ∨
    (e.code < 0 ∧ (∃ n, dev.driver.read e.code = .ok n) ∧ CR ∉ e.data ∧
      CR ∉ buf.drop (got.length + e.data.length) ∧
      dev.readLoop started (e :: es) s = ⟨.fault, stored buf (got ++ e.data), es⟩) ∨
    ((∃ n, dev.driver.read e.code = .ok n) ∧
      (CR ∈ e.data ∨ e.code < 0 ∧ CR ∈ buf.drop (got.length + e.data.length)) ∧
      dev.readLoop started (e :: es) s =
        ⟨.ret (lineSize (stored buf (got ++ e.data))), stored buf (got ++ e.data), es⟩) ∨
    (0 ≤ e.code ∧ CR ∉ e.data ∧ dev.getTimeLeft started e.now = 0 ∧
      dev.readLoop started (e :: es) s =
        ⟨.throw (timeoutError "data reading" started e.late), stored buf (got ++ e.data), es⟩) ∨
    (dev.Quiet started e ∧ e.data.length = s.left ∧ dev.readLoop started (e :: es) s =
      ⟨.throw ⟨.overflowError, ascii "input buffer is not large enough"⟩,
        stored buf (got ++ e.data), es⟩) ∨
    (dev.Quiet started e ∧ e.data.length < s.left ∧ ∃ s', Filled buf.length (got ++ e.data) s' ∧
      s'.mem = stored buf (got ++ e.data) ∧ s'.left = s.left - e.data.length ∧
      Answers s'.left es ∧ dev.readLoop started (e :: es) s = dev.readLoop started es s') := by
  have hsplice : splice s.mem s.pos e.data = stored buf (got ++ e.data) := by
    rw [hmem, hs.pos_eq, splice_stored]
  obtain ⟨hroom, ha⟩ := ha
  have hgot := hs.got_le
  have hfit : (got ++ e.data).length ≤ buf.length := by
    rw [hs.left_eq] at hroom
    rw [List.length_append]
    omega
  -- from the pointer on the buffer holds the new bytes and what it held before
  have hwindow : stored buf (got ++ e.data) =
      got ++ (e.data ++ buf.drop (got.length + e.data.length)) := by
    rw [stored, List.append_assoc, List.length_append]
  rcases ha with ⟨hcode, ha⟩ | ⟨hneg, hint⟩
  · -- the driver has stored what it reports
    rw [hs.left_eq] at hroom
    have hread : dev.driver.read e.code = .ok e.data.length := by
      rw [hcode]
      exact read_of_count (by omega)
    obtain ⟨-, -, hfound, hmore⟩ := hs.scan hroom
    by_cases hCR : CR ∈ e.data
    · refine .inr (.inr (.inl ⟨⟨_, hread⟩, .inl hCR, ?_⟩))
      have hline : lineSize (stored buf (got ++ e.data)) =
          ((got ++ e.data).takeWhile (· != CR)).length.succ := by
        obtain ⟨body, extra, heq, hbody⟩ := exists_eq_append_CR (s := e.data) hCR
        have hno : CR ∉ got ++ body := by
          rw [List.mem_append, not_or]
          exact ⟨hs.no_CR, hbody⟩
        have hhead (t : Bytes) : lineSize (got ++ body ++ CR :: t) = (got ++ body).length + 1 :=
          lineSize_append hno
        show lineSize _ = lineSize (got ++ e.data)
        rw [stored, heq, ← List.append_assoc, List.append_assoc (got ++ body), List.cons_append,
          hhead, hhead]
      rw [readLoop, hread]
      simp only [hfound hCR]
      rw [hline, hsplice]
    · obtain ⟨s', hscan, hmem', hs'⟩ := hmore hCR
      have hleft : s'.left = s.left - e.data.length := by
        rw [hs.left_eq, hs'.left_eq, List.length_append]
        omega
      have hloop : dev.readLoop started (e :: es) s =
          if dev.getTimeLeft started e.now = 0 then
            ⟨.throw (timeoutError "data reading" started e.late), splice s.mem s.pos e.data, es⟩
          else if s'.left ≤ 0 then
            ⟨.throw ⟨.overflowError, ascii "input buffer is not large enough"⟩,
              splice s.mem s.pos e.data, es⟩
          else dev.readLoop started es s' := by
        rw [readLoop, hread]
        simp only [hscan]
      have h0 : 0 ≤ e.code := by omega
      by_cases htime : dev.getTimeLeft started e.now = 0
      · refine .inr (.inr (.inr (.inl ⟨h0, hCR, htime, ?_⟩)))
        rw [hloop, if_pos htime, hsplice]
      · have hquiet : dev.Quiet started e := ⟨h0, hCR, htime⟩
        by_cases hfull : s'.left ≤ 0
        · refine .inr (.inr (.inr (.inr (.inl ⟨hquiet, ?_, ?_⟩))))
          · rw [hs.left_eq] at hleft ⊢
            omega
          · rw [hloop, if_neg htime, if_pos hfull, hsplice]
        · refine .inr (.inr (.inr (.inr (.inr ⟨hquiet, by omega, s', hs', ?_, hleft, ?_, ?_⟩))))
          · rw [hmem', hsplice]
          · rwa [hleft]
          · rw [hloop, if_neg htime, if_neg hfull]
  · -- a negative code, taken for a count beyond every buffer
    cases hread : dev.driver.read e.code with
    | error x =>
        refine .inl ⟨hneg, x, rfl, ?_⟩
        rw [readLoop, hread]
    | ok n =>
        have hn := le_of_read_neg hneg hint hread
        have hpos := hs.pos_eq
        have hlen : (stored buf (got ++ e.data)).length = buf.length := stored_length hfit
        have hdrop : (stored buf (got ++ e.data)).drop s.pos =
            e.data ++ buf.drop (got.length + e.data.length) := by
          rw [hwindow, hpos, List.drop_left]
        have hscan := scanBytes_of_lt n { s with mem := stored buf (got ++ e.data) }
          (by rw [hlen, hpos]; exact hgot) (by rw [hlen]; omega)
        simp only [hdrop, List.mem_append] at hscan
        by_cases hCR : CR ∈ e.data ∨ CR ∈ buf.drop (got.length + e.data.length)
        · refine .inr (.inr (.inl ⟨⟨n, rfl⟩, hCR.imp_right fun h => ⟨hneg, h⟩, ?_⟩))
          have hline : lineSize (stored buf (got ++ e.data)) = s.size +
              ((e.data ++ buf.drop (got.length + e.data.length)).takeWhile
                (· != CR)).length + 1 := by
            rw [hwindow, lineSize_append hs.no_CR, hs.size_eq, lineSize, Nat.add_assoc]
          rw [readLoop, hread, hline]
          simp only [hsplice, hscan, if_pos hCR]
        · obtain ⟨hnew, hold⟩ := not_or.mp hCR
          refine .inr (.inl ⟨hneg, ⟨n, rfl⟩, hnew, hold, ?_⟩)
          rw [readLoop, hread]
          simp only [hsplice, hscan, if_neg hCR]

theorem readLoop_fault_iff (hbuf : buf.length < 2 ^ 62) (hs : Filled buf.length got s)
    (hmem : s.mem = stored buf got) (ha : Answers s.left es) :
    (dev.readLoop started es s).outcome = .fault ↔ dev.ReadsOutside started buf got.length es := by
  induction es generalizing got s with
  | nil => simp [readLoop, ReadsOutside]
  | cons e es ih =>
      rw [ReadsOutside]
      rcases dev.readLoop_step started hbuf hs hmem ha with ⟨hneg, x, hx, ho⟩ |
        ⟨hneg, hok, hnew, hold, ho⟩ | ⟨-, hCR, ho⟩ | ⟨h0, -, htime, ho⟩ | ⟨hquiet, hfull, ho⟩ |
        ⟨hquiet, hroom, s', hs', hmem', hleft, ha', ho⟩
      · simp [ho, hx, Quiet, hneg]
      · exact iff_of_true (by rw [ho]) (.inl ⟨hneg, hok, hnew, hold⟩)
      · refine iff_of_false (by simp [ho]) ?_
        rintro (⟨-, -, hnew, hold⟩ | ⟨⟨h0, hnew, -⟩, -⟩)
        · rcases hCR with hin | ⟨-, hin⟩
          · exact hnew hin
          · exact hold hin
        · rcases hCR with hin | ⟨hneg, -⟩
          · exact hnew hin
          · omega
      · refine iff_of_false (by simp [ho]) ?_
        rintro (⟨hneg, -⟩ | ⟨⟨-, -, hno⟩, -⟩)
        · omega
        · exact hno htime
      · refine iff_of_false (by simp [ho]) ?_
        rintro (⟨hneg, -⟩ | ⟨-, hlt, -⟩)
        · have := hquiet.1
          omega
        · rw [hs.left_eq] at hfull
          omega
      · rw [ho, ih hs' hmem' ha', List.length_append]
        have h0 := hquiet.1
        have hgot := hs.got_le
        rw [hs.left_eq] at hroom
        refine ⟨fun h => .inr ⟨hquiet, by omega, h⟩, ?_⟩
        rintro (⟨hneg, -⟩ | ⟨-, -, h⟩)
        · omega
        · exact h

theorem readLoop_handled_iff (hbuf : buf.length < 2 ^ 62) (hs : Filled buf.length got s)
    (hmem : s.mem = stored buf got) (ha : Answers s.left es) :
    (dev.readLoop started es s).outcome.Throws Exn.Handled ↔ ¬ dev.Fills started s.left es := by
  induction es generalizing got s with
  | nil => simp [readLoop, Fills]
  | cons e es ih =>
      rw [Fills]
      rcases dev.readLoop_step started hbuf hs hmem ha with ⟨hneg, x, hx, ho⟩ |
        ⟨hneg, hok, hnew, hold, ho⟩ | ⟨-, hCR, ho⟩ | ⟨h0, -, htime, ho⟩ | ⟨hquiet, hfull, ho⟩ |
        ⟨hquiet, hroom, s', hs', hmem', hleft, ha', ho⟩
      · refine iff_of_true ?_ fun h => absurd h.1.1 (not_le.mpr hneg)
        rw [ho, Outcome.throws_throw]
        exact dev.driver.read_raises e.code (by decide) x hx
      · exact iff_of_true (by simp [ho]) fun h => absurd h.1.1 (not_le.mpr hneg)
      · refine iff_of_true (by simp [ho]) fun h => ?_
        rcases hCR with hin | ⟨hneg, -⟩
        · exact h.1.2.1 hin
        · exact absurd h.1.1 (not_le.mpr hneg)
      · refine iff_of_true ?_ fun h => h.1.2.2 htime
        rw [ho, Outcome.throws_throw]
        simp [Exn.Handled, timeoutError]
      · refine iff_of_false ?_ (not_not_intro ⟨hquiet, .inl hfull⟩)
        rw [ho, Outcome.throws_throw]
        decide
      · rw [ho, ih hs' hmem' ha', hleft, not_iff_not]
        refine ⟨fun h => ⟨hquiet, .inr h⟩, ?_⟩
        rintro ⟨-, hfull | h⟩
        · omega
        · exact h

theorem readLoop_ret_iff (hbuf : buf.length < 2 ^ 62) (hs : Filled buf.length got s)
    (hmem : s.mem = stored buf got) (ha : Answers s.left es) {n : ℕ} {mem : Bytes} :
    (dev.readLoop started es s).outcome = .ret n ∧ (dev.readLoop started es s).mem = mem ↔
      dev.Line started buf got es mem ∧ n = lineSize mem := by
  induction es generalizing got s with
  | nil => simp [readLoop, Line]
  | cons e es ih =>
      rw [Line]
      rcases dev.readLoop_step started hbuf hs hmem ha with ⟨hneg, x, hx, ho⟩ |
        ⟨hneg, -, hnew, hold, ho⟩ | ⟨hok, hCR, ho⟩ | ⟨h0, hno, htime, ho⟩ | ⟨hquiet, hfull, ho⟩ |
        ⟨hquiet, hroom, s', hs', hmem', hleft, ha', ho⟩
      · refine iff_of_false (by simp [ho]) ?_
        rintro ⟨⟨-, ⟨n, hn⟩, -⟩ | ⟨hquiet, -⟩, -⟩
        · simp [hx] at hn
        · exact absurd hquiet.1 (not_le.mpr hneg)
      · refine iff_of_false (by simp [ho]) ?_
        rintro ⟨⟨-, -, hin | ⟨-, hin⟩⟩ | ⟨hquiet, -⟩, -⟩
        · exact hnew hin
        · exact hold hin
        · exact absurd hquiet.1 (not_le.mpr hneg)
      · rw [ho]
        constructor
        · rintro ⟨hn, rfl⟩
          exact ⟨.inl ⟨rfl, hok, hCR⟩, (Outcome.ret.inj hn).symm⟩
        · rintro ⟨⟨rfl, -⟩ | ⟨hquiet, -⟩, rfl⟩
          · exact ⟨rfl, rfl⟩
          · rcases hCR with hin | ⟨hneg, -⟩
            · exact absurd hin hquiet.2.1
            · exact absurd hquiet.1 (not_le.mpr hneg)
      · refine iff_of_false (by simp [ho]) ?_
        rintro ⟨⟨-, -, hin | ⟨hneg, -⟩⟩ | ⟨hquiet, -⟩, -⟩
        · exact hno hin
        · omega
        · exact hquiet.2.2 htime
      · refine iff_of_false (by simp [ho]) ?_
        rintro ⟨⟨-, -, hin | ⟨hneg, -⟩⟩ | ⟨-, hlt, -⟩, -⟩
        · exact hquiet.2.1 hin
        · exact absurd hquiet.1 (not_le.mpr hneg)
        · rw [hs.left_eq] at hfull
          rw [List.length_append] at hlt
          omega
      · rw [ho, ih hs' hmem' ha']
        refine and_congr_left fun _ => ⟨fun h => .inr ⟨hquiet, ?_, h⟩, ?_⟩
        · rw [hs.left_eq] at hroom
          rw [List.length_append]
          omega
        · rintro (⟨-, -, hin | ⟨hneg, -⟩⟩ | ⟨-, -, h⟩)
          · exact absurd hin hquiet.2.1
          · exact absurd hquiet.1 (not_le.mpr hneg)
          · exact h

end

theorem readLoop_pending {es : List ReadEvent} {s : ReadState}
    (h : (dev.readLoop started es s).outcome = .pending) :
    ∀ e ∈ es, dev.getTimeLeft started e.now ≠ 0 := by
  induction es generalizing s with
  | nil => simp
  | cons e es ih =>
      unfold readLoop at h
      cases hread : dev.driver.read e.code with
      | error x => simp [hread] at h
      | ok n =>
          simp only [hread] at h
          cases hscan : scanBytes n { s with mem := splice s.mem s.pos e.data } with
          | found size => simp [hscan] at h
          | outside => simp [hscan] at h
          | more s' =>
              simp only [hscan] at h
              split_ifs at h with htime hfull
              exact List.forall_mem_cons.mpr ⟨htime, ih h⟩

/-! ### A transaction -/

/-- The request goes out, and there is time left for the answer. -/
def Sent (env : Script) (inbuf : Bytes) : Prop :=
  dev.WritesAll env.started (frame dev.flags inbuf).length 0 env.writes ∧
    dev.getTimeLeft env.started env.sent ≠ 0

/-- The script ends before the time of the call is up. -/
def InTime (env : Script) (inbuf : Bytes) : Prop :=
  (¬ dev.Sent env inbuf ∧ ∀ e ∈ env.writes, dev.getTimeLeft env.started e.now ≠ 0) ∨
    (dev.Sent env inbuf ∧ ∀ e ∈ env.reads, dev.getTimeLeft env.started e.now ≠ 0)

/-- What the driver libraries promise of a transaction with a buffer of `room` bytes. -/
structure Script.Plausible (env : Script) (room : ℕ) : Prop where
  writes : IntResults env.writes
  reads : Answers room env.reads

theorem checkResponse_handled (flags : Flags) (buf : Bytes) (bytesRead : ℕ) :
    Raises Exn.Handled (checkResponse flags buf bytesRead) := by
  unfold checkResponse
  dsimp only
  split_ifs
  · exact raises_error.mpr (by decide)
  · exact raises_ok _
  · exact raises_error.mpr (by simp [Exn.Handled])
  · exact raises_error.mpr (by decide)
  · exact raises_ok _

theorem lt_of_checkResponse {flags : Flags} {buf : Bytes} {bytesRead n : ℕ}
    (h : checkResponse flags buf bytesRead = .ok n) : n < bytesRead := by
  unfold checkResponse at h
  dsimp only at h
  split_ifs at h <;> obtain rfl := Except.ok.inj h <;> omega

section

variable {env : Script} {inbuf outbuf : Bytes}

theorem send_fault_iff (h : env.Plausible outbuf.length) :
    (dev.send env.started inbuf env.writes).outcome = .fault ↔
      dev.WritesOutside env.started (frame dev.flags inbuf).length 0 env.writes :=
  dev.writeLoop_fault_iff env.started h.writes (by simp)

theorem send_handled : (dev.send env.started inbuf env.writes).outcome.Throws Exn.Handled :=
  dev.writeLoop_throws env.started (by decide) (fun late => by simp [Exn.Handled, timeoutError])
    _ _ _ _ _

theorem sent_iff (h : env.Plausible outbuf.length) :
    dev.Sent env inbuf ↔ (dev.send env.started inbuf env.writes).outcome = .ret () ∧
      dev.getTimeLeft env.started env.sent ≠ 0 :=
  and_congr_left fun _ => (dev.writeLoop_ret_iff env.started h.writes (by simp)).symm

theorem run_of_sent (h : env.Plausible outbuf.length) (hsent : dev.Sent env inbuf) :
    (dev.run env inbuf outbuf).outcome = (dev.recv env.started outbuf env.reads).outcome ∧
      (dev.run env inbuf outbuf).outbuf = (dev.recv env.started outbuf env.reads).mem := by
  obtain ⟨hsend, htime⟩ := (dev.sent_iff h).mp hsent
  unfold run
  simp [hsend, htime]

theorem run_of_not_sent (h : env.Plausible outbuf.length) (hsent : ¬ dev.Sent env inbuf) :
    ((dev.run env inbuf outbuf).outcome = .fault ↔
      dev.WritesOutside env.started (frame dev.flags inbuf).length 0 env.writes) ∧
      (dev.run env inbuf outbuf).outcome.Throws Exn.Handled ∧
      (∀ n, (dev.run env inbuf outbuf).outcome ≠ .ret n) ∧
      ((dev.run env inbuf outbuf).outcome = .pending →
        ∀ e ∈ env.writes, dev.getTimeLeft env.started e.now ≠ 0) := by
  have hhandled : (dev.send env.started inbuf env.writes).outcome.Throws Exn.Handled :=
    dev.send_handled
  have hpending : (dev.send env.started inbuf env.writes).outcome = .pending →
      ∀ e ∈ env.writes, dev.getTimeLeft env.started e.now ≠ 0 :=
    dev.writeLoop_pending env.started
  rw [← dev.send_fault_iff h]
  unfold run
  cases hs : (dev.send env.started inbuf env.writes).outcome with
  | throw x => simpa [hs] using hhandled
  | fault => simp [hs]
  | pending => simpa [hs] using hpending hs
  | ret u =>
      have htime : dev.getTimeLeft env.started env.sent = 0 := by
        by_contra htime
        exact hsent ((dev.sent_iff h).mpr ⟨hs, htime⟩)
      simp [hs, htime, Exn.Handled, timeoutError]

theorem recv_pending (h : (dev.recv env.started outbuf env.reads).outcome = .pending) :
    ∀ e ∈ env.reads, dev.getTimeLeft env.started e.now ≠ 0 := by
  refine @readLoop_pending dev env.started env.reads ⟨outbuf, 0, outbuf.length, 0⟩ ?_
  rw [recv] at h
  cases hr : (dev.readLoop env.started env.reads ⟨outbuf, 0, outbuf.length, 0⟩).outcome with
  | ret n =>
      rw [hr] at h
      exact absurd h (Outcome.lift_ended _).2
  | throw x => simp [hr] at h
  | fault => simp [hr] at h
  | pending => rfl

variable (hbuf : outbuf.length < 2 ^ 62) (h : env.Plausible outbuf.length)

include hbuf h

theorem recv_fault_iff : (dev.recv env.started outbuf env.reads).outcome = .fault ↔
    dev.ReadsOutside env.started outbuf 0 env.reads := by
  have hloop := dev.readLoop_fault_iff env.started hbuf (filled_start outbuf) rfl h.reads
  rw [List.length_nil] at hloop
  rw [← hloop, recv]
  cases (dev.readLoop env.started env.reads ⟨outbuf, 0, outbuf.length, 0⟩).outcome with
  | ret n => exact iff_of_false (Outcome.lift_ended _).1 (by simp)
  | throw x => simp
  | fault => simp
  | pending => simp

theorem recv_handled_iff : (dev.recv env.started outbuf env.reads).outcome.Throws Exn.Handled ↔
    ¬ dev.Fills env.started outbuf.length env.reads := by
  have hloop := dev.readLoop_handled_iff env.started hbuf (filled_start outbuf) rfl h.reads
  rw [← hloop, recv, Outcome.throws_bind_iff]
  refine and_iff_left fun n _ => ?_
  exact Outcome.throws_lift.mpr (checkResponse_handled _ _ _)

theorem recv_ret_iff {n : ℕ} {mem : Bytes} :
    (dev.recv env.started outbuf env.reads).outcome = .ret n ∧
      (dev.recv env.started outbuf env.reads).mem = mem ↔
    dev.Line env.started outbuf [] env.reads mem ∧
      checkResponse dev.flags mem (lineSize mem) = .ok n := by
  have hloop (size : ℕ) := @readLoop_ret_iff dev env.started outbuf [] env.reads _ hbuf
    (filled_start outbuf) rfl h.reads size mem
  simp only [recv, Outcome.bind_eq_ret, Outcome.lift_eq_ret]
  constructor
  · rintro ⟨⟨size, hsize, hcheck⟩, hmem⟩
    obtain ⟨hline, rfl⟩ := (hloop size).mp ⟨hsize, hmem⟩
    rw [hmem] at hcheck
    exact ⟨hline, hcheck⟩
  · rintro ⟨hline, hcheck⟩
    obtain ⟨hsize, hmem⟩ := (hloop (lineSize mem)).mpr ⟨hline, rfl⟩
    exact ⟨⟨lineSize mem, hsize, by rwa [hmem]⟩, hmem⟩

end

end Voltronic.Device

end InverterTools
