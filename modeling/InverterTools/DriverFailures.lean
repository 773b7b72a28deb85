import InverterTools.Reception

/-! # A driver that fails

The drivers report a failure by a negative code.  The USB driver looks for it and throws; the serial
driver hands the code on as a `size_t`, and the loops take it for a count.  `readLoop_inside_iff`
and `send_delivers_iff` say that this is the only way for `readLoop` to leave its buffer and for
`writeLoop` to send anything but the frame. -/

namespace InverterTools.Voltronic.Device

variable (dev : Device) (started : UInt64)

/-! ### Reading -/

/-- What the driver libraries promise of reads into a buffer of `room` bytes; the only failure that
`hid_read_timeout` reports is `-1`. -/
def Promised (room : ℕ) (es : List ReadEvent) : Prop :=
  Answers room es ∧ (dev.driver = .usb → ∀ e ∈ es, -1 ≤ e.code)

/-- A read fails, with `room` bytes left: the reads before it have brought no carriage return, have
not filled the buffer, and there was time left. -/
def Fails : ℕ → List ReadEvent → Prop
  | _, [] => False
  | room, e :: es => e.code < 0 ∨
      (dev.Quiet started e ∧ e.data.length < room ∧ Fails (room - e.data.length) es)

/-- The call has stayed inside a buffer of `cap` bytes: no byte behind it was looked at, the size is
at most its size, and a read that failed has ended the call with a `DeviceError`. -/
structure StaysInside (cap : ℕ) (es : List ReadEvent) (r : ReadEnd) : Prop where
  inside : r.outcome ≠ .fault
  size_le : ∀ n, r.outcome = .ret n → n ≤ cap
  failed : ∃ made, es = made ++ r.unread ∧
    ∀ e ∈ made, e.code < 0 → ∃ x, r.outcome = .throw x ∧ x.cls = .deviceError

section

variable {dev started} {cap : ℕ} {e : ReadEvent} {es : List ReadEvent} {r : ReadEnd}

theorem readLoop_unread_suffix {s : ReadState} : (dev.readLoop started es s).unread <:+ es := by
  induction es generalizing s with
  | nil => exact List.suffix_rfl
  | cons e es ih =>
      have hes : es <:+ e :: es := List.suffix_cons _ _
      unfold readLoop
      cases dev.driver.read e.code with
      | error x => exact hes
      | ok n =>
          dsimp only
          cases scanBytes n { s with mem := splice s.mem s.pos e.data } with
          | found size => exact hes
          | outside => exact hes
          | more s' =>
              dsimp only
              split_ifs
              · exact hes
              · exact hes
              · exact ih.trans hes

theorem StaysInside.of_end (hunread : r.unread = es) (hinside : r.outcome ≠ .fault)
    (hsize : ∀ n, r.outcome = .ret n → n ≤ cap) (hcode : 0 ≤ e.code) :
    StaysInside cap (e :: es) r := by
  refine ⟨hinside, hsize, [e], by rw [hunread, List.singleton_append], fun e' he' hneg => ?_⟩
  rw [List.mem_singleton.mp he'] at hneg
  omega

theorem staysInside_cons_iff (hcode : 0 ≤ e.code) (hunread : r.unread <:+ es) :
    StaysInside cap (e :: es) r ↔ StaysInside cap es r := by
  constructor
  · rintro ⟨hinside, hsize, made, hmade, hfailed⟩
    cases made with
    | nil =>
        have hlen := hunread.length_le
        rw [← List.nil_append r.unread, ← hmade, List.length_cons] at hlen
        omega
    | cons d made =>
        rw [List.cons_append] at hmade
        refine ⟨hinside, hsize, made, (List.cons.inj hmade).2, fun e he => ?_⟩
        exact hfailed e (List.mem_cons_of_mem _ he)
  · rintro ⟨hinside, hsize, made, hmade, hfailed⟩
    refine ⟨hinside, hsize, e :: made, by rw [List.cons_append, ← hmade], fun d hd hneg => ?_⟩
    rcases List.mem_cons.mp hd with rfl | hd
    · omega
    · exact hfailed d hd hneg

theorem StaysInside.throws (h : StaysInside cap (e :: es) r) (hneg : e.code < 0)
    (hunread : r.unread <:+ es) : ∃ x, r.outcome = .throw x ∧ x.cls = .deviceError := by
  obtain ⟨-, -, made, hmade, hfailed⟩ := h
  cases made with
  | nil =>
      have hlen := hunread.length_le
      rw [← List.nil_append r.unread, ← hmade, List.length_cons] at hlen
      omega
  | cons d made =>
      rw [List.cons_append] at hmade
      obtain ⟨rfl, -⟩ := List.cons.inj hmade
      exact hfailed e List.mem_cons_self hneg

end

variable {dev started}

theorem read_error_cls {d : Driver} {code : ℤ} {x : Exn} (h : d.read code = .error x) :
    x.cls = .deviceError ∧ d = .usb := by
  unfold Driver.read at h
  cases d with
  | usb =>
      dsimp only at h
      split_ifs at h
      obtain rfl := Except.error.inj h
      exact ⟨rfl, rfl⟩
  | serial => cases h

/-- The USB driver takes none of its failures for a count. -/
theorem serial_of_read_ok {code : ℤ} {n : ℕ} (hneg : code < 0)
    (husb : dev.driver = .usb → -1 ≤ code) (h : dev.driver.read code = .ok n) :
    dev.driver = .serial := by
  cases hd : dev.driver with
  | serial => rfl
  | usb =>
      have hcode : code = -1 := by
        have := husb hd
        omega
      rw [hd, Driver.read, if_pos hcode] at h
      cases h

theorem readLoop_inside {buf got : Bytes} {es : List ReadEvent} {s : ReadState}
    (hbuf : buf.length < 2 ^ 62) (hs : Filled buf.length got s) (hmem : s.mem = stored buf got)
    (ha : Answers s.left es) (husb : dev.driver = .usb → ∀ e ∈ es, -1 ≤ e.code) :
    StaysInside buf.length es (dev.readLoop started es s) ↔
      ¬ (dev.driver = .serial ∧ dev.Fails started s.left es) := by
  -- by induction on the reads: the bytes `got` were received before
  induction es generalizing got s with
  | nil =>
      refine iff_of_true ⟨by simp [readLoop], by simp [readLoop], [], rfl, by simp⟩ ?_
      exact fun h => h.2
  | cons e es ih =>
      obtain ⟨hroom, -⟩ := id ha
      have hgot := hs.got_le
      have hfit : (got ++ e.data).length ≤ buf.length := by
        rw [hs.left_eq] at hroom
        rw [List.length_append]
        omega
      -- a negative code that is taken for a count is one of the serial driver
      have hserial {n : ℕ} (hneg : e.code < 0) (hn : dev.driver.read e.code = .ok n) :
          dev.driver = .serial ∧ dev.Fails started s.left (e :: es) :=
        ⟨serial_of_read_ok hneg (fun h => husb h e List.mem_cons_self) hn, .inl hneg⟩
      rcases dev.readLoop_step started hbuf hs hmem ha with ⟨hneg, x, hx, ho⟩ |
        ⟨hneg, ⟨n, hn⟩, -, -, ho⟩ | ⟨⟨n, hn⟩, hCR, ho⟩ | ⟨h0, -, htime, ho⟩ | ⟨hquiet, hfull, ho⟩ |
        ⟨hquiet, hlt, s', hs', hmem', hleft, ha', ho⟩
      · obtain ⟨hcls, hd⟩ := read_error_cls hx
        rw [ho, hd]
        refine iff_of_true ⟨by simp, by simp, [e], rfl, fun _ _ _ => ⟨x, rfl, hcls⟩⟩ ?_
        rintro ⟨hd, -⟩
        cases hd
      · rw [ho]
        exact iff_of_false (fun h => h.inside rfl) (not_not_intro (hserial hneg hn))
      · rw [ho]
        by_cases hneg : e.code < 0
        · refine iff_of_false (fun h => ?_) (not_not_intro (hserial hneg hn))
          obtain ⟨x, hx, -⟩ := h.throws hneg List.suffix_rfl
          cases hx
        · have hin : CR ∈ e.data := hCR.resolve_right fun h => hneg h.1
          refine iff_of_true (.of_end rfl (by simp) (fun n hn => ?_) (not_lt.mp hneg)) ?_
          · obtain rfl := Outcome.ret.inj hn
            have hmem : CR ∈ stored buf (got ++ e.data) :=
              List.mem_append_left _ (List.mem_append_right _ hin)
            exact (lineSize_le hmem).trans_eq (stored_length hfit)
          · rintro ⟨-, h | ⟨hquiet, -⟩⟩
            · exact hneg h
            · exact hquiet.2.1 hin
      · rw [ho]
        refine iff_of_true (.of_end rfl (by simp) (by simp) h0) ?_
        rintro ⟨-, h | ⟨hquiet, -⟩⟩
        · exact absurd h (not_lt.mpr h0)
        · exact hquiet.2.2 htime
      · rw [ho]
        refine iff_of_true (.of_end rfl (by simp) (by simp) hquiet.1) ?_
        rintro ⟨-, h | ⟨-, hlt, -⟩⟩
        · exact absurd h (not_lt.mpr hquiet.1)
        · omega
      · rw [ho, staysInside_cons_iff hquiet.1 readLoop_unread_suffix,
          ih hs' hmem' ha' fun h d hd => husb h d (List.mem_cons_of_mem _ hd), hleft, not_iff_not]
        refine and_congr_right fun _ => ⟨fun h => .inr ⟨hquiet, hlt, h⟩, ?_⟩
        rintro (h | ⟨-, -, h⟩)
        · exact absurd h (not_lt.mpr hquiet.1)
        · exact h

/-- **`readLoop` stays inside the receive buffer**, and a failing driver ends it with a
`DeviceError`, exactly when no read of the serial driver fails. -/
theorem readLoop_inside_iff (dev : Device) (started : UInt64) (buf : Bytes) (es : List ReadEvent)
    (hbuf : buf.length < 2 ^ 62) (h : dev.Promised buf.length es) :
    StaysInside buf.length es (dev.readLoop started es ⟨buf, 0, buf.length, 0⟩) ↔
      ¬ (dev.driver = .serial ∧ dev.Fails started buf.length es) :=
  readLoop_inside hbuf (filled_start buf) rfl h.1 h.2

/-- A USB device that answers with three bytes and then fails. -/
theorem readLoop_inside_usb :
    StaysInside 8 [⟨3, ascii "^D0", 1, 1⟩, ⟨-1, [], 2, 2⟩]
        (readLoop ⟨.usb, defaultFlags, TIMEOUT⟩ 0 [⟨3, ascii "^D0", 1, 1⟩, ⟨-1, [], 2, 2⟩]
          ⟨List.replicate 8 0, 0, 8, 0⟩) ↔
      ¬ (Driver.usb = .serial ∧ Fails ⟨.usb, defaultFlags, TIMEOUT⟩ 0 8
        [⟨3, ascii "^D0", 1, 1⟩, ⟨-1, [], 2, 2⟩]) :=
  readLoop_inside_iff ⟨.usb, defaultFlags, TIMEOUT⟩ 0 (List.replicate 8 0)
    [⟨3, ascii "^D0", 1, 1⟩, ⟨-1, [], 2, 2⟩] (by decide)
    ⟨⟨by decide, .inl ⟨by decide, by decide, .inr ⟨by decide, by decide⟩⟩⟩,
      fun _ => by decide⟩

/-- On a serial port, a failing first read into a buffer of zeros makes `readLoop` look behind the
buffer. -/
theorem readLoop_leaves_inside : ¬ ∀ (dev : Device) (started : UInt64) (buf : Bytes)
    (es : List ReadEvent), buf.length < 2 ^ 62 → dev.Promised buf.length es →
    StaysInside buf.length es (dev.readLoop started es ⟨buf, 0, buf.length, 0⟩) := by
  intro h
  have hbuf : (List.replicate 8 (0 : UInt8)).length < 2 ^ 62 := by decide
  have hpromised : Promised ⟨.serial, defaultFlags, TIMEOUT⟩ (List.replicate 8 (0 : UInt8)).length
      [⟨-3, [], 1, 1⟩] :=
    ⟨⟨by decide, .inr ⟨by decide, by decide⟩⟩, fun hd => by cases hd⟩
  have hfault : (readLoop ⟨.serial, defaultFlags, TIMEOUT⟩ 0 [⟨-3, [], 1, 1⟩]
      ⟨List.replicate 8 0, 0, (List.replicate 8 (0 : UInt8)).length, 0⟩).outcome = .fault := by
    decide
  exact (h _ 0 _ _ hbuf hpromised).inside hfault

/-! ### Writing -/

end Device

/-- The bytes that one call of `write` is for, out of those that are left. -/
def Driver.window (d : Driver) (rest : Bytes) : Bytes :=
  match d with
  | .usb => rest.take (hidReportSize rest.length)
  | .serial => rest

/-- A call of the driver library: its result, the bytes it was offered and those it accepted. -/
structure WriteCall where
  code : ℤ
  offered : Bytes
  accepted : Bytes
deriving DecidableEq, Repr

namespace Device

variable (dev : Device) (started : UInt64)

/-- The calls that `writeLoop` makes. -/
def writeCalls (data : Bytes) (off bytesLeft : ℤ) : List WriteEvent → List WriteCall
  | [] => []
  | e :: es =>
      if off < 0 ∨ data.length < off + bytesLeft then []
      else
        let rest := (data.drop off.toNat).take bytesLeft.toNat
        let offered := dev.driver.padded (dev.driver.window rest)
        match dev.driver.write e.code with
        | .error _ => [⟨e.code, offered, []⟩]
        | .ok bytesWritten =>
            let accepted := if e.code < 0 then [] else dev.driver.padded (rest.take e.taken)
            let bytesLeft := bytesLeft - toInt bytesWritten
            if bytesLeft ≤ 0 then [⟨e.code, offered, accepted⟩]
            else if dev.getTimeLeft started e.now = 0 then [⟨e.code, offered, accepted⟩]
            else ⟨e.code, offered, accepted⟩ ::
              writeCalls data (off + toOffset bytesWritten) bytesLeft es

/-- What the driver libraries promise of writes of `left` bytes: `hid_write` takes a whole report or
fails with `-1`; `sp_blocking_write` reports the number of bytes it took, or a negative code when it
took none. -/
def Accepts : ℕ → List WriteEvent → Prop
  | _, [] => True
  | left, e :: es =>
      (e.taken ≤ left ∧ Accepts (left - e.taken) es ∧
        match dev.driver with
        | .usb => e.code = 9 ∧ e.taken = hidReportSize left
        | .serial => e.code = e.taken) ∨
      (e.taken = 0 ∧
        match dev.driver with
        | .usb => e.code = -1
        | .serial => e.code < 0 ∧ -2 ^ 31 ≤ e.code)

/-- A write fails before the time is up, with `left` bytes left. -/
def FailsInTime : ℕ → List WriteEvent → Prop
  | _, [] => False
  | left, e :: es => dev.getTimeLeft started e.now ≠ 0 ∧
      (e.code < 0 ∨ (e.taken < left ∧ FailsInTime (left - e.taken) es))

/-- The calls offer the frame from behind the bytes that were accepted, `k` of them before. -/
def Consecutive (d : Driver) (data : Bytes) : ℕ → List WriteCall → Prop
  | _, [] => True
  | k, c :: cs => c.offered = d.padded (d.window (data.drop k)) ∧
      Consecutive d data (k + c.accepted.length) cs

/-- The frame is delivered from its byte `k` on: every call is for the bytes behind those accepted,
these are the head of the frame (over USB, with the last report filled up), all of it when
`writeLoop` returns; and a call that fails ends it with an exception, as the last one. -/
structure DeliversFrame (d : Driver) (data : Bytes) (k : ℕ) (w : WriteEnd)
    (calls : List WriteCall) : Prop where
  inside : w.outcome ≠ .fault
  consecutive : Consecutive d data k calls
  accepted_prefix : (calls.map WriteCall.accepted).flatten <+: (d.padded data).drop k
  wire_prefix : w.wire <+: d.padded data
  whole : w.outcome = .ret () →
    (calls.map WriteCall.accepted).flatten = (d.padded data).drop k ∧ w.wire = d.padded data
  failed_throws : ∀ c ∈ calls, c.code < 0 → ∃ x, w.outcome = .throw x
  failed_last : ∀ c ∈ calls.dropLast, 0 ≤ c.code

/-! One call. -/

section

variable {dev started} {data : Bytes} {k : ℕ}

theorem Driver.padded_drop {d : Driver} (hmod : d = .usb → k % 8 = 0) (hk : k ≤ data.length) :
    (d.padded data).drop k = d.padded (data.drop k) := by
  have hlen : (data.take k).length = k := List.length_take_of_le hk
  have hsplit := @Driver.padded_append d (data.take k) (by rwa [hlen]) (data.drop k)
  rw [List.take_append_drop] at hsplit
  rw [hsplit, List.drop_left' hlen]

/-- The bytes that a call puts on the bus for `n` bytes of the frame, in front of those still to
come. -/
theorem padded_append_drop {d : Driver} {n : ℕ} (hk : k < data.length)
    (hn : n ≤ data.length - k) (husb : d = .usb → k % 8 = 0 ∧ n = hidReportSize (data.length - k)) :
    d.padded ((data.drop k).take n) ++
        (d.padded data).drop (k + (d.padded ((data.drop k).take n)).length) =
      (d.padded data).drop k := by
  have hdrop := @Driver.padded_drop data k d (fun hd => (husb hd).1) hk.le
  by_cases hlast : n < data.length - k
  · have hlen : ((data.drop k).take n).length = n := by
      rw [List.length_take, List.length_drop]
      omega
    have hwhole : d = .usb → ((data.drop k).take n).length % 8 = 0 := by
      intro hd
      have hreport := (husb hd).2
      unfold hidReportSize at hreport
      split_ifs at hreport <;> omega
    obtain ⟨j, -, hpadded⟩ := d.exists_padded_eq (data.drop k)
    have hle : n ≤ (data.drop k).length := by
      rw [List.length_drop]
      exact hn
    rw [Driver.padded_of_mod hwhole, hlen, ← List.drop_drop, hdrop, hpadded,
      List.drop_append_of_le_length hle, ← List.append_assoc, List.take_append_drop]
  · rw [List.take_of_length_le (by rw [List.length_drop]; omega), ← List.drop_drop, hdrop,
      List.drop_length, List.append_nil]

/-- **One accepted call.**  Its count moves the pointer to the first byte that was not accepted; it
is the last call when none is left. -/
theorem write_accepted {e : WriteEvent} (hlen : data.length < 2 ^ 31) (hk : k < data.length)
    (hmod : dev.driver = .usb → k % 8 = 0) (htaken : e.taken ≤ data.length - k)
    (hcode : match dev.driver with
      | .usb => e.code = 9 ∧ e.taken = hidReportSize (data.length - k)
      | .serial => e.code = e.taken) :
    0 ≤ e.code ∧ ∃ count, dev.driver.write e.code = .ok count ∧ ∃ n : ℕ,
      n = (dev.driver.padded ((data.drop k).take e.taken)).length ∧ toInt count = n ∧
      toOffset count = n ∧
      (data.length - k ≤ n → e.taken = data.length - k ∧
        (dev.driver.padded data).length ≤ k + n) ∧
      (n < data.length - k → e.taken = n ∧ (dev.driver = .usb → (k + n) % 8 = 0)) := by
  have hlen' : ((data.drop k).take e.taken).length = e.taken := by
    rw [List.length_take, List.length_drop]
    omega
  cases hd : dev.driver with
  | serial =>
      simp only [hd] at hcode
      have hsize : toSize e.code = e.taken := by
        unfold toSize
        omega
      refine ⟨by omega, e.taken, by simp only [Driver.write, hsize], e.taken, hlen'.symm, ?_, ?_,
        fun h => ⟨by omega, ?_⟩, fun _ => ⟨rfl, fun h => by cases h⟩⟩
      · exact toInt_of_lt (by omega)
      · exact toOffset_of_lt (by omega)
      · simp only [Driver.padded]
        omega
  | usb =>
      simp only [hd] at hcode
      obtain ⟨hcode, htaken'⟩ := hcode
      have hreport : (Driver.usb.padded ((data.drop k).take e.taken)).length = 8 := by
        simp only [Driver.padded, List.length_append, List.length_replicate, hlen']
        unfold hidReportSize at htaken'
        split_ifs at htaken' <;> omega
      have hmod := hmod hd
      unfold hidReportSize at htaken'
      refine ⟨by omega, 8, by rw [hcode]; rfl, 8, hreport.symm, rfl, rfl, fun h => ?_, fun h => ?_⟩
      · refine ⟨by split_ifs at htaken' <;> omega, ?_⟩
        simp only [Driver.padded, List.length_append, List.length_replicate]
        omega
      · split_ifs at htaken'
        exact ⟨htaken', fun _ => by omega⟩

theorem bmod_emod_of_int {code : ℤ} (h1 : -2 ^ 31 ≤ code) (h2 : code < 2 ^ 31) :
    Int.bmod (code % 2 ^ 64) (2 ^ 64) = code := by
  rw [Int.bmod_def]
  push_cast
  split_ifs <;> omega

theorem toInt_toSize {code : ℤ} (h1 : -2 ^ 31 ≤ code) (h2 : code < 2 ^ 31) :
    toInt (toSize code) = code := by
  have hn : ((toSize code : ℕ) : ℤ) = code % 2 ^ 64 := by
    unfold toSize
    omega
  have hw : Driver.serial.write code = .ok (toSize code) := rfl
  rw [← toOffset_of_write h1 h2 hw]
  unfold toOffset
  rw [hn]
  exact bmod_emod_of_int h1 h2

theorem DeliversFrame.single {d : Driver} {w : WriteEnd} {c : WriteCall}
    (hinside : w.outcome ≠ .fault) (hoffered : c.offered = d.padded (d.window (data.drop k)))
    (hpre : c.accepted <+: (d.padded data).drop k) (hwire : w.wire <+: d.padded data)
    (hwhole : w.outcome = .ret () →
      c.accepted = (d.padded data).drop k ∧ w.wire = d.padded data)
    (hthrow : c.code < 0 → ∃ x, w.outcome = .throw x) : DeliversFrame d data k w [c] := by
  have hflat : ([c].map WriteCall.accepted).flatten = c.accepted := by simp
  refine ⟨hinside, ⟨hoffered, trivial⟩, by rwa [hflat], hwire, by rwa [hflat], ?_, ?_⟩
  · intro c' hc'
    rwa [List.mem_singleton.mp hc']
  · intro c' hc'
    cases hc'

theorem deliversFrame_cons_iff {d : Driver} {w : WriteEnd} {c : WriteCall} {cs : List WriteCall}
    (hcode : 0 ≤ c.code) (hoffered : c.offered = d.padded (d.window (data.drop k)))
    (hsplit : c.accepted ++ (d.padded data).drop (k + c.accepted.length) =
      (d.padded data).drop k) :
    DeliversFrame d data k w (c :: cs) ↔ DeliversFrame d data (k + c.accepted.length) w cs := by
  have hflat : ((c :: cs).map WriteCall.accepted).flatten =
      c.accepted ++ (cs.map WriteCall.accepted).flatten := by
    rw [List.map_cons, List.flatten_cons]
  constructor
  · rintro ⟨h1, ⟨-, h2⟩, h3, h4, h5, h6, h7⟩
    rw [hflat, ← hsplit] at h3
    rw [hflat, ← hsplit] at h5
    refine ⟨h1, h2, (List.prefix_append_right_inj _).mp h3, h4,
      fun h => ⟨List.append_cancel_left (h5 h).1, (h5 h).2⟩,
      fun c' hc' => h6 c' (List.mem_cons_of_mem _ hc'), fun c' hc' => h7 c' ?_⟩
    cases cs with
    | nil => cases hc'
    | cons c'' cs => exact List.mem_cons_of_mem _ hc'
  · rintro ⟨h1, h2, h3, h4, h5, h6, h7⟩
    refine ⟨h1, ⟨hoffered, h2⟩, ?_, h4, fun h => ⟨?_, (h5 h).2⟩, fun c' hc' hneg => ?_,
      fun c' hc' => ?_⟩
    · rw [hflat, ← hsplit]
      exact (List.prefix_append_right_inj _).mpr h3
    · rw [hflat, ← hsplit, (h5 h).1]
    · rcases List.mem_cons.mp hc' with rfl | hc'
      · omega
      · exact h6 c' hc' hneg
    · cases cs with
      | nil => cases hc'
      | cons c'' cs =>
          rcases List.mem_cons.mp hc' with rfl | hc'
          · exact hcode
          · exact h7 c' hc'

theorem not_deliversFrame_of_neg {d : Driver} {w : WriteEnd} {c : WriteCall}
    {cs : List WriteCall} (hneg : c.code < 0) (hnil : cs = [] → ∀ x, w.outcome ≠ .throw x) :
    ¬ DeliversFrame d data k w (c :: cs) := by
  intro h
  cases cs with
  | nil =>
      obtain ⟨x, hx⟩ := h.failed_throws c List.mem_cons_self hneg
      exact hnil rfl x hx
  | cons c' cs =>
      have := h.failed_last c List.mem_cons_self
      omega

/-- Without a call there is no exception either. -/
theorem writeLoop_of_no_calls {off left : ℤ} {wire : Bytes} {es : List WriteEvent}
    (h : dev.writeCalls started data off left es = []) :
    ∀ x, (dev.writeLoop started data off left wire es).outcome ≠ .throw x := by
  cases es with
  | nil => simp [writeLoop]
  | cons e es =>
      unfold writeCalls at h
      unfold writeLoop
      by_cases hrange : off < 0 ∨ data.length < off + left
      · simp [if_pos hrange]
      · rw [if_neg hrange] at h
        cases hw : dev.driver.write e.code with
        | error x => simp [hw] at h
        | ok n =>
            simp only [hw] at h
            split_ifs at h

theorem writeLoop_delivers {es : List WriteEvent} {wire : Bytes} (hlen : data.length < 2 ^ 31)
    (hk : k < data.length) (hmod : dev.driver = .usb → k % 8 = 0) (hwire : wire = data.take k)
    (ha : dev.Accepts (data.length - k) es) :
    DeliversFrame dev.driver data k (dev.writeLoop started data k (data.length - k : ℕ) wire es)
        (dev.writeCalls started data k (data.length - k : ℕ) es) ↔
      ¬ (dev.driver = .serial ∧ dev.FailsInTime started (data.length - k) es) := by
  -- by induction on the writes: `k` bytes were accepted before
  induction es generalizing k wire with
  | nil =>
      refine iff_of_true ⟨by simp [writeLoop], trivial, List.nil_prefix, ?_, by simp [writeLoop],
        by simp [writeCalls], by simp [writeCalls]⟩ fun h => h.2
      rw [writeLoop, hwire]
      exact dev.driver.take_isPrefix_padded k data
  | cons e es ih =>
      have hrange : ¬ ((k : ℤ) < 0 ∨ (data.length : ℤ) < k + (data.length - k : ℕ)) := by omega
      have hrest : (data.drop ((k : ℤ).toNat)).take ((data.length - k : ℕ) : ℤ).toNat =
          data.drop k := by
        rw [Int.toNat_natCast, Int.toNat_natCast]
        exact List.take_of_length_le (by rw [List.length_drop])
      rw [writeLoop, writeCalls, if_neg hrange, if_neg hrange]
      simp only [hrest]
      rcases ha with ⟨htaken, ha, hcode⟩ | ⟨htaken, hcode⟩
      · obtain ⟨h0, count, hw, n, hn, hint, hoff, hlast, hmore⟩ :=
          write_accepted hlen hk hmod htaken hcode
        have hsplit := padded_append_drop hk htaken fun hd => ⟨hmod hd, by
          simp only [hd] at hcode
          exact hcode.2⟩
        rw [← hn] at hsplit
        simp only [hw, hint, hoff, if_neg (not_lt.mpr h0), Int.toNat_natCast, hwire]
        by_cases hdone : ((data.length - k : ℕ) : ℤ) - n ≤ 0
        · obtain ⟨hall, hpadded⟩ := hlast (by omega)
          rw [if_pos hdone, if_pos hdone, Driver.padded_take_last hmod hk.le (by omega)]
          refine iff_of_true (.single (by simp) rfl ⟨_, hsplit⟩ List.prefix_rfl
            (fun _ => ⟨?_, rfl⟩) fun hneg => absurd hneg (not_lt.mpr h0)) ?_
          · rw [← hsplit, List.drop_of_length_le hpadded, List.append_nil]
          · rintro ⟨-, -, hneg | ⟨hlt, -⟩⟩ <;> omega
        obtain ⟨htaken', hmod'⟩ := hmore (by omega)
        have hwhole : dev.driver = .usb → n % 8 = 0 := by
          intro hd
          have := hmod hd
          have := hmod' hd
          omega
        have hhead : data.take k ++ dev.driver.padded ((data.drop k).take e.taken) =
            data.take (k + n) := by
          rw [htaken', Driver.padded_take hwhole (by omega)]
        rw [if_neg hdone, if_neg hdone, hhead]
        by_cases htime : dev.getTimeLeft started e.now = 0
        · rw [if_pos htime, if_pos htime]
          refine iff_of_true (.single (by simp) rfl ⟨_, hsplit⟩
            (dev.driver.take_isPrefix_padded _ _) (by simp)
            fun hneg => absurd hneg (not_lt.mpr h0)) ?_
          exact fun h => h.2.1 htime
        · rw [if_neg htime, if_neg htime]
          have hoff' : (k : ℤ) + n = ((k + n : ℕ) : ℤ) := (Nat.cast_add k n).symm
          have hleft' : ((data.length - k : ℕ) : ℤ) - n = ((data.length - (k + n) : ℕ) : ℤ) := by
            omega
          have ha' : dev.Accepts (data.length - (k + n)) es := by
            rwa [htaken', Nat.sub_sub] at ha
          rw [deliversFrame_cons_iff h0 rfl (by rwa [← hn]), ← hn, hoff', hleft',
            ih (by omega) hmod' rfl ha', not_iff_not]
          simp only [FailsInTime, htime, htaken', ne_eq, not_false_eq_true, true_and,
            Nat.sub_sub]
          refine and_congr_right fun _ => ⟨fun h => .inr ⟨by omega, h⟩, ?_⟩
          rintro (hneg | ⟨-, h⟩)
          · exact absurd hneg (not_lt.mpr h0)
          · exact h
      · have hpre (d : Driver) : wire <+: d.padded data := hwire ▸ d.take_isPrefix_padded k data
        cases hd : dev.driver with
        | usb =>
            simp only [hd] at hcode
            have hw : Driver.usb.write e.code =
                .error ⟨.deviceError, ascii "hidapi_write() failed"⟩ := by
              rw [Driver.write, if_pos hcode]
            simp only [hw]
            refine iff_of_true (.single (by simp) rfl List.nil_prefix (hpre _) (by simp)
              fun _ => ⟨_, rfl⟩) ?_
            rintro ⟨hserial, -⟩
            cases hserial
        | serial =>
            simp only [hd] at hcode
            obtain ⟨hneg, hint⟩ := hcode
            have hw : Driver.serial.write e.code = .ok (toSize e.code) := rfl
            have hcast := toInt_toSize hint (by omega)
            simp only [hw, hcast, if_pos hneg, htaken, List.take_zero, Driver.padded_nil,
              List.append_nil]
            have hdone : ¬ ((data.length - k : ℕ) : ℤ) - e.code ≤ 0 := by omega
            rw [if_neg hdone, if_neg hdone]
            by_cases htime : dev.getTimeLeft started e.now = 0
            · rw [if_pos htime, if_pos htime]
              refine iff_of_true (.single (by simp) rfl List.nil_prefix (hpre _) (by simp)
                fun _ => ⟨_, rfl⟩) ?_
              exact fun h => h.2.1 htime
            · rw [if_neg htime, if_neg htime]
              exact iff_of_false
                (not_deliversFrame_of_neg hneg fun hnil => writeLoop_of_no_calls hnil)
                (not_not_intro ⟨trivial, htime, .inl hneg⟩)

end

/-- **The frame is delivered**, whatever the driver does, exactly when no write of the serial driver
fails while there is time left. -/
theorem send_delivers_iff (dev : Device) (started : UInt64) (buf : Bytes) (es : List WriteEvent)
    (hlen : (frame dev.flags buf).length < 2 ^ 31)
    (ha : dev.Accepts (frame dev.flags buf).length es) :
    DeliversFrame dev.driver (frame dev.flags buf) 0 (dev.send started buf es)
        (dev.writeCalls started (frame dev.flags buf) 0 (frame dev.flags buf).length es) ↔
      ¬ (dev.driver = .serial ∧ dev.FailsInTime started (frame dev.flags buf).length es) := by
  have hpos : 0 < (frame dev.flags buf).length := by
    unfold frame
    split_ifs <;> simp
  exact writeLoop_delivers hlen hpos (fun _ => rfl) rfl ha

/-- Eight bytes in two serial writes. -/
theorem send_delivers_serial :
    DeliversFrame .serial (frame defaultFlags (ascii "^P005")) 0
        (send ⟨.serial, defaultFlags, TIMEOUT⟩ 0 (ascii "^P005") [⟨3, 3, 1, 1⟩, ⟨5, 5, 2, 2⟩])
        (writeCalls ⟨.serial, defaultFlags, TIMEOUT⟩ 0 (frame defaultFlags (ascii "^P005")) 0
          (frame defaultFlags (ascii "^P005")).length [⟨3, 3, 1, 1⟩, ⟨5, 5, 2, 2⟩]) ↔
      ¬ (Driver.serial = .serial ∧ FailsInTime ⟨.serial, defaultFlags, TIMEOUT⟩ 0
        (frame defaultFlags (ascii "^P005")).length [⟨3, 3, 1, 1⟩, ⟨5, 5, 2, 2⟩]) :=
  send_delivers_iff ⟨.serial, defaultFlags, TIMEOUT⟩ 0 (ascii "^P005")
    [⟨3, 3, 1, 1⟩, ⟨5, 5, 2, 2⟩] (by decide)
    (.inl ⟨by decide, .inl ⟨by decide, trivial, rfl⟩, rfl⟩)

/-- On a serial port, the write after a failed one is for bytes in front of the frame. -/
theorem send_not_delivered : ¬ ∀ (dev : Device) (started : UInt64) (buf : Bytes)
    (es : List WriteEvent), (frame dev.flags buf).length < 2 ^ 31 →
    dev.Accepts (frame dev.flags buf).length es →
    DeliversFrame dev.driver (frame dev.flags buf) 0 (dev.send started buf es)
      (dev.writeCalls started (frame dev.flags buf) 0 (frame dev.flags buf).length es) := by
  intro h
  have hdelivers := h ⟨.serial, defaultFlags, TIMEOUT⟩ 0 (ascii "^P005")
    [⟨-3, 0, 1, 1⟩, ⟨8, 8, 2, 2⟩] (by decide) (.inr ⟨rfl, by decide, by decide⟩)
  have hfault : (send ⟨.serial, defaultFlags, TIMEOUT⟩ 0 (ascii "^P005")
      [⟨-3, 0, 1, 1⟩, ⟨8, 8, 2, 2⟩]).outcome = .fault := by
    decide
  exact hdelivers.inside hfault

end InverterTools.Voltronic.Device
