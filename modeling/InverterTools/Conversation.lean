import InverterTools.Framing
import InverterTools.ResponseFraming
import InverterTools.Segments

/-! # What a client reads (`Connection::run`, `sendResponse`, `writeLoop`)

`Connection::run` with everything in it: it reads a request, processes it and sends the response
before it reads on.  A turn is what a request meets: what other connections have done to the server
since the last one, the device and the clock, and the results of `send`.

`writeLoop_spec` says what one `sendResponse` leaves on the socket.  `stream_of_responses` is about
any connection at all: what the client gets are the responses to its requests, one for each, in
order, and nothing else, of the last one possibly a part.  `conversation` puts it together with the
reading side. -/

namespace InverterTools.Connection

open Formatter (JsonDump)
open P18 (Machine)
open Server (Event RecvStep Recv RequestLine RequestType RunEnd bufSize closes readLoop run react
  tokenise)

/-! ### Sending a response -/

/-- A result of `send`: the number of bytes it accepted, or `-1`. -/
inductive SendResult where
  | sent (n : ℕ)
  | error
deriving DecidableEq, Repr

/-- How `writeLoop` ended, and the bytes the socket has accepted. -/
structure SendEnd where
  outcome : Outcome Exn Bool
  sent : Bytes
deriving DecidableEq, Repr

/-- `writeLoop`, with `pos` for `bufptr - buf`. -/
def writeLoop (buf : Bytes) : ℕ → ℤ → List SendResult → SendEnd
  | _, left, [] => if left ≤ 0 then ⟨.ret true, []⟩ else ⟨.pending, []⟩
  | pos, left, e :: es =>
      if left ≤ 0 then ⟨.ret true, []⟩
      else if buf.length < pos + left then ⟨.fault, []⟩
      else match e with
        | .error => ⟨.ret false, []⟩
        | .sent bytesSent =>
            let r := writeLoop buf (pos + bytesSent) (left - toInt bytesSent) es
            ⟨r.outcome, (buf.drop pos).take bytesSent ++ r.sent⟩

/-- `sendResponse`. -/
def sendResponse (response : Response) (es : List SendResult) : SendEnd :=
  writeLoop response.put 0 (toInt response.put.length) es

/-- What `send` promises: it accepts at most what it is given. -/
def Promised : ℕ → List SendResult → Prop
  | left, .sent n :: es => n ≤ left ∧ Promised (left - n) es
  | _, _ => True

/-- The text has gone out, or a part of it, and then `send` has failed or has not come back. -/
inductive Delivery (text : Bytes) (w : SendEnd) : Prop where
  | whole (houtcome : w.outcome = .ret true) (hsent : w.sent = text)
  | part (houtcome : w.outcome = .ret false ∨ w.outcome = .pending) (rest : Bytes)
      (hrest : rest ≠ []) (htext : text = w.sent ++ rest)

theorem writeLoop_spec {buf : Bytes} (hshort : buf.length < 2 ^ 31) :
    ∀ {es : List SendResult} {pos left : ℕ}, pos + left = buf.length → Promised left es →
      Delivery (buf.drop pos) (writeLoop buf pos left es)
  | [], pos, 0, hpos, _ => by
      apply Delivery.whole
      · rfl
      · exact (List.drop_of_length_le (by omega)).symm
  | [], pos, left + 1, hpos, _ => by
      apply Delivery.part (.inr rfl) (buf.drop pos)
      · rw [ne_eq, List.drop_eq_nil_iff]
        omega
      · rfl
  | e :: es, pos, 0, hpos, _ => by
      apply Delivery.whole
      · rfl
      · exact (List.drop_of_length_le (by omega)).symm
  | .error :: es, pos, left + 1, hpos, _ => by
      have hrange : ¬ (buf.length : ℤ) < pos + (left + 1 : ℕ) := by omega
      unfold writeLoop
      rw [if_neg (by omega), if_neg hrange]
      apply Delivery.part (.inl rfl) (buf.drop pos)
      · rw [ne_eq, List.drop_eq_nil_iff]
        omega
      · rfl
  | .sent n :: es, pos, left + 1, hpos, hpromised => by
      obtain ⟨hle, hrest⟩ := hpromised
      have hrange : ¬ (buf.length : ℤ) < pos + (left + 1 : ℕ) := by omega
      have hleft : ((left + 1 : ℕ) : ℤ) - toInt n = (left + 1 - n : ℕ) := by
        rw [Voltronic.Device.toInt_of_lt (by omega)]
        omega
      unfold writeLoop
      rw [if_neg (by omega), if_neg hrange]
      dsimp only
      rw [hleft]
      have hsplit : buf.drop pos = (buf.drop pos).take n ++ buf.drop (pos + n) := by
        rw [← List.drop_drop, List.take_append_drop]
      cases writeLoop_spec hshort (by omega : pos + n + (left + 1 - n) = buf.length) hrest with
      | whole houtcome hsent =>
          refine .whole houtcome ?_
          dsimp only
          rw [hsent, ← hsplit]
      | part houtcome rest hne htext =>
          refine .part houtcome rest hne ?_
          dsimp only
          rw [List.append_assoc, ← htext, ← hsplit]

theorem sendResponse_spec {response : Response} (hshort : response.put.length < 2 ^ 31)
    {es : List SendResult} (hpromised : Promised response.put.length es) :
    Delivery response.put (sendResponse response es) := by
  have h := writeLoop_spec hshort (Nat.zero_add _) hpromised
  rwa [List.drop_zero, ← Voltronic.Device.toInt_of_lt hshort] at h

/-! ### A connection -/

/-- What a request meets. -/
structure Turn where
  others : List Event
  depth : ℕ
  env : Server.Env
  uninitialised : Option RequestType
  sends : List SendResult

/-- The options of the connection, and the server. -/
structure Situation where
  options : ConnectionOptions
  server : Server

section

variable (J : JsonDump) (m : Machine)

/-- `processRequest`, once the others have had their turn. -/
def handle (x : Situation × (Bytes × Turn)) : RequestEnd :=
  let turn := x.2.2
  processRequest J m turn.depth x.1.options (turn.others.foldl (react m) x.1.server) turn.env
    turn.uninitialised x.2.1

/-- The situation after a request. -/
def after (s : Situation) (p : Bytes × Turn) : Situation :=
  ⟨(handle J m (s, p)).options, (handle J m (s, p)).server⟩

/-- The response to a request, if there is one. -/
def response (x : Situation × (Bytes × Turn)) : Option Response :=
  match (handle J m x).outcome with
  | .ret response => some response
  | _ => none

/-- `processRequest` and `sendResponse`. -/
def serve (x : Situation × (Bytes × Turn)) : SendEnd :=
  match (handle J m x).outcome with
  | .ret response => sendResponse response x.2.2.sends
  | .throw e => ⟨.throw e, []⟩
  | .fault => ⟨.fault, []⟩
  | .pending => ⟨.pending, []⟩

/-- The requests of a connection, with the situations and the turns they meet. -/
def exchanges (s : Situation) (turns : List Turn) (requests : List Bytes) :
    List (Situation × (Bytes × Turn)) :=
  trace (after J m) s (requests.zip turns)

/-- What `Connection::run` does with the last of its requests. -/
def respond (s : Situation) (turns : List Turn) (requests : List Bytes) : Outcome Exn Bool :=
  if turns.length < requests.length then .pending
  else match (exchanges J m s turns requests).getLast? with
    | some x => (serve J m x).outcome
    | none => .pending

/-- What the client gets. -/
def received (s : Situation) (turns : List Turn) (requests : List Bytes) : Bytes :=
  (exchanges J m s turns requests).flatMap fun x => (serve J m x).sent

end

/-! ### Rounds of `Connection::run` -/

/-- What a round does: it hands no request on; a request, and that was the last; or a request that
is answered, and the loop goes on. -/
inductive Round (respond : List Bytes → Outcome Exn Bool) (fuel : ℕ) (requests : List Bytes) :
    RunEnd → Prop where
  | stop (o : Outcome Exn Unit) (steps : List RecvStep) :
      Round respond fuel requests ⟨o, requests, steps⟩
  | last (o : Outcome Exn Unit) (s : Bytes) (steps : List RecvStep) :
      Round respond fuel requests ⟨o, requests ++ [s], steps⟩
  | next (mem s : Bytes) (rs : List Recv) (steps : List RecvStep)
      (hrespond : respond (requests ++ [s]) = .ret true) :
      Round respond fuel requests
        ⟨(run respond fuel mem rs (requests ++ [s])).outcome,
          (run respond fuel mem rs (requests ++ [s])).requests,
          steps ++ (run respond fuel mem rs (requests ++ [s])).steps⟩

theorem run_round (respond : List Bytes → Outcome Exn Bool) (fuel : ℕ) (mem : Bytes)
    (rs : List Recv) (requests : List Bytes) :
    Round respond fuel requests (run respond (fuel + 1) mem rs requests) := by
  unfold run
  dsimp only
  cases (readLoop rs mem 0 (bufSize - 1) 0).outcome with
  | throw x => exact .stop _ _
  | fault => exact .stop _ _
  | pending => exact .stop _ _
  | ret rcvd =>
      dsimp only
      split_ifs
      · exact .stop _ _
      · exact .stop _ _
      · cases hrespond : respond (requests ++
            [cstr ((readLoop rs mem 0 (bufSize - 1) 0).mem.set rcvd.toNat 0)]) with
        | throw x => exact .last _ _ _
        | fault => exact .last _ _ _
        | pending => exact .last _ _ _
        | ret b =>
            cases b with
            | false => exact .last _ _ _
            | true => exact .next _ _ _ _ hrespond

/-- The requests of a run go on from those before it, and each but the last has been answered. -/
theorem run_answered {respond : List Bytes → Outcome Exn Bool} : ∀ (fuel : ℕ) (mem : Bytes)
    (rs : List Recv) (requests : List Bytes),
    let r := run respond fuel mem rs requests
    requests <+: r.requests ∧ ∀ k, requests.length < k → k < r.requests.length →
      respond (r.requests.take k) = .ret true
  | 0, mem, rs, requests => ⟨List.prefix_rfl, fun k h h' => absurd (h.trans h') (lt_irrefl _)⟩
  | fuel + 1, mem, rs, requests => by
      have hround := run_round respond fuel mem rs requests
      generalize run respond (fuel + 1) mem rs requests = r at hround ⊢
      cases hround with
      | stop o steps => exact ⟨List.prefix_rfl, fun k h h' => absurd (h.trans h') (lt_irrefl _)⟩
      | last o s steps =>
          refine ⟨List.prefix_append _ _, fun k hlt hlt' => ?_⟩
          simp only [List.length_append, List.length_singleton] at hlt'
          omega
      | next mem' s rs' steps hrespond =>
          obtain ⟨hpre, hanswered⟩ := run_answered fuel mem' rs' (requests ++ [s])
          refine ⟨(List.prefix_append _ _).trans hpre, fun k hlt hlt' => ?_⟩
          have hlen : (requests ++ [s]).length = requests.length + 1 := by simp
          rcases Nat.lt_or_ge (requests.length + 1) k with hk | hk
          · exact hanswered k (by omega) hlt'
          · rw [show k = (requests ++ [s]).length by omega, ← List.prefix_iff_eq_take.mp hpre]
            exact hrespond

theorem run_congr {respond respond' : List Bytes → Outcome Exn Bool} : ∀ (fuel : ℕ) (mem : Bytes)
    (rs : List Recv) (requests : List Bytes),
    (∀ requests', requests.length < requests'.length →
      requests' <+: (run respond' fuel mem rs requests).requests →
      respond requests' = respond' requests') →
    run respond fuel mem rs requests = run respond' fuel mem rs requests
  | 0, mem, rs, requests, _ => rfl
  | fuel + 1, mem, rs, requests, hagree => by
      unfold run at hagree ⊢
      dsimp only at hagree ⊢
      cases ho : (readLoop rs mem 0 (bufSize - 1) 0).outcome with
      | throw x => rfl
      | fault => rfl
      | pending => rfl
      | ret rcvd =>
          simp only [ho] at hagree ⊢
          split_ifs at hagree ⊢ with hend heot
          · rfl
          · rfl
          · generalize cstr ((readLoop rs mem 0 (bufSize - 1) 0).mem.set rcvd.toNat 0) = s
              at hagree ⊢
            have hlen : requests.length < (requests ++ [s]).length := by simp
            have hsame : respond (requests ++ [s]) = respond' (requests ++ [s]) := by
              apply hagree _ hlen
              cases hrespond : respond' (requests ++ [s]) with
              | throw x => exact List.prefix_rfl
              | fault => exact List.prefix_rfl
              | pending => exact List.prefix_rfl
              | ret b =>
                  cases b with
                  | false => exact List.prefix_rfl
                  | true => exact (run_answered fuel _ _ (requests ++ [s])).1
            rw [hsame]
            cases hrespond : respond' (requests ++ [s]) with
            | throw x => rfl
            | fault => rfl
            | pending => rfl
            | ret b =>
                cases b with
                | false => rfl
                | true =>
                    simp only [hrespond] at hagree
                    dsimp only
                    rw [run_congr fuel _ _ (requests ++ [s]) fun requests' hlt hpre =>
                      hagree requests' (hlen.trans hlt) hpre]

/-! ### The stream of responses -/

section

variable {J : JsonDump} {m : Machine} {s : Situation} {turns : List Turn} {requests : List Bytes}

/-- The response can be sent: it is shorter than 2 GiB, and `send` keeps its promise. -/
def Sendable (J : JsonDump) (m : Machine) (x : Situation × (Bytes × Turn)) : Prop :=
  ∀ r, response J m x = some r → r.put.length < 2 ^ 31 ∧ Promised r.put.length x.2.2.sends

theorem length_exchanges :
    (exchanges J m s turns requests).length = min requests.length turns.length := by
  rw [← List.length_map Prod.snd, exchanges, map_snd_trace, List.length_zip]

theorem take_zip {α β : Type} : ∀ (k : ℕ) (as : List α) (bs : List β),
    (as.take k).zip bs = (as.zip bs).take k
  | 0, as, bs => by rw [List.take_zero, List.take_zero, List.zip_nil_left]
  | k + 1, [], bs => by simp
  | k + 1, a :: as, [] => by simp
  | k + 1, a :: as, b :: bs => by
      rw [List.take_succ_cons, List.zip_cons_cons, List.zip_cons_cons, List.take_succ_cons,
        take_zip k]

/-- What `Connection::run` does with a request is to serve it in its turn. -/
theorem respond_take {k : ℕ} (hk : k < (exchanges J m s turns requests).length) :
    respond J m s turns (requests.take (k + 1)) =
      (serve J m (exchanges J m s turns requests)[k]).outcome := by
  have hlen := hk
  rw [length_exchanges] at hlen
  have htake : exchanges J m s turns (requests.take (k + 1)) =
      (exchanges J m s turns requests).take (k + 1) := by
    rw [exchanges, take_zip, trace_take, exchanges]
  have hlast : ((exchanges J m s turns requests).take (k + 1)).getLast? =
      some (exchanges J m s turns requests)[k] := by
    rw [List.take_succ_eq_append_getElem hk, List.getLast?_append]
    rfl
  unfold respond
  rw [if_neg (by rw [List.length_take]; omega), htake, hlast]

theorem serve_delivery {x : Situation × (Bytes × Turn)} (h : Sendable J m x) :
    (∃ r, response J m x = some r ∧ Delivery r.put (serve J m x)) ∨
      (serve J m x).sent = [] ∧ (serve J m x).outcome ≠ .ret true := by
  unfold Sendable response at h
  unfold response serve
  cases ho : (handle J m x).outcome with
  | ret r =>
      simp only [ho] at h
      obtain ⟨hshort, hpromised⟩ := h r rfl
      exact .inl ⟨r, rfl, sendResponse_spec hshort hpromised⟩
  | throw e => exact .inr ⟨rfl, nofun⟩
  | fault => exact .inr ⟨rfl, nofun⟩
  | pending => exact .inr ⟨rfl, nofun⟩

/-- A request that is answered leaves its whole response. -/
theorem whole_of_served {x : Situation × (Bytes × Turn)} (h : Sendable J m x)
    (hserved : (serve J m x).outcome = .ret true) :
    ∃ r, response J m x = some r ∧ (serve J m x).sent = r.put := by
  rcases serve_delivery h with ⟨r, hr, hdelivery⟩ | ⟨-, hnot⟩
  · cases hdelivery with
    | whole _ hsent => exact ⟨r, hr, hsent⟩
    | part houtcome =>
        rw [hserved] at houtcome
        rcases houtcome with h | h <;> cases h
  · exact absurd hserved hnot

/-- The bytes are the responses to the requests, whole and in order, and a part of the one to the
request behind them. -/
structure Stream (J : JsonDump) (m : Machine) (xs : List (Situation × (Bytes × Turn)))
    (bytes : Bytes) (whole : List Response) (part : Bytes) : Prop where
  bytes_eq : bytes = whole.flatMap Response.put ++ part
  answers : List.Forall₂ (fun x r => response J m x = some r) (xs.take whole.length) whole
  length_le : xs.length ≤ whole.length + 1
  rest : part = [] ∨ ∃ x r, xs[whole.length]? = some x ∧ response J m x = some r ∧
    part <+: r.put ∧ part ≠ r.put

theorem exists_stream : ∀ {xs : List (Situation × (Bytes × Turn))},
    (∀ x ∈ xs, Sendable J m x) → (∀ x ∈ xs.dropLast, (serve J m x).outcome = .ret true) →
      ∃ whole part, Stream J m xs (xs.flatMap fun x => (serve J m x).sent) whole part
  | [], _, _ => ⟨[], [], rfl, .nil, Nat.zero_le _, .inl rfl⟩
  | [x], hsend, _ => by
      have hx : ([x].flatMap fun x => (serve J m x).sent) = (serve J m x).sent :=
        List.append_nil _
      rcases serve_delivery (hsend x List.mem_cons_self) with ⟨r, hr, hdelivery⟩ | ⟨hsent, -⟩
      · cases hdelivery with
        | whole _ hsent =>
            refine ⟨[r], [], ?_, .cons hr .nil, by simp, .inl rfl⟩
            rw [hx, hsent]
            simp
        | part _ rest hne htext =>
            refine ⟨[], (serve J m x).sent, ?_, .nil, le_rfl, .inr ⟨x, r, rfl, hr, ⟨rest, ?_⟩, ?_⟩⟩
            · rw [hx]
              rfl
            · exact htext.symm
            · intro heq
              rw [heq] at htext
              exact hne (List.append_right_eq_self.mp htext.symm)
      · refine ⟨[], [], ?_, .nil, le_rfl, .inl rfl⟩
        rw [hx, hsent]
        rfl
  | x :: y :: xs, hsend, hserved => by
      rw [List.dropLast_cons_of_ne_nil (List.cons_ne_nil y xs)] at hserved
      obtain ⟨hx, hrest⟩ := List.forall_mem_cons.mp hserved
      obtain ⟨hsendx, hsendrest⟩ := List.forall_mem_cons.mp hsend
      obtain ⟨r, hr, hsent⟩ := whole_of_served hsendx hx
      obtain ⟨whole, part, hstream⟩ := exists_stream hsendrest hrest
      refine ⟨r :: whole, part, ?_, .cons hr hstream.answers, ?_, hstream.rest⟩
      · rw [List.flatMap_cons, hsent, hstream.bytes_eq, List.flatMap_cons, List.append_assoc]
      · exact Nat.succ_le_succ hstream.length_le

/-- **What a client gets.**  However the client cuts what it sends, whatever the buffer held, and
whatever the device, the other connections and the socket do: the bytes on the socket are the
responses to the requests of the connection, whole, one for each and in their order, and behind them
a part of the response to the next request at most, which is then the last one. -/
theorem stream_of_responses (J : JsonDump) (m : Machine) (s : Situation) (turns : List Turn)
    (fuel : ℕ) (mem : Bytes) (rs : List Recv) (r : RunEnd)
    (hr : r = run (respond J m s turns) fuel mem rs [])
    (hsend : ∀ x ∈ exchanges J m s turns r.requests, Sendable J m x) :
    ∃ whole part, Stream J m (exchanges J m s turns r.requests)
      (received J m s turns r.requests) whole part := by
  apply exists_stream hsend
  intro x hx
  obtain ⟨k, hk, rfl⟩ := List.getElem_of_mem hx
  rw [List.length_dropLast] at hk
  have hlen : (exchanges J m s turns r.requests).length = min r.requests.length turns.length :=
    length_exchanges
  rw [List.getElem_dropLast, ← respond_take (by omega)]
  have hanswered := (@run_answered (respond J m s turns) fuel mem rs []).2 (k + 1) (Nat.succ_pos k)
  rw [← hr] at hanswered
  exact hanswered (by omega)

/-- A turn with nothing on the device's side. -/
def quietTurn (sends : List SendResult) : Turn :=
  ⟨[], 0, ⟨0, 0, ⟨0, [], 0, 0, []⟩, P18.zeroBuffer, 0⟩, none, sends⟩

/-- A new connection of the daemon. -/
def newConnection : Situation :=
  ⟨.init, Server.init ⟨.usb, Voltronic.defaultFlags, Voltronic.TIMEOUT⟩⟩

theorem sendable_of_response {x : Situation × (Bytes × Turn)} {r : Response}
    (hr : response J m x = some r) (hshort : r.put.length < 2 ^ 31)
    (hpromised : Promised r.put.length x.2.2.sends) : Sendable J m x := by
  intro r' hr'
  rw [hr] at hr'
  obtain rfl := Option.some.inj hr'
  exact ⟨hshort, hpromised⟩

/-- The socket fails in the middle of the answer to `v 1`. -/
theorem stream_of_responses_cut :
    let turns := [quietTurn [.sent 3, .error]]
    ∃ whole part, Stream Formatter.textDump P18.x86
      (exchanges Formatter.textDump P18.x86 newConnection turns [ascii "v 1" ++ crlf])
      (received Formatter.textDump P18.x86 newConnection turns [ascii "v 1" ++ crlf])
      whole part := by
  intro turns
  have hrequests : (run (respond Formatter.textDump P18.x86 newConnection turns) 2
      (List.replicate bufSize 0) [.data (ascii "v 1" ++ crlf)] []).requests =
        [ascii "v 1" ++ crlf] := by
    decide +kernel
  have h := stream_of_responses Formatter.textDump P18.x86 newConnection turns 2
    (List.replicate bufSize 0) [.data (ascii "v 1" ++ crlf)] _ rfl
  rw [hrequests] at h
  apply h
  intro x hx
  obtain rfl := List.mem_singleton.mp hx
  exact sendable_of_response (r := ⟨.ok, []⟩) (by decide) (by decide) ⟨by decide, trivial⟩

theorem exists_responses : ∀ {xs : List (Situation × (Bytes × Turn))},
    (∀ x ∈ xs, Sendable J m x ∧ (serve J m x).outcome = .ret true) →
      ∃ responses, List.Forall₂ (fun x r => response J m x = some r) xs responses ∧
        (xs.flatMap fun x => (serve J m x).sent) = responses.flatMap Response.put
  | [], _ => ⟨[], .nil, rfl⟩
  | x :: xs, h => by
      obtain ⟨⟨hsend, hserved⟩, hrest⟩ := List.forall_mem_cons.mp h
      obtain ⟨r, hr, hsent⟩ := whole_of_served hsend hserved
      obtain ⟨responses, hresponses, hbytes⟩ := exists_responses hrest
      refine ⟨r :: responses, .cons hr hresponses, ?_⟩
      rw [List.flatMap_cons, List.flatMap_cons, hsent, hbytes]

/-- **A conversation.**  A client sends lines, each with its CRLF, in any chunks, and closes; the
reading side meets clean steps, `processRequest` returns every time, and the socket takes every
response, in any pieces.  Then the requests are the lines up to the first that starts with `EOT`,
each with the words of that line only; the client gets one response to each, in order, and nothing
else; and when the bodies consist of lines, it can cut what it gets in one way only. -/
theorem conversation (J : JsonDump) (m : Machine) (s : Situation) (turns : List Turn)
    (lines chunks : List Bytes) (mem : Bytes) (hlines : ∀ l ∈ lines, RequestLine l)
    (hne : ∀ c ∈ chunks, c ≠ []) (hstream : chunks.flatten = (lines.map (· ++ crlf)).flatten)
    (hmem : mem.length = bufSize) (hturns : lines.length ≤ turns.length) (reading r : RunEnd)
    (hreading : reading = run (fun _ => .ret true) (chunks.length + 1) mem
      (chunks.map .data ++ [.data []]) [])
    (hasked : ∀ step ∈ reading.steps, step.Asked) (hclean : ∀ step ∈ reading.steps, step.Clean)
    (hserved : ∀ x ∈ exchanges J m s turns ((lines.takeWhile (! closes ·)).map (· ++ crlf)),
      Sendable J m x ∧ (serve J m x).outcome = .ret true)
    (hr : r = run (respond J m s turns) (chunks.length + 1) mem (chunks.map .data ++ [.data []])
      []) :
    r.outcome = .ret () ∧ r.requests = (lines.takeWhile (! closes ·)).map (· ++ crlf) ∧
      r.requests.map (fun s => (tokenise s).result) =
        (lines.takeWhile (! closes ·)).map Server.lineRequest ∧
      ∃ responses, List.Forall₂ (fun x r => response J m x = some r)
          (exchanges J m s turns r.requests) responses ∧
        responses.length = r.requests.length ∧
        received J m s turns r.requests = responses.flatMap Response.put ∧
        ((∀ response ∈ responses, Lines response.buf) → ∀ vs : List Bytes,
          (∀ v ∈ vs, Framed heads v) → received J m s turns r.requests = vs.flatten →
          vs = responses.map Response.put) := by
  subst hreading
  obtain ⟨hend, hrequests⟩ := Server.run_lines (fun _ => rfl) hlines hne hstream
    (Nat.lt_succ_self _) hmem hasked hclean
  rw [List.nil_append] at hrequests
  -- the requests get what the reading side assumes, so the connection is the reading side
  have hsame : r = run (fun _ => .ret true) (chunks.length + 1) mem
      (chunks.map .data ++ [.data []]) [] := by
    rw [hr]
    apply run_congr
    intro requests' hlt hpre
    rw [hrequests] at hpre
    obtain ⟨k, hk⟩ := Nat.exists_eq_succ_of_ne_zero (Nat.ne_of_gt hlt)
    have hle := hpre.length_le
    have hclose := (List.takeWhile_prefix (! closes ·) (l := lines)).length_le
    have hlen : (exchanges J m s turns ((lines.takeWhile (! closes ·)).map (· ++ crlf))).length =
        min ((lines.takeWhile (! closes ·)).map (· ++ crlf)).length turns.length :=
      length_exchanges
    rw [List.length_map] at hle hlen
    rw [List.prefix_iff_eq_take.mp hpre, hk, respond_take (by omega)]
    exact (hserved _ (List.getElem_mem _)).2
  rw [← hsame] at hend hrequests
  obtain ⟨responses, hresponses, hbytes⟩ := exists_responses hserved
  rw [← hrequests] at hresponses hbytes
  refine ⟨hend, hrequests, ?_, responses, hresponses, ?_, hbytes, fun hbodies vs hvs heq => ?_⟩
  · rw [hrequests, List.map_map]
    refine List.map_congr_left fun l hl => ?_
    exact Server.tokenise_line (hlines l (List.takeWhile_prefix _ |>.subset hl)).no_crlf
  · have hlen : (exchanges J m s turns r.requests).length = min r.requests.length turns.length :=
      length_exchanges
    have hclose := (List.takeWhile_prefix (! closes ·) (l := lines)).length_le
    have hcount : r.requests.length = (lines.takeWhile (! closes ·)).length := by
      rw [hrequests, List.length_map]
    rw [← hresponses.length_eq, hlen]
    omega
  · have hframed : ∀ u ∈ responses.map Response.put, Framed heads u := by
      intro u hu
      obtain ⟨response, hmem, rfl⟩ := List.mem_map.mp hu
      exact (framed_put_iff response).mpr (hbodies response hmem)
    apply (stream_splits hframed hvs _).symm
    rw [← heq, ← List.flatMap_def]
    exact hbytes.symm

/-- Two lines in three chunks, and two responses in three pieces. -/
theorem conversation_two_lines :
    let turns := [quietTurn [.sent 2, .sent 4], quietTurn [.sent 6]]
    let r := run (respond Formatter.textDump P18.x86 newConnection turns) 4
      (List.replicate bufSize 0)
      ([ascii "v", ascii " 1" ++ crlf, ascii "format table" ++ crlf].map .data ++ [.data []]) []
    r.outcome = .ret () ∧ ∃ responses : List Response, responses.length = r.requests.length ∧
      received Formatter.textDump P18.x86 newConnection turns r.requests =
        responses.flatMap Response.put := by
  intro turns r
  have hlines : ∀ l ∈ [ascii "v 1", ascii "format table"], RequestLine l := by
    simp only [List.mem_cons, List.not_mem_nil, or_false, forall_eq_or_imp, forall_eq]
    exact ⟨⟨by decide, by decide, by decide⟩, ⟨by decide, by decide, by decide⟩⟩
  have hserved : ∀ x ∈ exchanges Formatter.textDump P18.x86 newConnection turns
      [ascii "v 1" ++ crlf, ascii "format table" ++ crlf],
      Sendable Formatter.textDump P18.x86 x ∧
        (serve Formatter.textDump P18.x86 x).outcome = .ret true := by
    intro x hx
    rcases List.mem_cons.mp hx with rfl | hx
    · refine ⟨sendable_of_response (r := ⟨.ok, []⟩) (by decide) (by decide) ?_, by decide⟩
      exact ⟨by decide, by decide, trivial⟩
    · obtain rfl := List.mem_singleton.mp hx
      refine ⟨sendable_of_response (r := ⟨.ok, []⟩) (by decide) (by decide) ?_, by decide⟩
      exact ⟨by decide, trivial⟩
  obtain ⟨hend, -, -, responses, -, hlength, hbytes, -⟩ :=
    conversation Formatter.textDump P18.x86 newConnection turns
      [ascii "v 1", ascii "format table"]
      [ascii "v", ascii " 1" ++ crlf, ascii "format table" ++ crlf] (List.replicate bufSize 0)
      hlines (by decide) (by decide) (by decide +kernel) (by decide) _ r rfl (by decide +kernel)
      (by decide +kernel) hserved rfl
  exact ⟨hend, responses, hlength, hbytes⟩

end

end InverterTools.Connection
