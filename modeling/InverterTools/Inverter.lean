import InverterTools.Daemon
import InverterTools.Encoding
import InverterTools.JsonOutput
import InverterTools.Payload
import InverterTools.RoundTrip

/-! # From the inverter to the clients

What the inverter says is what the clients read.  `Says` is the inverter's side of the protocol: the
payload of an answer to a command, with the values it stands for.  `told_is_shown` follows one
answer through the whole program: through the frame and its checksum, however it is cut into reads,
through `validate`, `unpack` and `format`, to what a reader finds in the response.  `shows_values`
is about runs: while the values of the inverter stand still, every answer of the daemon to every
connection shows them, from the device or from the cache. -/

namespace InverterTools.P18

/-- The payload of an answer to a command, and the values it stands for. -/
inductive Says (c : CommandType) : Bytes → Decoded → Prop where
  | data {data : Bytes} {d : Decoded} (h : Encodes c data d) : Says c (dataPayload data) d
  | amps (hc : c = .getAllowedChargeCurrents ∨ c = .getAllowedACChargeCurrents) (ns : List ℕ)
      (hne : ns ≠ []) (h : ∀ n ∈ ns, n < 10 ^ 3) :
      Says c (dataPayload (joined (ns.map (fixed 3)))) (.amps ns)
  | acknowledged (hc : c.isSet = true) : Says c (ascii "^1") .nothing
  | refused (hc : c.isSet = true) : Says c (ascii "^0") .nothing

/-! ### Decoding -/

section

variable {data rest : Bytes}

theorem unpack_encoded {c : CommandType} {d : Decoded} (henc : Encodes c data d)
    (h : data.length + 3 < 10 ^ 3) :
    (unpack c (data.length + 5)).run (dataPayload data ++ rest) = .ret d := by
  cases c
  case getProtocolID => exact unpackProtocolID_run henc h
  case getCurrentTime => exact unpackCurrentTime_run henc h
  case getTotalGenerated | getYearGenerated | getMonthGenerated | getDayGenerated =>
    exact unpackTotalGenerated_run henc h
  case getSerialNumber => exact unpackSerialNumber_run henc h
  case getWorkingMode => exact unpackWorkingMode_run henc h
  case getCPUVersion | getRatedInformation | getGeneralStatus | getFaultsAndWarnings
      | getFlagsAndStatuses | getRatedDefaults =>
    exact unpackList_run henc (tables_sized _ (by simp)) (by decide) h
  case getParallelRatedInformation => exact unpackParallelRatedInformation_run henc h
  case getParallelGeneralStatus => exact unpackParallelGeneralStatus_run henc h
  case getACChargeTimeBucket | getACSupplyTimeBucket => exact unpackACChargeTimeBucket_run henc h
  all_goals exact henc.elim

theorem mapM_stou_fixed {w : ℕ} (hw : 0 < w) (hw9 : w ≤ 9) {ns : List ℕ}
    (h : ∀ n ∈ ns, n < 10 ^ w) : (ns.map (fixed w)).mapM stou = .ok ns := by
  induction ns with
  | nil => rfl
  | cons n ns ih =>
      obtain ⟨hn, hns⟩ := List.forall_mem_cons.mp h
      rw [List.map_cons, List.mapM_cons, stou_fixed hw hw9 hn, ih hns]
      rfl

theorem unpackAllowedChargeCurrents_run {c : CommandType} {ns : List ℕ} (hne : ns ≠ [])
    (hns : ∀ n ∈ ns, n < 10 ^ 3) (hdata : data = joined (ns.map (fixed 3)))
    (h : data.length + 3 < 10 ^ 3) :
    (unpackAllowedChargeCurrents c (data.length + 5)).run (dataPayload data ++ rest) =
      .ret (.amps ns) := by
  have hcomma : ∀ s ∈ ns.map (fixed 3), (0x2C : UInt8) ∉ s := by
    intro s hs
    obtain ⟨n, hn, rfl⟩ := List.mem_map.mp hs
    obtain ⟨-, hdigits, -⟩ := fixed_spec (by norm_num : 0 < 3) (hns n hn)
    exact comma_notMem_of_allDigits hdigits
  rw [unpackAllowedChargeCurrents, Probe.run_bind,
    getList_run h hdata (by simpa using hne) hcomma rfl, Outcome.ret_bind, Probe.run_bind,
    Probe.run_lift, mapM_stou_fixed (by norm_num) (by norm_num) hns]
  rfl

end

theorem two_le_joined {ns : List ℕ} (hne : ns ≠ []) : 2 ≤ (joined (ns.map (fixed 3))).length := by
  have hfixed (n : ℕ) : 3 ≤ (fixed 3 n).length := fixed_length_ge 3 n
  cases ns with
  | nil => exact absurd rfl hne
  | cons n ns =>
      have hhead := hfixed n
      rw [joined, List.map_cons]
      cases ns with
      | nil =>
          rw [List.map_nil, List.intercalate_singleton]
          omega
      | cons n' ns =>
          rw [List.map_cons, List.intercalate_cons_cons, List.length_append, List.length_append]
          omega

theorem Encodes.isSet {c : CommandType} {data : Bytes} {d : Decoded} (h : Encodes c data d) :
    c.isSet = false := by
  cases c <;> first | rfl | exact h.elim

theorem isSet_of_currents {c : CommandType}
    (h : c = .getAllowedChargeCurrents ∨ c = .getAllowedACChargeCurrents) : c.isSet = false := by
  cases h with
  | inl h => rw [h]; rfl
  | inr h => rw [h]; rfl

theorem decodeResponse_set {c : CommandType} (hc : c.isSet = true) {b : UInt8}
    (hb : b = 0x30 ∨ b = 0x31) (rest : Bytes) :
    decodeResponse c (0x5E :: b :: rest) 2 = .ret ⟨c, 0x5E :: b :: rest, 2, .nothing⟩ := by
  have hvalid : (validate c 2).run (0x5E :: b :: rest) = .ret true := by
    rw [validate, hc]
    cases hb with
    | inl h => rw [h]; rfl
    | inr h => rw [h]; rfl
  have hunpack : (unpack c 2).run (0x5E :: b :: rest) = .ret .nothing := by
    cases c <;> first | rfl | exact absurd hc (by decide)
  simp only [decodeResponse, hvalid, hunpack, Outcome.ret_bind]
  rfl

/-- **An answer is decoded to what it says**, from a buffer that starts with its payload. -/
theorem decodeResponse_said {c : CommandType} {payload mem : Bytes} {d : Decoded}
    (h : Says c payload d) (hm : mem.length = 256) (hmem : payload <+: mem) :
    decodeResponse c mem payload.length = .ret ⟨c, mem, payload.length, d⟩ := by
  obtain ⟨rest, rfl⟩ := hmem
  have hget {data : Bytes} {d : Decoded} (hset : c.isSet = false) (h2 : 2 ≤ data.length)
      (hm : (dataPayload data ++ rest).length = 256)
      (hunpack : data.length + 3 < 10 ^ 3 →
        (unpack c (data.length + 5)).run (dataPayload data ++ rest) = .ret d) :
      decodeResponse c (dataPayload data ++ rest) (dataPayload data).length =
        .ret ⟨c, dataPayload data ++ rest, (dataPayload data).length, d⟩ := by
    have hlen : data.length + 3 < 10 ^ 3 := by
      have : 3 ≤ (fixed 3 (data.length + 3)).length := fixed_length_ge _ _
      simp only [dataPayload, List.length_append] at hm
      omega
    have hvalid : (validate c (data.length + 5)).run (dataPayload data ++ rest) = .ret true := by
      rw [validate, hset]
      exact getValidate_dataPayload h2 hlen
    rw [dataPayload_length hlen]
    simp only [decodeResponse, hvalid, hunpack hlen, Outcome.ret_bind]
    rfl
  cases h with
  | data henc => exact hget henc.isSet henc.two_le hm (unpack_encoded henc)
  | amps hc ns hne hns =>
      refine hget (isSet_of_currents hc) (two_le_joined hne) hm fun hlen => ?_
      have hrun : (unpackAllowedChargeCurrents c _).run _ = _ :=
        @unpackAllowedChargeCurrents_run _ rest _ _ hne hns rfl hlen
      cases hc with
      | inl h => subst h; exact hrun
      | inr h => subst h; exact hrun
  | acknowledged hc => exact decodeResponse_set hc (.inr rfl) rest
  | refused hc => exact decodeResponse_set hc (.inl rfl) rest

theorem format_set {c : CommandType} (hc : c.isSet = true) (raw : Bytes) (d : Decoded) :
    format c raw d = .status (setGet raw) [] := by
  unfold format
  cases c <;> first | exact absurd hc (by decide) | rfl

/-- Of the answer to a get command nothing is shown but what was decoded. -/
theorem format_get {c : CommandType} (hc : c.isSet = false) (raw raw' : Bytes) (d : Decoded) :
    format c raw d = format c raw' d := by
  unfold format
  cases c <;> first | exact absurd hc (by decide) | rfl

theorem format_said {c : CommandType} {payload raw : Bytes} {d : Decoded} (h : Says c payload d)
    (hraw : payload <+: raw) : format c raw d = format c payload d := by
  obtain ⟨rest, rfl⟩ := hraw
  cases h with
  | data henc => exact format_get henc.isSet _ _ d
  | amps hc => exact format_get (isSet_of_currents hc) _ _ _
  | acknowledged hc =>
      rw [format_set hc, format_set hc]
      rfl
  | refused hc =>
      rw [format_set hc, format_set hc]
      rfl

end InverterTools.P18

namespace InverterTools.Server

open Formatter (Formattable)
open P18 (CommandType Machine Says)
open Voltronic (Device ReadEvent throughCR)
open Voltronic.Device (delivered replyFrame)

/-- The driver keeps to the buffer, and the line that the device sends back, if it sends one, is an
answer to the command that comes to `f`. -/
structure Tells (st : Server × Call) (f : Formattable P18.Variant) : Prop where
  delivers : st.1.device.Delivers 256 st.2.env.device.reads
  line : CR ∈ delivered st.2.env.device.reads → ∃ payload d, Says st.2.command payload d ∧
    throughCR (delivered st.2.env.device.reads) = replyFrame st.1.device.flags payload ∧
    f = P18.format st.2.command payload d

theorem replyFrame_inj {flags : Voltronic.Flags} {p q : Bytes}
    (h : replyFrame flags p = replyFrame flags q) : p = q :=
  P18.frame_inj h

theorem CR_mem_replyFrame (flags : Voltronic.Flags) (p : Bytes) : CR ∈ replyFrame flags p := by
  unfold replyFrame Device.frame
  split_ifs
  · exact List.mem_append_right _ (List.mem_singleton_self CR)
  · exact List.mem_append_right _ (List.mem_singleton_self CR)

theorem throughCR_of_mem {s : Bytes} (h : CR ∈ s) (t : Bytes) :
    throughCR (s ++ t) = throughCR s := by
  obtain ⟨body, rest, rfl, hbody⟩ := Voltronic.exists_eq_append_CR h
  rw [List.append_assoc, List.cons_append, Voltronic.throughCR_append hbody,
    Voltronic.throughCR_append hbody]

/-- What a transaction that succeeds has received and decoded. -/
theorem device_of_performed {m : Machine} {st : Server × Call} {r : P18.Response}
    (h : Performed m st r) :
    let recv := st.1.device.recv st.2.env.device.started st.2.env.buffer.1 st.2.env.device.reads
    ∃ packed n, P18.packRequest m st.2.command st.2.arguments = .ok packed ∧
      (st.1.device.run st.2.env.device packed st.2.env.buffer.1).outcome = .ret n ∧
      recv.outcome = .ret n ∧ P18.decodeResponse st.2.command recv.mem n = .ret r := by
  obtain ⟨-, hret⟩ := h
  unfold onDevice P18.execute at hret
  cases hpacked : P18.packRequest m st.2.command st.2.arguments with
  | error e =>
      rw [hpacked] at hret
      cases hret
  | ok packed =>
      rw [hpacked] at hret
      obtain ⟨n, hrun, hdecode⟩ := Outcome.bind_eq_ret.mp hret
      obtain ⟨-, hrecv, heq⟩ := st.1.device.run_ret hrun
      rw [heq] at hdecode
      exact ⟨packed, n, rfl, hrun, hrecv, hdecode⟩

theorem format_of_decoded {c : CommandType} {mem payload : Bytes} {n : ℕ} {r : P18.Response}
    {d : P18.Decoded} (hdecode : P18.decodeResponse c mem n = .ret r) (hlen : mem.length = 256)
    (hn : n ≤ 256) (hpayload : mem.take n = payload) (hvalues : Says c payload d) :
    P18.format r.command r.raw r.fields = P18.format c payload d := by
  have hsize : payload.length = n := by
    rw [← hpayload, List.length_take, hlen]
    omega
  have hprefix : payload <+: mem := hpayload ▸ List.take_prefix n mem
  rw [← hsize, P18.decodeResponse_said hvalues hlen hprefix] at hdecode
  obtain rfl := Outcome.ret.inj hdecode
  exact P18.format_said hvalues hprefix

theorem shown_of_performed {m : Machine} {st : Server × Call} {r : P18.Response}
    {f : Formattable P18.Variant} (h : Performed m st r) (htells : Tells st f) :
    P18.format r.command r.raw r.fields = f := by
  obtain ⟨packed, n, -, -, hrecv, hdecode⟩ := device_of_performed h
  have hcap : st.2.env.buffer.1.length = 256 := st.2.env.buffer.2
  obtain ⟨used, extra, hes, hused, hthrough, hlen, hn⟩ := st.1.device.recv_ret _
    (hcap.symm ▸ htells.delivers) hrecv
  generalize (st.1.device.recv st.2.env.device.started st.2.env.buffer.1
    st.2.env.device.reads).mem = mem at *
  generalize (st.1.device.recv st.2.env.device.started st.2.env.buffer.1
    st.2.env.device.reads).unread = unread at *
  have hCR : CR ∈ delivered used := by
    rw [hused]
    exact List.mem_append_left _ (CR_mem_replyFrame _ _)
  have hall : delivered st.2.env.device.reads = delivered used ++ delivered unread := by
    rw [hes, delivered, List.flatMap_append]
    rfl
  have hline := htells.line (hall ▸ List.mem_append_left _ hCR)
  rw [hall, throughCR_of_mem hCR, hthrough] at hline
  obtain ⟨payload, d, hvalues, hframe, rfl⟩ := hline
  exact format_of_decoded hdecode (hlen.trans hcap) (hcap ▸ hn) (replyFrame_inj hframe) hvalues

/-- The device takes the request, and its answer comes with this payload in time: the reads bring
the frame in any pieces, and there may be more behind it. -/
structure AnswersInTime (m : Machine) (st : Server × Call) (payload : Bytes) : Prop where
  possible : st.2.env.device.Plausible 256
  request : ∃ packed, P18.packRequest m st.2.command st.2.arguments = .ok packed ∧
    st.1.device.Sent st.2.env.device packed
  reads : ∀ e ∈ st.2.env.device.reads,
    0 ≤ e.code ∧ st.1.device.getTimeLeft st.2.env.device.started e.now ≠ 0
  no_CR : CR ∉ payload
  frame : ∃ extra, delivered st.2.env.device.reads =
    Device.frame st.1.device.flags payload ++ extra
  fits : (Device.frame st.1.device.flags payload).length ≤ 256

theorem delivers_of_answers {dev : Device} {room : ℕ} {es : List ReadEvent} (hroom : room < 2 ^ 31)
    (h : Device.Answers room es) (hcode : ∀ e ∈ es, 0 ≤ e.code) :
    dev.Delivers room es ∧ ∀ e ∈ es, ∀ x, dev.driver.read e.code ≠ .error x := by
  induction es generalizing room with
  | nil => exact ⟨trivial, fun e he => absurd he List.not_mem_nil⟩
  | cons e es ih =>
      obtain ⟨hnonneg, hrest⟩ := List.forall_mem_cons.mp hcode
      obtain ⟨hfit, hanswer⟩ := h
      cases hanswer with
      | inr hneg => exact absurd hnonneg (by omega)
      | inl hok =>
          obtain ⟨hcount, hanswers⟩ := hok
          obtain ⟨hdelivers, hno⟩ := ih (by omega) hanswers hrest
          have hread : dev.driver.read e.code = .ok e.data.length := by
            rw [hcount]
            exact Device.read_of_count (by omega)
          refine ⟨.inr ⟨hread, hfit, hdelivers⟩, List.forall_mem_cons.mpr ⟨fun x hx => ?_, hno⟩⟩
          rw [hread] at hx
          cases hx

/-- A call whose transaction succeeds returns its response. -/
theorem returned_of_performed {m : Machine} {st : Server × Call} {r : P18.Response}
    (h : Performed m st r) : Returned m st r := by
  have hend := finish_of_not_live (m := m) h.1
  simp only [h.2] at hend
  exact hend.1

theorem performed_of_answers {m : Machine} {st : Server × Call} {payload : Bytes}
    {d : P18.Decoded} (hlive : ¬ Live st)
    (hflags : st.1.device.flags = Voltronic.defaultFlags ∨ st.1.device.flags = Voltronic.noFlags)
    (h : AnswersInTime m st payload) (hvalues : Says st.2.command payload d) :
    ∃ mem, payload <+: mem ∧ Performed m st ⟨st.2.command, mem, payload.length, d⟩ := by
  obtain ⟨packed, hpacked, hsent⟩ := h.request
  obtain ⟨extra, hframe⟩ := h.frame
  have hcap : st.2.env.buffer.1.length = 256 := st.2.env.buffer.2
  obtain ⟨hdelivers, hno⟩ := @delivers_of_answers st.1.device 256 _ (by norm_num)
    h.possible.reads fun e he => (h.reads e he).1
  rw [← hcap] at hdelivers
  obtain ⟨hret, htake⟩ := st.1.device.recv_frame st.2.env.device.started hflags h.no_CR
    (hcap.symm ▸ h.fits) hdelivers (fun e he => (h.reads e he).2) hno hframe
  obtain ⟨-, -, -, -, -, hlen, -⟩ := st.1.device.recv_ret _ hdelivers hret
  have hpossible : st.2.env.device.Plausible st.2.env.buffer.1.length := hcap.symm ▸ h.possible
  obtain ⟨hrun, hmem⟩ := st.1.device.run_of_sent hpossible hsent
  have hprefix : payload <+: (st.1.device.recv st.2.env.device.started st.2.env.buffer.1
      st.2.env.device.reads).mem := by
    rw [← htake]
    exact List.take_prefix _ _
  refine ⟨_, hprefix, hlive, ?_⟩
  simp only [onDevice, P18.execute, hpacked]
  rw [hrun, hmem, hret, Outcome.ret_bind]
  exact P18.decodeResponse_said hvalues (hlen.trans hcap) hprefix

end InverterTools.Server

namespace InverterTools.Connection

open Formatter (Format Formattable JsonDump Reads Written)
open P18 (CommandType Machine Says)
open Server (AnswersInTime Call Live Performed RequestType Returned Tells)

/-- What a client sees of a response: its output in the format of the connection, and in the JSON
formats what a reader of JSON finds. -/
structure Shows (J : JsonDump) (depth : ℕ) (format : Format) (f : Formattable P18.Variant)
    (body : Bytes) : Prop where
  output : f.write J depth format = .ret body
  read : format = .json ∨ format = .simpleJSON →
    ∃ reply, Json.parse body = some reply ∧ Reads format depth f reply

theorem shows_of_write {J : JsonDump} (hJ : J.WritesText) {depth : ℕ} {format : Format}
    {f : Formattable P18.Variant} {body : Bytes} (hkeyed : f.Keyed)
    (h : f.write J depth format = .ret body) : Shows J depth format f body :=
  ⟨h, fun hformat => Formatter.write_read hJ hformat hkeyed h⟩

section

variable {J : JsonDump} {m : Machine} {depth : ℕ} {options : ConnectionOptions} {s : Server}
  {env : Server.Env} {uninitialised : Option RequestType} {buf : Bytes} {c : CommandType}
  {args : List Bytes} {r : P18.Response} {body : Bytes}

theorem answered_of_returned (hrequest : requested m buf = some (c, args))
    (hreturned : Returned m (s, ⟨c, args, env⟩) r)
    (hwrite : (P18.format r.command r.raw r.fields).write J depth options.format = .ret body) :
    (processRequest J m depth options s env uninitialised buf).outcome = .ret ⟨.ok, body⟩ := by
  obtain ⟨arguments, hresult, hinput⟩ := requested_eq_some hrequest
  have hcall : (s.executeCommand m env c args).outcome = .ret r := hreturned
  apply processRequest_eq_ok.mpr
  rw [attempt, hresult]
  show (executeRequest J m depth options s env arguments).outcome = .ret body
  rw [executeRequest, hinput]
  show (s.executeCommand m env c args).outcome >>= _ = _
  rw [hcall, Outcome.ret_bind]
  exact hwrite

end

/-- **What the inverter tells is what the client sees.**  In any state of the server and for any
connection: when a request is a command that the cache does not answer, and the device takes it and
answers in time, in reads of any sizes, the request is answered `ok` with the output of the values
that the answer stands for; a reader of JSON finds each of them under its key.  In the formats other
than `simple-json` every code needs a name, and in those of JSON every text has to be UTF-8. -/
theorem told_is_shown (J : JsonDump) (hJ : J.WritesText) (m : Machine) (depth : ℕ)
    (options : ConnectionOptions) (s : Server) (env : Server.Env)
    (uninitialised : Option RequestType) (buf : Bytes) {c : CommandType} {args : List Bytes}
    (hrequest : requested m buf = some (c, args)) (hmiss : ¬ Live (s, ⟨c, args, env⟩))
    (hflags : s.device.flags = Voltronic.defaultFlags ∨ s.device.flags = Voltronic.noFlags)
    {payload : Bytes} {d : P18.Decoded} (hvalues : Says c payload d)
    (hanswer : AnswersInTime m (s, ⟨c, args, env⟩) payload)
    (hlisted : options.format = .simpleJSON ∨ d.Listed)
    (hplain : options.format = .table ∨ options.format = .simpleTable ∨ d.Plain) :
    ∃ body, (processRequest J m depth options s env uninitialised buf).outcome =
        .ret ⟨.ok, body⟩ ∧
      Shows J depth options.format (P18.format c payload d) body := by
  obtain ⟨mem, hprefix, hperformed⟩ := Server.performed_of_answers hmiss hflags hanswer hvalues
  have hreturned := Server.returned_of_performed hperformed
  have hreceived := (P18.received_of_execute hperformed.2).1
  have hout : P18.Outputs (P18.format c mem d) d := P18.format_outputs hreceived.decoded
  have hwritten := Formatter.Formattable.write_written J depth options.format
    (P18.format_asciiKeys c mem d)
  cases hwritten with
  | stuck _ hstuck => exact absurd ((hout.ends_iff options.format).mpr hlisted) hstuck
  | thrown _ _ _ _ hnot => exact absurd ((hout.plain_iff options.format).mpr hplain) hnot
  | text body hwrite _ _ =>
      refine ⟨body, answered_of_returned hrequest hreturned hwrite, ?_⟩
      rw [P18.format_said hvalues hprefix] at hwrite
      exact shows_of_write hJ (P18.format_keyed c payload d) hwrite

/-- The inverter works in the hybrid mode. -/
def hybrid : P18.Decoded := .members [(.mode, .enum ⟨.workingMode, 5⟩)]

theorem says_hybrid : Says .getWorkingMode (ascii "^D00505") hybrid :=
  @Says.data .getWorkingMode (fixed 2 5) _ ⟨5, by decide, rfl, rfl⟩

/-- A daemon that was just started is asked for the mode. -/
def askMode : Server × Call :=
  (Server.started, ⟨.getWorkingMode, [], Server.answeredAt 100 (ascii "^D00505")⟩)

theorem answersInTime_hybrid : AnswersInTime P18.x86 askMode (ascii "^D00505") where
  possible := by
    constructor
    · exact fun e he => by simp_all [askMode, Server.answeredAt]
    · exact ⟨by decide, .inl ⟨by decide, by decide, .inl ⟨by decide, by decide,
        .inl ⟨by decide, trivial⟩⟩⟩⟩
  request := by
    refine ⟨ascii "^P006MOD", by decide, ⟨by decide, 8, by decide, .inr ⟨by decide, ?_⟩⟩,
      by decide⟩
    exact ⟨by decide, 8, by decide, .inl (by decide)⟩
  reads := by decide +kernel
  no_CR := by decide
  frame := ⟨[], by decide +kernel⟩
  fits := by decide

/-- A new connection asks for it. -/
theorem told_is_shown_hybrid :
    ∃ body, (processRequest Formatter.textDump P18.x86 0 .init Server.started askMode.2.env none
        (ascii "exec get-mode" ++ crlf ++ [0])).outcome = .ret ⟨.ok, body⟩ ∧
      Shows Formatter.textDump 0 .json (P18.format .getWorkingMode (ascii "^D00505") hybrid)
        body := by
  apply told_is_shown Formatter.textDump (Dumper.compact_writesText _) P18.x86 0 .init
    Server.started _ none _ (show _ = some (CommandType.getWorkingMode, []) by decide +kernel)
    (by decide +kernel) (.inl rfl) says_hybrid answersInTime_hybrid
  · refine .inr fun v hv => ?_
    rw [List.mem_singleton.mp hv]
    show P18.EnumVal.listed ⟨.workingMode, 5⟩ ≠ none
    decide
  · refine .inr (.inr fun v hv => ?_)
    rw [List.mem_singleton.mp hv]
    trivial

section

variable {ι : Type} [DecidableEq ι]

/-- **The daemon as a view of the inverter.**  Take an inverter that answers each command with what
`answer` says, or not at all, and any run of the daemon: connections and signals in any order, calls
that fail, answers from the device and from the cache.  Every request of every connection that
executes a command and is answered `ok` shows what `answer` says for its command and arguments, in
the format that this connection has selected. -/
theorem shows_values (J : JsonDump) (hJ : J.WritesText) (m : Machine) {s : Server}
    (hs : ∀ c, s.cache c = none) (answer : CommandType → List Bytes → Formattable P18.Variant)
    (moves : List (Move ι)) (i : ι) (x : Request) (t : Surroundings) {options : ConnectionOptions}
    {c : CommandType} {args : List Bytes} {body : Bytes}
    (hopen : (moves.foldl (step J m) (daemon ι s)).options i = some options)
    (hcommand : requested m x.buf = some (c, args))
    (hret : (ask J m (moves.foldl (step J m) (daemon ι s)).server options x t).outcome =
      .ret ⟨.ok, body⟩)
    (htells : ∀ st ∈ calls m (trace (step J m) (daemon ι s) (moves ++ [.request i x t])),
      Tells st (answer st.2.command st.2.arguments)) :
    Shows J t.depth (lastFormat (log J m i (trace (step J m) (daemon ι s) moves)))
      (answer c args) body := by
  have hoptions : options = ⟨1, lastFormat (log J m i (trace (step J m) (daemon ι s) moves))⟩ :=
    (session_run s moves i options hopen).options_eq
  obtain ⟨hcache, -⟩ := cache_run (J := J) (m := m) hs moves
  obtain ⟨r, hreturned, hwrite⟩ := returned_of_answered hcommand hret
  rw [trace_append, trace_cons, trace_nil, calls_append] at htells
  have hlast : called m (moves.foldl (step J m) (daemon ι s), .request i x t) =
      some ((moves.foldl (step J m) (daemon ι s)).server, ⟨c, args, t.env⟩) := by
    simp [called, happened, hopen, hcommand]
  rw [hlast, Option.toList_some] at htells
  have hshown : P18.format r.command r.raw r.fields = answer c args := by
    by_cases hlive : Live ((moves.foldl (step J m) (daemon ι s)).server, ⟨c, args, t.env⟩)
    · -- the cached response is that of an earlier call
      obtain ⟨cr, hcr, -, hargs, rfl, -⟩ | ⟨hnot, -⟩ := Server.returned_cases hreturned
      · obtain ⟨older, old, after, hrun, hold, -⟩ := hcache c cr hcr
        have hmem : old ∈ calls m (trace (step J m) (daemon ι s) moves) := by
          rw [hrun]
          exact List.mem_append_right _ List.mem_cons_self
        have htold := htells old (List.mem_append_left _ hmem)
        rw [hold.command_eq, hold.arguments_eq, ← hargs] at htold
        exact Server.shown_of_performed hold.performed htold
      · exact absurd hlive hnot
    · apply Server.shown_of_performed (Server.performed_of_returned hlive hreturned)
      exact htells _ (List.mem_append_right _ (List.mem_singleton_self _))
  have hkeyed : (answer c args).Keyed := by
    rw [← hshown]
    exact P18.format_keyed r.command r.raw r.fields
  rw [hshown, hoptions] at hwrite
  exact shows_of_write hJ hkeyed hwrite

/-- One connection reads the mode at 100 ms. -/
def modeRead : List (Move Bool) := [
  .accept true,
  .accept false,
  .request true ⟨ascii "exec get-mode" ++ crlf ++ [0], none⟩ ⟨0, askMode.2.env⟩]

/-- A request at time `t`, when the device says nothing. -/
def silentAt (t : UInt64) : Surroundings := ⟨0, ⟨t, t, ⟨t, [], t, t, []⟩, P18.zeroBuffer, t⟩⟩

/-- At 500 ms the other connection reads it too. -/
theorem shows_values_cached :
    Shows Formatter.textDump 0 (lastFormat (log Formatter.textDump P18.x86 false
        (trace (step Formatter.textDump P18.x86) (daemon Bool Server.started) modeRead)))
      (P18.format .getWorkingMode (ascii "^D00505") hybrid)
      (ascii "\x7b\"result\":\"ok\",\"data\":\x7b\"mode\":\"Hybrid mode\"\x7d\x7d") := by
  have hopen : (modeRead.foldl (step Formatter.textDump P18.x86)
      (daemon Bool Server.started)).options false = some ⟨1, .json⟩ := by
    decide +kernel
  have hcalls : ∀ st ∈ calls P18.x86 (trace (step Formatter.textDump P18.x86)
      (daemon Bool Server.started) (modeRead ++
        [.request false ⟨ascii "exec get-mode" ++ crlf ++ [0], none⟩ (silentAt 500)])),
      st.1.device = askMode.1.device ∧ (st.2 = askMode.2 ∨
        st.2 = ⟨.getWorkingMode, [], (silentAt 500).env⟩) := by
    decide +kernel
  refine shows_values Formatter.textDump (Dumper.compact_writesText _) P18.x86 (fun _ => rfl)
    (fun _ _ => P18.format .getWorkingMode (ascii "^D00505") hybrid) modeRead false
    ⟨ascii "exec get-mode" ++ crlf ++ [0], none⟩ (silentAt 500) hopen
    (show _ = some (CommandType.getWorkingMode, []) by decide +kernel) (by decide +kernel) ?_
  rintro ⟨server, call⟩ hst
  obtain ⟨hdevice, rfl | rfl⟩ := hcalls _ hst
  · have hdelivers : askMode.1.device.Delivers 256 askMode.2.env.device.reads :=
      .inr ⟨by decide, by decide, .inr ⟨by decide, by decide, .inr ⟨by decide, by decide, trivial⟩⟩⟩
    have hdevice : server.device = askMode.1.device := hdevice
    constructor
    · exact hdevice ▸ hdelivers
    · have hline : Voltronic.throughCR (Voltronic.Device.delivered askMode.2.env.device.reads) =
          Voltronic.Device.replyFrame askMode.1.device.flags (ascii "^D00505") := by
        decide +kernel
      exact fun _ => ⟨ascii "^D00505", hybrid, says_hybrid, hdevice ▸ hline, rfl⟩
  · exact ⟨trivial, fun h => absurd h List.not_mem_nil⟩

end

end InverterTools.Connection
