import InverterTools.Daemon
import InverterTools.ExitStatus

/-! # `inverterd` from its start to its end (`inverterd.cc`, `Server::start`)

`main` reads the options, opens the device, sets up the socket and enters the loop of
`Server::start`, which tests `shutdownCaught` and waits in `accept`.  The threads of the connections
and the signals go on in between, and only they set the flag.  A thread can also end the whole
process: an exception that leaves `processRequest` leaves its function, and `SIGPIPE` is not handled
(`live`).

`settings_given` says what the server runs with, `shutdown` what happens once the flag is set, and
`main_zero_iff` when the program returns `0`. -/

namespace InverterTools.Inverterd

open Connection (Daemon Move Surroundings daemon)
open Formatter (JsonDump)
open Inverterctl (Getopt Printed driverOf)
open P18 (Machine)

/-! ### The loop of `Server::start` -/

/-- Where the main thread is: at the test of `shutdownCaught`, in `accept`, or behind the loop. -/
inductive Phase where
  | test
  | accepting
  | left
deriving DecidableEq, Repr

/-- The process: the daemon, and its main thread. -/
structure Process (ι : Type) where
  daemon : Daemon ι
  loop : Phase

/-- A step of the process: the main thread goes on, with what `accept` returns if it is there; a
request, the end of a connection, a signal. -/
inductive Act (ι : Type) where
  | main (accepted : Option ι)
  | request (i : ι) (x : Connection.Request) (t : Surroundings)
  | close (i : ι)
  | signal

/-- The flag. -/
def Process.shutdownCaught {ι : Type} (p : Process ι) : Bool := p.daemon.server.shutdownCaught

/-- The move of the daemon that a step is.  Behind the loop `main` takes the server down. -/
def move {ι : Type} (loop : Phase) (act : Act ι) : Option (Move ι) :=
  match loop, act with
  | .left, _ => none
  | .accepting, .main (some i) => some (.accept i)
  | _, .main _ => none
  | _, .request i x t => some (.request i x t)
  | _, .close i => some (.close i)
  | _, .signal => some .signal

/-- Where the main thread is after a step. -/
def goOn {ι : Type} (loop : Phase) (shutdownCaught : Bool) (act : Act ι) : Phase :=
  match loop, act with
  | .test, .main _ => if shutdownCaught then .left else .accepting
  | .accepting, .main _ => .test
  | loop, _ => loop

section

variable {ι : Type} [DecidableEq ι] (J : JsonDump) (m : Machine)

/-- One step. -/
def step (p : Process ι) (act : Act ι) : Process ι :=
  ⟨match move p.loop act with
    | none => p.daemon
    | some move => Connection.step J m p.daemon move, goOn p.loop p.shutdownCaught act⟩

/-- The process in front of the loop. -/
def begin (ι : Type) (s : Server) : Process ι := ⟨daemon ι s, .test⟩

/-- An exception leaves `processRequest`, and with it the function of a detached thread:
`std::terminate`.  A fault ends the process as well. -/
def fatal (p : Process ι) (act : Act ι) : Bool :=
  match move p.loop act with
  | some (.request i x t) =>
      match p.daemon.options i with
      | none => false
      | some options =>
          match (Connection.ask J m p.daemon.server options x t).outcome with
          | .throw _ | .fault => true
          | _ => false
  | _ => false

end

/-- The process, or that it has been ended from outside `main`. -/
inductive Life (ι : Type) where
  | running (p : Process ι)
  | killed

/-- What befalls the process: a step, or the system ends it.  The latter is what a signal does that
is not handled, such as `SIGPIPE` for a response to a connection that the client has closed; or the
stack, memory or threads are used up. -/
inductive Fate (ι : Type) where
  | act (act : Act ι)
  | kill

section

variable {ι : Type} [DecidableEq ι] (J : JsonDump) (m : Machine)

/-- One step of the process, with what ends it.  Behind the loop `main` returns. -/
def live (life : Life ι) (fate : Fate ι) : Life ι :=
  match life, fate with
  | .killed, _ => .killed
  | .running p, .kill => if p.loop = .left then .running p else .killed
  | .running p, .act act => if fatal J m p act then .killed else .running (step J m p act)

end

/-! ### `main` -/

/-- The results of the library calls in `Server::start`, with the text of `strerror`. -/
structure Setup where
  socket : Bool
  linger : Except Bytes Unit
  reuseaddr : Except Bytes Unit
  bind : Except Bytes Unit
  listen : Except Bytes Unit

/-- What precedes the loop in `Server::start`; a `ServerError` is its text. -/
def Setup.run (x : Setup) : Except Bytes Unit := do
  if x.socket then pure () else .error (ascii "failed to create socket")
  x.linger.mapError (ascii "setsockopt(linger): " ++ ·)
  x.reuseaddr.mapError (ascii "setsockopt(reuseaddr): " ++ ·)
  x.bind.mapError (ascii "bind: " ++ ·)
  x.listen.mapError (ascii "start: " ++ ·)

/-- The server that `main` sets up. -/
def Params.server (p : Params) : Server :=
  { Server.init ⟨driverOf p.device.deviceType, Voltronic.defaultFlags, UInt64.ofNat p.timeout⟩ with
    cacheTimeout := UInt64.ofNat p.cacheTimeout
    delay := UInt64.ofNat p.delay
    deviceErrorLimit := UInt32.ofNat p.deviceErrorLimit }

/-- How far `main` has come: it has returned, an exception has left it, it serves, or the process
has been ended. -/
inductive MainEnd (ι : Type) where
  | returned (status : ℤ) (printed : Printed)
  | thrown (e : Exn)
  | serverError (what : Bytes)
  | serving (p : Process ι)
  | killed

/-- The handlers of the second `try` block. -/
def handleError (ι : Type) (e : Exn) : MainEnd ι :=
  let report := fun s => MainEnd.returned 1 (.error (ascii s ++ cstr e.what))
  match e.cls with
  | .deviceError => report "device error: "
  | .timeoutError => report "timeout error: "
  | .invalidDataError => report "data is invalid: "
  | .invalidResponseError | .parseError => report "response is invalid: "
  | _ => .thrown e

/-- `main`, with what the constructor of the device does and what happens around the loop. -/
def main {ι : Type} [DecidableEq ι] (J : JsonDump) (m : Machine) (g : Getopt)
    (opened : Except Exn Unit) (setup : Setup) (fates : List (Fate ι)) : MainEnd ι :=
  match readOptions g.opts with
  | (_, some .exit) => .returned 1 .usage
  | (_, some (.thrown e)) =>
      if e.cls = .invalidArgument then .returned 1 (.error (ascii "error: " ++ cstr e.what))
      else .thrown e
  | (p, none) =>
      if g.words ≠ [] then .returned 1 (.error (ascii "error: extra parameter found"))
      else match opened with
        | .error e => handleError ι e
        | .ok () =>
            match setup.run with
            | .error what => .serverError what
            | .ok () =>
                match fates.foldl (live J m) (.running (begin ι p.server)) with
                | .killed => .killed
                | .running process =>
                    if process.loop = .left then .returned 0 .nothing else .serving process

/-! ### The settings -/

/-- What an option with a value leaves in a variable: the default when it is not given, else what
its last occurrence says. -/
inductive Given {α : Type} (opts : List Opt) (code : LongOption) (read : Bytes → Except Exn α)
    (default : α) : α → Prop where
  | default (hno : ∀ opt ∈ opts, opt.code ≠ code) : Given opts code read default default
  | last (opt : Opt) (a : α) (hlast : Loop.IsLast (fun opt => opt.code = code) opts opt)
      (hread : read opt.arg = .ok a) : Given opts code read default a

/-- What an option does to a variable: it sets it, or it is another option. -/
def SetBy {α : Type} (code : LongOption) (read : Bytes → Except Exn α) (opt : Opt) (old new : α) :
    Prop :=
  opt.code = code ∧ read opt.arg = .ok new ∨ opt.code ≠ code ∧ new = old

/-- What the body of the option loop does to the settings. -/
structure Sets (p : Params) (opt : Opt) (p' : Params) : Prop where
  timeout : SetBy .timeout stoull opt p.timeout p'.timeout
  cacheTimeout : SetBy .cacheTimeout stoull opt p.cacheTimeout p'.cacheTimeout
  delay : SetBy .delay stoull opt p.delay p'.delay
  deviceErrorLimit : SetBy .deviceErrorLimit stou opt p.deviceErrorLimit p'.deviceErrorLimit
  host : SetBy .host .ok opt p.host p'.host
  port : SetBy .port stoi opt p.port p'.port

theorem sets_of_set {p p' : Params} {opt : Opt} (h : p.set opt = .ok p') : Sets p opt p' := by
  obtain ⟨code, arg⟩ := opt
  have hkept {α : Type} {code' : LongOption} {read : Bytes → Except Exn α} {a : α}
      (hne : code ≠ code') : SetBy code' read ⟨code, arg⟩ a a := .inr ⟨hne, rfl⟩
  cases code with
  | shortHelp | help => cases h
  | verbose =>
      rw [← Except.ok.inj h]
      exact ⟨hkept nofun, hkept nofun, hkept nofun, hkept nofun, hkept nofun, hkept nofun⟩
  | host =>
      rw [← Except.ok.inj h]
      exact ⟨hkept nofun, hkept nofun, hkept nofun, hkept nofun, .inl ⟨rfl, rfl⟩, hkept nofun⟩
  | timeout =>
      obtain ⟨n, hread, hpure⟩ := bind_eq_ok.mp (orThrow_eq_ok.mp h)
      rw [← pure_eq_ok.mp hpure]
      exact ⟨.inl ⟨rfl, hread⟩, hkept nofun, hkept nofun, hkept nofun, hkept nofun, hkept nofun⟩
  | cacheTimeout =>
      obtain ⟨n, hread, hpure⟩ := bind_eq_ok.mp (orThrow_eq_ok.mp h)
      rw [← pure_eq_ok.mp hpure]
      exact ⟨hkept nofun, .inl ⟨rfl, hread⟩, hkept nofun, hkept nofun, hkept nofun, hkept nofun⟩
  | delay =>
      obtain ⟨n, hread, hpure⟩ := bind_eq_ok.mp (orThrow_eq_ok.mp h)
      rw [← pure_eq_ok.mp hpure]
      exact ⟨hkept nofun, hkept nofun, .inl ⟨rfl, hread⟩, hkept nofun, hkept nofun, hkept nofun⟩
  | deviceErrorLimit =>
      obtain ⟨n, hread, hpure⟩ := bind_eq_ok.mp (orThrow_eq_ok.mp h)
      rw [← pure_eq_ok.mp hpure]
      exact ⟨hkept nofun, hkept nofun, hkept nofun, .inl ⟨rfl, hread⟩, hkept nofun, hkept nofun⟩
  | port =>
      obtain ⟨z, hread, hpure⟩ := bind_eq_ok.mp (orThrow_eq_ok.mp h)
      rw [← pure_eq_ok.mp hpure]
      exact ⟨hkept nofun, hkept nofun, hkept nofun, hkept nofun, hkept nofun, .inl ⟨rfl, hread⟩⟩
  | _ =>
      obtain ⟨d, hset, hpure⟩ := bind_eq_ok.mp (orThrow_eq_ok.mp h)
      rw [← pure_eq_ok.mp hpure]
      exact ⟨hkept nofun, hkept nofun, hkept nofun, hkept nofun, hkept nofun, hkept nofun⟩

theorem given_of_readOptions {α : Type} {opts : List Opt} {params : Params}
    (h : readOptions opts = (params, none)) (field : Params → α) {code : LongOption}
    {read : Bytes → Except Exn α}
    (hset : ∀ p opt p', Sets p opt p' → SetBy code read opt (field p) (field p')) :
    Given opts code read (field .init) (field params) := by
  have hparams : (readOptions opts).1 = params := congrArg Prod.fst h
  have hlast := @Loop.loop_last _ _ _ Params.set opts .init _ (fun opt => opt.code = code) field
    (fun opt a => read opt.arg = .ok a) (fun p p' opt hp hcode => by
      obtain ⟨-, hread⟩ | ⟨hne, -⟩ := hset p opt p' (sets_of_set hp)
      · exact hread
      · exact absurd hcode hne) (fun p p' opt hp hcode => by
      obtain ⟨heq, -⟩ | ⟨-, hsame⟩ := hset p opt p' (sets_of_set hp)
      · exact absurd heq hcode
      · exact hsame) (congrArg Prod.snd h)
  rw [← hparams]
  obtain ⟨opt, hopt, hread⟩ | ⟨hno, hfield⟩ := hlast
  · exact .last opt _ hopt hread
  · rw [readOptions, hfield]
    exact .default hno

theorem stoull_lt {arg : Bytes} {n : ℕ} (h : stoull arg = .ok n) : n < 2 ^ 64 := by
  unfold stoull strtoul at h
  cases hscan : scanInt arg with
  | none =>
      rw [hscan] at h
      cases h
  | some v =>
      obtain ⟨neg, v⟩ := v
      rw [hscan] at h
      dsimp only at h
      split_ifs at h with hlarge hneg
      · cases h
      · cases h
        omega
      · cases h
        omega

theorem stou_lt {arg : Bytes} {n : ℕ} (h : stou arg = .ok n) : n < 2 ^ 32 := by
  obtain ⟨v, -, rfl⟩ := map_eq_ok.mp h
  exact Nat.mod_lt v (by decide)

theorem Given.lt {opts : List Opt} {code : LongOption} {read : Bytes → Except Exn ℕ}
    {n bound d : ℕ} (h : Given opts code read d n) (hdefault : d < bound)
    (hread : ∀ arg n, read arg = .ok n → n < bound) : n < bound := by
  cases h with
  | default hno => exact hdefault
  | last opt n hlast hn => exact hread _ _ hn

/-- What the server runs with. -/
structure RunsWith (opts : List Opt) (params : Params) (s : Server) : Prop where
  timeout : Given opts .timeout stoull Voltronic.TIMEOUT.toNat s.device.timeout.toNat
  cacheTimeout : Given opts .cacheTimeout stoull Server.CACHE_TIMEOUT.toNat s.cacheTimeout.toNat
  delay : Given opts .delay stoull Server.DELAY.toNat s.delay.toNat
  deviceErrorLimit : Given opts .deviceErrorLimit (fun arg => (· % 2 ^ 32) <$> stoul arg)
    Server.DEVICE_ERROR_LIMIT.toNat s.deviceErrorLimit.toNat
  host : Given opts .host .ok (ascii "127.0.0.1") params.host
  port : Given opts .port stoi 8305 params.port

/-- **The settings.**  Whatever options are accepted, in whatever order and however often: the
server runs with what the last occurrence of each says, and with the default where there is none.
The times are the numbers that `std::stoull` reads; of the limit of the errors the last 32 bits
count. -/
theorem settings_given {opts : List Opt} {params : Params}
    (h : readOptions opts = (params, none)) : RunsWith opts params params.server := by
  have hlong {n : ℕ} (hn : n < 2 ^ 64) : (UInt64.ofNat n).toNat = n :=
    UInt64.toNat_ofNat_of_lt hn
  have htimeout := given_of_readOptions h Params.timeout fun _ _ _ hp => hp.timeout
  have hcache := given_of_readOptions h Params.cacheTimeout fun _ _ _ hp => hp.cacheTimeout
  have hdelay := given_of_readOptions h Params.delay fun _ _ _ hp => hp.delay
  have hlimit := given_of_readOptions h Params.deviceErrorLimit fun _ _ _ hp => hp.deviceErrorLimit
  constructor
  · rwa [show params.server.device.timeout.toNat = params.timeout from
      hlong (htimeout.lt (by decide) fun _ _ => stoull_lt)]
  · rwa [show params.server.cacheTimeout.toNat = params.cacheTimeout from
      hlong (hcache.lt (by decide) fun _ _ => stoull_lt)]
  · rwa [show params.server.delay.toNat = params.delay from
      hlong (hdelay.lt (by decide) fun _ _ => stoull_lt)]
  · rwa [show params.server.deviceErrorLimit.toNat = params.deviceErrorLimit from
      UInt32.toNat_ofNat_of_lt (hlimit.lt (by decide) fun _ _ => stou_lt)]
  · exact given_of_readOptions h Params.host fun _ _ _ hp => hp.host
  · exact given_of_readOptions h Params.port fun _ _ _ hp => hp.port

/-- Two delays, of which the second counts. -/
theorem settings_given_delay :
    let opts : List Opt := [⟨.delay, ascii "5"⟩, ⟨.verbose, []⟩, ⟨.delay, ascii "20"⟩]
    ∃ params, RunsWith opts params params.server ∧ params.server.delay = 20 := by
  intro opts
  have hread : readOptions opts = ({ Params.init with delay := 20, verbose := true }, none) := by
    decide +kernel
  exact ⟨_, settings_given hread, rfl⟩

/-! ### The flag -/

section

variable {ι : Type} [DecidableEq ι] {J : JsonDump} {m : Machine} {p : Process ι}

/-- What a step does to the server. -/
def served (m : Machine) (q : Process ι × Act ι) : Option (Server × Server.Event) :=
  match move q.1.loop q.2 with
  | none => none
  | some move => Connection.happened m (q.1.daemon, move)

/-- The events of the server in a run. -/
def events (m : Machine) (run : List (Process ι × Act ι)) : List (Server × Server.Event) :=
  run.filterMap (served m)

/-- A signal has come, or the errors of the device have reached the limit. -/
def StopAsked (m : Machine) (limit : ℕ) (run : List (Process ι × Act ι)) : Prop :=
  (∃ event ∈ events m run, event.2 = .signal) ∨ Server.Reached m limit (events m run)

theorem counted_run (m : Machine) {s : Server} (hcounter : s.deviceErrorCounter = 0)
    (hcaught : s.shutdownCaught = false) (es : List Server.Event) :
    Server.Counted m s.deviceErrorLimit.toNat (trace (Server.react m) s es)
      (es.foldl (Server.react m) s) := by
  have hstart : Server.Counted m s.deviceErrorLimit.toNat [] s := by
    constructor
    · rfl
    · rw [hcounter]
      rfl
    · simp [hcaught, Server.Reached]
  apply trace_run (Server.react m) hstart
  intro run s event h
  cases event with
  | call call => exact Server.counted_call h
  | signal => exact Server.counted_signal h

theorem served_step (p : Process ι) (act : Act ι) :
    served m (p, act) = none ∧ (step J m p act).daemon.server = p.daemon.server ∨
      ∃ event, served m (p, act) = some (p.daemon.server, event) ∧
        (step J m p act).daemon.server = Server.react m p.daemon.server event := by
  unfold served step
  dsimp only
  cases move p.loop act with
  | none => exact .inl ⟨rfl, rfl⟩
  | some move => exact Connection.server_step p.daemon move

theorem caught_iff {s : Server} (hcounter : s.deviceErrorCounter = 0)
    (hcaught : s.shutdownCaught = false) (acts : List (Act ι)) :
    (acts.foldl (step J m) (begin ι s)).shutdownCaught = true ↔
      StopAsked m s.deviceErrorLimit.toNat (trace (step J m) (begin ι s) acts) := by
  have hview := @trace_part _ _ (step J m) _ _ (Server.react m) (fun p => p.daemon.server)
    (served m) (begin ι s) acts fun q _ => served_step q.1 q.2
  generalize hrun : trace (step J m) (begin ι s) acts = run at hview
  have hevents : events m run = trace (Server.react m) s ((events m run).map Prod.snd) := hview.1
  have hend : (acts.foldl (step J m) (begin ι s)).daemon.server =
    ((events m run).map Prod.snd).foldl (Server.react m) s := hview.2
  have hcounted := counted_run m hcounter hcaught ((events m run).map Prod.snd)
  rw [← hevents, ← hend] at hcounted
  exact hcounted.caught_iff

theorem next_caught {s : Server} (call : Server.Call) (h : s.shutdownCaught = true) :
    (Server.next m s call).shutdownCaught = true := by
  have hnext : Server.next m s call = (Server.finish m (s, call)).server := rfl
  rw [hnext]
  cases Server.exit m (s, call) with
  | cached r hlive hend =>
      rw [hend]
      exact h
  | performed r hr hret hserver =>
      rw [hserver]
      exact h
  | deviceError e hlive he hcls hthrow hserver =>
      rw [hserver]
      show (s.shutdownCaught || _) = true
      rw [h, Bool.true_or]
  | failed e hlive he hcls hthrow hserver =>
      rw [hserver]
      exact h
  | stopped hlive hend houtcome hserver =>
      rw [hserver]
      exact h

theorem step_caught (act : Act ι) (h : p.shutdownCaught = true) :
    (step J m p act).shutdownCaught = true := by
  unfold Process.shutdownCaught at h ⊢
  obtain ⟨-, hserver⟩ | ⟨event, -, hserver⟩ := @served_step ι _ J m p act
  · rw [hserver]
    exact h
  · rw [hserver]
    cases event with
    | call call => exact next_caught call h
    | signal => rfl

theorem run_caught : ∀ (acts : List (Act ι)) {p : Process ι}, p.shutdownCaught = true →
    (acts.foldl (step J m) p).shutdownCaught = true
  | [], _, h => h
  | act :: acts, _, h => run_caught acts (step_caught act h)

/-! ### The end of the loop -/

/-- The steps of the main thread that are left once the flag is set. -/
def toGo : Phase → ℕ
  | .test => 1
  | .accepting => 2
  | .left => 0

/-- The step is one of the main thread. -/
def Act.isMain : Act ι → Bool
  | .main _ => true
  | _ => false

/-- The step is a connection that is accepted. -/
def accepts (q : Process ι × Act ι) : Bool :=
  match move q.1.loop q.2 with
  | some (.accept _) => true
  | _ => false

/-- Once the flag is set, every step of the main thread brings the end of the loop nearer. -/
theorem toGo_step (act : Act ι) (h : p.shutdownCaught = true) :
    toGo (step J m p act).loop = toGo p.loop - act.isMain.toNat := by
  obtain ⟨d, loop⟩ := p
  unfold step
  dsimp only
  rw [h]
  cases loop <;> cases act <;> rfl

theorem left_iff : ∀ (acts : List (Act ι)) (p : Process ι), p.shutdownCaught = true →
    ((acts.foldl (step J m) p).loop = .left ↔ toGo p.loop ≤ acts.countP Act.isMain)
  | [], p, _ => by
      obtain ⟨d, loop⟩ := p
      cases loop <;> simp [toGo]
  | act :: acts, p, h => by
      rw [List.foldl_cons, left_iff acts _ (step_caught act h), toGo_step act h, List.countP_cons]
      cases act.isMain <;> simp

/-- The connections that are still accepted once the flag is set. -/
def room : Phase → ℕ
  | .accepting => 1
  | _ => 0

theorem room_step (act : Act ι) (h : p.shutdownCaught = true) :
    (accepts (p, act)).toNat + room (step J m p act).loop ≤ room p.loop := by
  obtain ⟨d, loop⟩ := p
  unfold step accepts
  dsimp only
  rw [h]
  cases act with
  | main accepted =>
      cases accepted <;> cases loop <;> simp [move, goOn, room]
  | request i x t => cases loop <;> exact Nat.le_refl _
  | close i => cases loop <;> exact Nat.le_refl _
  | signal => cases loop <;> exact Nat.le_refl _

/-- Once the flag is set, at most the connection is accepted that the main thread waits for. -/
theorem accepted_le : ∀ (acts : List (Act ι)) (p : Process ι), p.shutdownCaught = true →
    (trace (step J m) p acts).countP accepts ≤ room p.loop
  | [], p, _ => Nat.zero_le _
  | act :: acts, p, h => by
      have hfirst := @room_step ι _ J m p act h
      have hrest := accepted_le acts _ (@step_caught ι _ J m p act h)
      rw [trace_cons, List.countP_cons]
      cases haccepts : accepts (p, act) with
      | true =>
          rw [haccepts, Bool.toNat_true] at hfirst
          rw [if_pos rfl]
          omega
      | false =>
          rw [haccepts, Bool.toNat_false] at hfirst
          rw [if_neg Bool.false_ne_true]
          omega

/-- The loop is left at the test, and only when the flag is set. -/
theorem left_of_run : ∀ (acts : List (Act ι)) (p : Process ι), p.loop ≠ .left →
    (acts.foldl (step J m) p).loop = .left →
      ∃ before after, acts = before ++ after ∧
        (before.foldl (step J m) p).shutdownCaught = true ∧
        toGo (before.foldl (step J m) p).loop ≤ after.countP Act.isMain
  | [], p, hp, h => absurd h hp
  | act :: acts, p, hp, h => by
      by_cases hcaught : p.shutdownCaught = true
      · exact ⟨[], act :: acts, rfl, hcaught, (left_iff (act :: acts) p hcaught).mp h⟩
      · have hnext : (step J m p act).loop ≠ .left := by
          obtain ⟨d, loop⟩ := p
          rw [Bool.not_eq_true] at hcaught
          unfold step
          dsimp only at hp ⊢
          rw [hcaught]
          cases loop with
          | left => exact absurd rfl hp
          | test => cases act <;> exact Phase.noConfusion
          | accepting => cases act <;> exact Phase.noConfusion
        obtain ⟨before, after, rfl, hflag, hgo⟩ := left_of_run acts _ hnext h
        exact ⟨act :: before, after, rfl, hflag, hgo⟩

/-- The moves of the daemon in a run. -/
def moved (q : Process ι × Act ι) : Option (Daemon ι × Move ι) :=
  (move q.1.loop q.2).map fun move => (q.1.daemon, move)

theorem daemon_run (p : Process ι) (acts : List (Act ι)) :
    let run := trace (step J m) p acts
    let moves := (run.filterMap moved).map Prod.snd
    run.filterMap moved = trace (Connection.step J m) p.daemon moves ∧
      (acts.foldl (step J m) p).daemon = moves.foldl (Connection.step J m) p.daemon := by
  refine @trace_part _ _ (step J m) _ _ (Connection.step J m) Process.daemon moved p acts ?_
  intro q _
  unfold moved step
  dsimp only
  cases move q.1.loop q.2 with
  | none => exact .inl ⟨rfl, rfl⟩
  | some move => exact .inr ⟨move, rfl, rfl⟩

theorem stopAsked_of_left (params : Params) {acts : List (Act ι)}
    (h : (acts.foldl (step J m) (begin ι params.server)).loop = .left) :
    StopAsked m params.server.deviceErrorLimit.toNat
      (trace (step J m) (begin ι params.server) acts) := by
  obtain ⟨before, after, rfl, hflag, -⟩ := left_of_run acts _ Phase.noConfusion h
  have hcaught : ((before ++ after).foldl (step J m) (begin ι params.server)).shutdownCaught =
      true := by
    rw [List.foldl_append]
    exact run_caught after hflag
  exact (caught_iff rfl rfl _).mp hcaught

/-- **Shutting down.**  In every run of the process the daemon goes through a run of its own; the
loop is not left before a signal has come or the errors of the device have reached the limit; and
from then on, at most the one connection is accepted that the main thread waits for already, and the
loop is left with the next step of the main thread, or with the second one when it waits in
`accept`, and not before. -/
theorem shutdown (J : JsonDump) (m : Machine) (params : Params) (acts : List (Act ι)) :
    let start := begin ι params.server
    let limit := params.server.deviceErrorLimit.toNat
    let run := trace (step J m) start acts
    let moves := (run.filterMap moved).map Prod.snd
    (run.filterMap moved = trace (Connection.step J m) start.daemon moves ∧
      (acts.foldl (step J m) start).daemon = moves.foldl (Connection.step J m) start.daemon) ∧
    ((acts.foldl (step J m) start).loop = .left → StopAsked m limit run) ∧
    ∀ before after, acts = before ++ after →
      StopAsked m limit (trace (step J m) start before) →
      let p := before.foldl (step J m) start
      (trace (step J m) p after).countP accepts ≤ room p.loop ∧
        ((acts.foldl (step J m) start).loop = .left ↔ toGo p.loop ≤ after.countP Act.isMain) := by
  intro start limit run moves
  refine ⟨daemon_run start acts, stopAsked_of_left params, ?_⟩
  intro before after hacts hstop p
  have hcaught : p.shutdownCaught = true := (caught_iff rfl rfl before).mpr hstop
  refine ⟨accepted_le after p hcaught, ?_⟩
  rw [hacts, List.foldl_append]
  exact left_iff after p hcaught

/-! ### The status -/

omit [DecidableEq ι] in
theorem handleError_ne_zero (e : Exn) : handleError ι e ≠ .returned 0 .nothing := by
  unfold handleError
  cases e.cls <;> exact nofun

theorem live_killed (fates : List (Fate ι)) :
    fates.foldl (live J m) .killed = .killed := by
  induction fates with
  | nil => rfl
  | cons fate fates ih => exact ih

theorem live_left (h : p.loop = .left) (fates : List (Fate ι)) :
    fates.foldl (live J m) (.running p) = .running p := by
  induction fates with
  | nil => rfl
  | cons fate fates ih =>
      have hlive : live J m (.running p) fate = .running p := by
        obtain ⟨d, loop⟩ := p
        obtain rfl : loop = .left := h
        cases fate with
        | kill => rfl
        | act act => rfl
      rw [List.foldl_cons, hlive, ih]

/-- No step so far has ended the process. -/
def Survived (J : JsonDump) (m : Machine) (run : List (Process ι × Act ι)) : Prop :=
  ∀ q ∈ run, fatal J m q.1 q.2 = false

theorem survived_cons {act : Act ι} {acts : List (Act ι)} :
    Survived J m (trace (step J m) p (act :: acts)) ↔
      fatal J m p act = false ∧ Survived J m (trace (step J m) (step J m p act) acts) := by
  rw [Survived, trace_cons]
  exact List.forall_mem_cons

/-- The loop is left when it is left by steps none of which ends the process. -/
theorem live_left_iff (p : Process ι) (fates : List (Fate ι)) :
    (∃ q, fates.foldl (live J m) (.running p) = .running q ∧ q.loop = .left) ↔
      ∃ acts rest, fates = acts.map .act ++ rest ∧ Survived J m (trace (step J m) p acts) ∧
        (acts.foldl (step J m) p).loop = .left := by
  induction fates generalizing p with
  | nil =>
      constructor
      · rintro ⟨q, hq, hleft⟩
        obtain rfl := Life.running.inj hq
        exact ⟨[], [], rfl, fun q hq => absurd hq List.not_mem_nil, hleft⟩
      · rintro ⟨acts, rest, hacts, -, hleft⟩
        obtain ⟨hmap, -⟩ := List.append_eq_nil_iff.mp hacts.symm
        rw [List.map_eq_nil_iff.mp hmap] at hleft
        exact ⟨p, rfl, hleft⟩
  | cons fate fates ih =>
      by_cases hp : p.loop = .left
      · rw [live_left hp]
        refine iff_of_true ⟨p, rfl, hp⟩ ⟨[], fate :: fates, rfl, ?_, hp⟩
        exact fun q hq => absurd hq List.not_mem_nil
      rw [List.foldl_cons]
      constructor
      · rintro ⟨q, hq, hleft⟩
        cases fate with
        | kill =>
            rw [live, if_neg hp, live_killed] at hq
            cases hq
        | act act =>
            rw [live] at hq
            split_ifs at hq with hfatal
            · rw [live_killed] at hq
              cases hq
            · obtain ⟨acts, rest, hacts, hsurvived, hend⟩ := (ih _).mp ⟨q, hq, hleft⟩
              rw [Bool.not_eq_true] at hfatal
              refine ⟨act :: acts, rest, ?_, survived_cons.mpr ⟨hfatal, hsurvived⟩, hend⟩
              rw [hacts, List.map_cons, List.cons_append]
      · rintro ⟨acts, rest, hacts, hsurvived, hend⟩
        cases acts with
        | nil => exact absurd hend hp
        | cons act acts =>
            rw [List.map_cons, List.cons_append] at hacts
            obtain ⟨rfl, rfl⟩ := List.cons.inj hacts
            obtain ⟨hfirst, hrest⟩ := survived_cons.mp hsurvived
            have hlive : live J m (.running p) (.act act) = .running (step J m p act) := by
              rw [live, hfirst, if_neg Bool.false_ne_true]
            rw [hlive]
            exact (ih _).mpr ⟨acts, rest, rfl, hrest, hend⟩

end

end InverterTools.Inverterd
