import InverterTools.Client

/-! # The command server (`server/server.cc`)

`Server::executeCommand` holds `client_mutex_`, so calls from any number of connections come one
after the other, each from the state the last one left.  A call meets clock readings, a script for
the device and a fresh buffer; it ends with the response or the exception, the new state, whether
the request went out to the device, and the microseconds it has slept. -/

namespace InverterTools

open P18 (CommandType Machine Response ResponseBuffer)
open Voltronic (Device)

/-- `CachedResponse`. -/
structure CachedResponse where
  time : UInt64
  arguments : List Bytes
  response : Response
deriving DecidableEq, Repr

/-- `Server`, with the global `shutdownCaught`. -/
structure Server where
  device : Device
  cacheTimeout : UInt64
  delay : UInt64
  endExecutionTime : UInt64
  deviceErrorLimit : UInt32
  deviceErrorCounter : UInt32
  cache : CommandType → Option CachedResponse
  shutdownCaught : Bool

namespace Server

/-- `CACHE_TIMEOUT`. -/
def CACHE_TIMEOUT : UInt64 := 1000
/-- `DELAY`. -/
def DELAY : UInt64 := 0
/-- `DEVICE_ERROR_LIMIT`. -/
def DEVICE_ERROR_LIMIT : UInt32 := 10

/-- The constructor. -/
def init (device : Device) : Server :=
  ⟨device, CACHE_TIMEOUT, DELAY, 0, DEVICE_ERROR_LIMIT, 0, fun _ => none, false⟩

/-- What a call of `executeCommand` meets: the clock at the cache, before a delay and at the end,
the script of the device and the buffer. -/
structure Env where
  cacheNow : UInt64
  delayNow : UInt64
  device : Device.Script
  buffer : ResponseBuffer
  done : UInt64
deriving DecidableEq, Repr

/-- How `executeCommand` ended. -/
structure CallEnd where
  outcome : Outcome Exn Response
  server : Server
  sent : Bool
  slept : UInt32

section

variable (s : Server)

/-- The cached response that is still good. -/
def cached (c : CommandType) (args : List Bytes) (now : UInt64) : Option Response :=
  match s.cache c with
  | none => none
  | some cr =>
      if now - cr.time ≤ s.cacheTimeout ∧ args = cr.arguments then some cr.response else none

/-- The `usleep` before a command: its argument is a 32-bit number of microseconds. -/
def delayFor (now : UInt64) : UInt32 :=
  if s.delay ≠ 0 ∧ s.endExecutionTime ≠ 0 then
    let diff := now - s.endExecutionTime
    if diff < s.delay then ((s.delay - diff) * 1000).toUInt32 else 0
  else 0

/-- `cache_.erase(it)` and `cache_[commandType] = cr`. -/
def setCache (c : CommandType) (entry : Option CachedResponse) : Server :=
  { s with cache := Function.update s.cache c entry }

/-- The handler of `DeviceError`. -/
def countDeviceError : Server :=
  let counter := s.deviceErrorCounter + 1
  { s with deviceErrorCounter := counter,
           shutdownCaught := s.shutdownCaught || decide (s.deviceErrorLimit ≤ counter) }

/-- The state after a command that has returned. -/
def store (c : CommandType) (args : List Bytes) (now : UInt64) (response : Response) : Server :=
  { s.setCache c (some ⟨now, args, response⟩) with
    endExecutionTime := now, deviceErrorCounter := 0 }

end

/-- The exception that the handlers of `executeCommand` throw. -/
def translate (e : Exn) : Exn :=
  match e.cls with
  | .deviceError => ⟨.runtimeError, ascii "device error: " ++ e.what⟩
  | .timeoutError => ⟨.runtimeError, ascii "timeout: " ++ e.what⟩
  | .invalidDataError => ⟨.runtimeError, ascii "data is invalid: " ++ e.what⟩
  | .invalidResponseError | .parseError => ⟨.runtimeError, ascii "response is invalid: " ++ e.what⟩
  | _ => e

/-- `Server::executeCommand`. -/
def executeCommand (m : Machine) (s : Server) (env : Env) (c : CommandType) (args : List Bytes) :
    CallEnd :=
  match s.cached c args env.cacheNow with
  | some response => ⟨.ret response, s, false, 0⟩
  | none =>
      let s := s.setCache c none
      let slept := s.delayFor env.delayNow
      let x := P18.execute m s.device env.device env.buffer c args
      match x.outcome with
      | .ret response => ⟨.ret response, s.store c args env.done response, x.sent, slept⟩
      | .throw e =>
          ⟨.throw (translate e), if e.cls = .deviceError then s.countDeviceError else s,
            x.sent, slept⟩
      | .fault => ⟨.fault, s, x.sent, slept⟩
      | .pending => ⟨.pending, s, x.sent, slept⟩

/-! ### Runs -/

/-- One call: the command, its validated arguments, and what it meets. -/
structure Call where
  command : CommandType
  arguments : List Bytes
  env : Env
deriving DecidableEq, Repr

/-- How a call ends. -/
def Call.run (m : Machine) (s : Server) (call : Call) : CallEnd :=
  executeCommand m s call.env call.command call.arguments

/-- The state a call leaves. -/
def next (m : Machine) (s : Server) (call : Call) : Server := (call.run m s).server

end InverterTools.Server
