import InverterTools.Packing
import InverterTools.Response

/-! # The client (`p18/client.cc`)

`Client::execute` packs a request, runs it on the device into a fresh buffer of 256 bytes, and
validates and decodes what comes back.  Besides its end, `ExecuteEnd` records whether the request
went out, that is whether `Device::send` came to its end. -/

namespace InverterTools.P18

open Voltronic (Device ReadEvent)

/-- The buffer of `runOnDevice`, with whatever the heap holds there. -/
abbrev ResponseBuffer := { buf : Bytes // buf.length = 256 }

/-- The buffer when the heap holds zeros. -/
def zeroBuffer : ResponseBuffer := ⟨List.replicate 256 0, List.length_replicate⟩

/-- A response object: its class, the buffer, `rawSize_` and the members. -/
structure Response where
  command : CommandType
  raw : Bytes
  rawSize : ℕ
  fields : Decoded
deriving DecidableEq, Repr

/-- The bytes the device returned. -/
def Response.payload (r : Response) : Bytes := r.raw.take r.rawSize

/-- How `execute` ended, the bytes that went out, whether they are all that `send` had to send,
and the reads not made. -/
structure ExecuteEnd where
  outcome : Outcome Exn Response
  wire : Bytes
  sent : Bool
  unread : List ReadEvent
deriving DecidableEq, Repr

/-- The second half of `execute`: from the buffer and the size to a response. -/
def decodeResponse (c : CommandType) (raw : Bytes) (rawSize : ℕ) : Outcome Exn Response := do
  let valid ← (validate c rawSize).run raw
  if valid then
    let fields ← (unpack c rawSize).run raw
    pure ⟨c, raw, rawSize, fields⟩
  else .throw ⟨.invalidResponseError, ascii "validate() failed"⟩

/-- `Client::execute`. -/
def execute (m : Machine) (dev : Device) (env : Device.Script) (buf : ResponseBuffer)
    (c : CommandType) (args : List Bytes) : ExecuteEnd :=
  match packRequest m c args with
  | .error e => ⟨.throw e, [], false, env.reads⟩
  | .ok packed =>
      let r := dev.run env packed buf.1
      let sent := decide ((dev.send env.started packed env.writes).outcome = .ret ())
      ⟨r.outcome >>= decodeResponse c r.outbuf, r.wire, sent, r.unread⟩

theorem payload_of_decodeResponse {c : CommandType} {raw : Bytes} {rawSize : ℕ} {r : Response}
    (h : decodeResponse c raw rawSize = .ret r) : r.payload = raw.take rawSize := by
  unfold decodeResponse at h
  obtain ⟨valid, -, h⟩ := Outcome.bind_eq_ret.mp h
  cases valid with
  | false => cases h
  | true =>
      obtain ⟨fields, -, h⟩ := Outcome.bind_eq_ret.mp h
      rw [← Outcome.ret.inj h, Response.payload]

theorem sent_of_execute_ret {m : Machine} {dev : Device} {env : Device.Script}
    {buf : ResponseBuffer} {c : CommandType} {args : List Bytes} {r : Response}
    (h : (execute m dev env buf c args).outcome = .ret r) :
    (execute m dev env buf c args).sent = true := by
  unfold execute at h ⊢
  cases hp : packRequest m c args with
  | error e => simp [hp] at h
  | ok packed =>
      simp only [hp] at h ⊢
      obtain ⟨n, hrun, -⟩ := Outcome.bind_eq_ret.mp h
      unfold Device.run at hrun
      refine decide_eq_true ?_
      cases hs : (dev.send env.started packed env.writes).outcome with
      | ret u => rfl
      | throw e => simp [hs] at hrun
      | fault => simp [hs] at hrun
      | pending => simp [hs] at hrun

end InverterTools.P18
