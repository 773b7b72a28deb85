import InverterTools.Util

/-! # The reading side of a connection (`server/connection.cc`)

`readLoop` collects a request in the buffer of `Connection::run`, `tokenise` is the first half of
`processRequest`, which cuts the request into words in place, and `run` is the loop around them.
What the socket delivers is a list of `recv` results.  `readLoop` logs the indices it touches and
its `recv` calls; `run` takes the second half of `processRequest` and the sending of the response
as a parameter, which is handed all requests so far. -/

namespace InverterTools.Server

/-- A result of `recv`: the bytes it stored (none at the end of the stream), or `-1`. -/
inductive Recv where
  | data (s : Bytes)
  | error
deriving DecidableEq, Repr

/-- The size `Connection::run` gives its buffer. -/
def bufSize : ℕ := 2048

/-- A call of `recv` that stored `data`: the buffer and the offset of `bufptr` before it. -/
structure RecvStep where
  mem : Bytes
  pos : ℕ
  data : Bytes
deriving DecidableEq, Repr

/-- The indices at which `strstr` reads in the buffer `mem`: up to the end of the occurrence it
finds, or up to the terminating NUL. -/
def scanned (needle mem : Bytes) : List ℕ :=
  match strstr needle (cstr mem) with
  | some i => List.range (i + needle.length)
  | none => List.range ((cstr mem).length + 1)

/-- How `readLoop` ended, the buffer, the indices it wrote or scanned, its successful `recv` calls
and the results not asked for. -/
structure ReadEnd where
  outcome : Outcome Exn ℤ
  mem : Bytes
  touched : List ℕ
  steps : List RecvStep
  unread : List Recv
deriving DecidableEq, Repr

/-- `readLoop`, with `pos` for `bufptr - buf`. -/
def readLoop : List Recv → Bytes → ℕ → ℕ → ℤ → ReadEnd
  | [], mem, _, left, readed => ⟨if left = 0 then .ret readed else .pending, mem, [], [], []⟩
  | e :: rs, mem, pos, left, readed =>
      if left = 0 then ⟨.ret readed, mem, [], [], e :: rs⟩
      else match e with
        | .error => ⟨.ret (-1), mem, [], [], rs⟩
        | .data c =>
            let step : RecvStep := ⟨mem, pos, c⟩
            let stored := List.range' pos c.length
            if c = [] then ⟨.ret readed, mem, [], [step], rs⟩
            else if mem.length < pos + c.length then ⟨.fault, mem, stored, [step], rs⟩
            else
              let mem := splice mem pos c
              let readed := readed + c.length
              if c.head? = some EOT then ⟨.ret readed, mem, stored, [step], rs⟩
              else
                let left := left - c.length
                let pos := pos + c.length
                let nul := pos + c.length
                if mem.length ≤ nul then ⟨.fault, mem, stored ++ [nul], [step], rs⟩
                else
                  let mem := mem.set nul 0
                  let touched := stored ++ nul :: scanned crlf mem
                  if (strstr crlf (cstr mem)).isSome then ⟨.ret readed, mem, touched, [step], rs⟩
                  else
                    let r := readLoop rs mem pos left readed
                    ⟨r.outcome, r.mem, touched ++ r.touched, step :: r.steps, r.unread⟩

/-! ### Tokens -/

/-- `RequestType`. -/
inductive RequestType where
  | version
  | format
  | execute
  | raw
deriving DecidableEq, Repr

/-- The request type a first token selects. -/
def requestType (s : Bytes) : Except Exn RequestType :=
  if s = ascii "format" then .ok .format
  else if s = ascii "v" then .ok .version
  else if s = ascii "exec" then .ok .execute
  else if s = ascii "raw" then .ok .raw
  else .error ⟨.invalidArgument, ascii "invalid token: " ++ s⟩

/-- One call of `strtok_r` with the delimiter `" "`: the spaces skipped, the token, whether a space
behind it was overwritten, and the rest. -/
structure Strtok where
  skipped : Bytes
  token : Bytes
  ended : Bool
  rest : Bytes
deriving DecidableEq, Repr

/-- `strtok_r`, on the string from the saved position on. -/
def strtokR (s : Bytes) : Option Strtok :=
  let skipped := s.takeWhile (· == 0x20)
  match s.dropWhile (· == 0x20) with
  | [] => none
  | b :: t =>
      let token := (b :: t).takeWhile (· != 0x20)
      match (b :: t).dropWhile (· != 0x20) with
      | [] => some ⟨skipped, token, false, []⟩
      | _ :: rest => some ⟨skipped, token, true, rest⟩

/-- The token as a C string after `*strstr(token, "\r\n") = '\0'`. -/
def lineToken (token : Bytes) : Bytes :=
  match strstr crlf token with
  | some i => token.take i
  | none => token

/-- The bytes of the token after `*strstr(token, "\r\n") = '\0'`. -/
def cutToken (token : Bytes) : Bytes :=
  match strstr crlf token with
  | some i => token.set i 0
  | none => token

/-- The token loop of `processRequest`: the request type (`none` when no token has set it), the
arguments, and the bytes of the request after the loop. -/
structure Tokenised where
  result : Except Exn (Option RequestType × List Bytes)
  text : Bytes
deriving DecidableEq, Repr

/-- The loop over the tokens behind the first one. -/
def argumentLoop (type : RequestType) : ℕ → Bytes → Bytes → List Bytes → Tokenised
  | 0, seen, s, args => ⟨.ok (some type, args), seen ++ s⟩
  | fuel + 1, seen, s, args =>
      match strtokR s with
      | none => ⟨.ok (some type, args), seen ++ s⟩
      | some t =>
          let seen := seen ++ t.skipped ++ cutToken t.token ++ if t.ended then [0] else []
          let arg := lineToken t.token
          argumentLoop type fuel seen t.rest (if 0 < arg.length then args ++ [arg] else args)

/-- The token loop on the request `s`. -/
def tokenise (s : Bytes) : Tokenised :=
  match strtokR s with
  | none => ⟨.ok (none, []), s⟩
  | some t =>
      let seen := t.skipped ++ cutToken t.token ++ if t.ended then [0] else []
      match requestType (lineToken t.token) with
      | .error x => ⟨.error x, seen ++ t.rest⟩
      | .ok type => argumentLoop type t.rest.length seen t.rest []

/-! ### The loop over requests -/

/-- How `Connection::run` ended, the requests it has handed to `processRequest`, and all
successful `recv` calls. -/
structure RunEnd where
  outcome : Outcome Exn Unit
  requests : List Bytes
  steps : List RecvStep
deriving DecidableEq, Repr

/-- `Connection::run`.  `respond` is handed the requests so far; it says whether `processRequest`
returned and `sendResponse` succeeded.  The first argument bounds the number of rounds. -/
def run (respond : List Bytes → Outcome Exn Bool) :
    ℕ → Bytes → List Recv → List Bytes → RunEnd
  | 0, _, _, requests => ⟨.pending, requests, []⟩
  | fuel + 1, mem, rs, requests =>
      let r := readLoop rs mem 0 (bufSize - 1) 0
      match r.outcome with
      | .ret rcvd =>
          if rcvd = -1 ∨ rcvd = 0 then ⟨.ret (), requests, r.steps⟩
          else
            let mem := r.mem.set rcvd.toNat 0
            if mem.head? = some EOT then ⟨.ret (), requests, r.steps⟩
            else
              let requests := requests ++ [cstr mem]
              match respond requests with
              | .ret true =>
                  let mem := splice mem 0 (tokenise (cstr mem)).text
                  let next := run respond fuel mem r.unread requests
                  ⟨next.outcome, next.requests, r.steps ++ next.steps⟩
              | .ret false => ⟨.ret (), requests, r.steps⟩
              | .throw x => ⟨.throw x, requests, r.steps⟩
              | .fault => ⟨.fault, requests, r.steps⟩
              | .pending => ⟨.pending, requests, r.steps⟩
      | .throw x => ⟨.throw x, requests, r.steps⟩
      | .fault => ⟨.fault, requests, r.steps⟩
      | .pending => ⟨.pending, requests, r.steps⟩

end InverterTools.Server
