import InverterTools.Buffers
import InverterTools.Printing
import InverterTools.Texts
import InverterTools.Tokens

/-! # Requests of a client (`Connection::processRequest`, `server/connection.cc`)

A request selects the protocol version, the output format or a command.  What the body of the
`try` throws is caught and printed in the format of the connection, and printing can throw again:
`json::dump` does on a text that is not UTF-8.  Behind the first token all texts are ASCII
(`dispatch_throws`), so only an unknown first token can make the catch block throw.

The variable `type` is not initialised; `uninitialised` is what it holds when no token sets it. -/

namespace InverterTools.Connection

open Formatter (Format JsonDump Written)
open P18 (CommandType Machine validateInput getArgs errorFormat)
open Server (RequestType requestType tokenise strtokR lineToken argumentLoop)

/-- `ConnectionOptions`. -/
structure ConnectionOptions where
  version : ℕ
  format : Format
deriving DecidableEq, Repr

/-- The constructor. -/
def ConnectionOptions.init : ConnectionOptions := ⟨1, .json⟩

/-- `ResponseType`. -/
inductive ResponseType where
  | ok
  | error
deriving DecidableEq, Repr

/-- `server::Response`. -/
structure Response where
  type : ResponseType
  buf : Bytes
deriving DecidableEq, Repr

/-- The text of `CHECK_ARGUMENTS_LENGTH` and `CHECK_ARGUMENTS_MIN_LENGTH`. -/
def argumentsCountError (expected got : ℕ) : Exn :=
  ⟨.invalidArgument, ascii "invalid arguments count: expected " ++ decimal expected ++
    ascii ", got " ++ decimal got⟩

/-- `CHECK_ARGUMENTS_LENGTH`. -/
def checkArgumentsLength (arguments : List Bytes) (size : ℕ) : Except Exn Unit :=
  if arguments.length ≠ size then .error (argumentsCountError size arguments.length) else .ok ()

/-- `CHECK_ARGUMENTS_MIN_LENGTH`. -/
def checkArgumentsMinLength (arguments : List Bytes) (size : ℕ) : Except Exn Unit :=
  if arguments.length < size then .error (argumentsCountError size arguments.length) else .ok ()

/-- `format_from_string`. -/
def formatFromString (s : Bytes) : Except Exn Format :=
  if s = ascii "json" then .ok .json
  else if s = ascii "simple-json" then .ok .simpleJSON
  else if s = ascii "table" then .ok .table
  else if s = ascii "simple-table" then .ok .simpleTable
  else .error (invalidArgument "invalid format")

/-- `case RequestType::Version`. -/
def selectVersion (options : ConnectionOptions) (arguments : List Bytes) :
    Except Exn ConnectionOptions := do
  checkArgumentsLength arguments 1
  let v ← stou (arguments.getD 0 [])
  if v ≠ 1 then .error (invalidArgument "invalid protocol version")
  else pure { options with version := v }

/-- `case RequestType::Format`. -/
def selectFormat (options : ConnectionOptions) (arguments : List Bytes) :
    Except Exn ConnectionOptions := do
  checkArgumentsLength arguments 1
  let format ← formatFromString (arguments.getD 0 [])
  pure { options with format := format }

/-- The first half of `case RequestType::Execute`: the command and its validated arguments. -/
def inputCommand (m : Machine) (arguments : List Bytes) :
    Except Exn (CommandType × List Bytes) := do
  checkArgumentsMinLength arguments 1
  validateInput m (getArgs (arguments.drop 1)) (arguments.getD 0 [])

/-- How the body of the `try` ended, with the text in `resp.buf`. -/
structure Attempt where
  outcome : Outcome Exn Bytes
  options : ConnectionOptions
  server : Server

/-- How `processRequest` ended. -/
structure RequestEnd where
  outcome : Outcome Exn Response
  options : ConnectionOptions
  server : Server

section

variable (J : JsonDump) (m : Machine) (depth : ℕ) (options : ConnectionOptions) (s : Server)
  (env : Server.Env)

/-- A request that changes the options. -/
def applyOptions (x : Except Exn ConnectionOptions) : Attempt :=
  match x with
  | .error e => ⟨.throw e, options, s⟩
  | .ok options => ⟨.ret [], options, s⟩

/-- `case RequestType::Execute`. -/
def executeRequest (arguments : List Bytes) : Attempt :=
  match inputCommand m arguments with
  | .error e => ⟨.throw e, options, s⟩
  | .ok (commandType, commandArguments) =>
      let call := s.executeCommand m env commandType commandArguments
      ⟨call.outcome >>= fun response =>
        (P18.format response.command response.raw response.fields).write J depth options.format,
        options, call.server⟩

/-- The `switch` over the request type; `none` is no enumerator. -/
def dispatch (type : Option RequestType) (arguments : List Bytes) : Attempt :=
  match type with
  | some .version => applyOptions options s (selectVersion options arguments)
  | some .format => applyOptions options s (selectFormat options arguments)
  | some .execute => executeRequest J m depth options s env arguments
  | some .raw => ⟨.throw ⟨.runtimeError, ascii "not implemented"⟩, options, s⟩
  | none => ⟨.ret [], options, s⟩

/-- The body of the `try`. -/
def attempt (uninitialised : Option RequestType) (buf : Bytes) : Attempt :=
  match (tokenise (cstr buf)).result with
  | .error e => ⟨.throw e, options, s⟩
  | .ok (type, arguments) =>
      dispatch J m depth options s env (type.orElse fun _ => uninitialised) arguments

/-- The `catch` block: the text of the exception, in the format of the connection. -/
def report (options : ConnectionOptions) (e : Exn) : Outcome Exn Response := do
  let text ← (errorFormat (cstr e.what)).write J depth options.format
  pure ⟨.error, text⟩

/-- `processRequest`. -/
def processRequest (uninitialised : Option RequestType) (buf : Bytes) : RequestEnd :=
  let a := attempt J m depth options s env uninitialised buf
  ⟨match a.outcome with
    | .ret text => .ret ⟨.ok, text⟩
    | .throw e => report J depth a.options e
    | .fault => .fault
    | .pending => .pending, a.options, a.server⟩

end

/-! ### The first token -/

/-- The first token of a request, up to the end of its line. -/
def firstToken (text : Bytes) : Option Bytes := (strtokR text).map (fun t => lineToken t.token)

theorem argumentLoop_ok (type : RequestType) (fuel : ℕ) (seen text : Bytes) (args : List Bytes) :
    ∃ arguments, (argumentLoop type fuel seen text args).result = .ok (some type, arguments) := by
  induction fuel generalizing seen text args with
  | zero => exact ⟨args, rfl⟩
  | succ fuel ih =>
      unfold argumentLoop
      cases strtokR text with
      | none => exact ⟨args, rfl⟩
      | some t => exact ih _ _ _

/-- The token loop sees no token, an unknown first token, or a request. -/
inductive Tokens (text : Bytes) : Prop where
  | blank (hfirst : firstToken text = none) (hresult : (tokenise text).result = .ok (none, []))
  | unknown (token : Bytes) (e : Exn) (hfirst : firstToken text = some token)
      (htype : requestType token = .error e) (hresult : (tokenise text).result = .error e)
  | request (token : Bytes) (type : RequestType) (arguments : List Bytes)
      (hfirst : firstToken text = some token) (htype : requestType token = .ok type)
      (hresult : (tokenise text).result = .ok (some type, arguments))

theorem tokens (text : Bytes) : Tokens text := by
  cases ht : strtokR text with
  | none =>
      apply Tokens.blank
      · rw [firstToken, ht]
        rfl
      · rw [tokenise, ht]
  | some t =>
      have hfirst : firstToken text = some (lineToken t.token) := by
        rw [firstToken, ht]
        rfl
      cases htype : requestType (lineToken t.token) with
      | error e =>
          refine .unknown _ e hfirst htype ?_
          rw [tokenise, ht]
          simp only [htype]
      | ok type =>
          obtain ⟨arguments, hloop⟩ := argumentLoop_ok type t.rest.length
            (t.skipped ++ Server.cutToken t.token ++ if t.ended then [0] else []) t.rest []
          refine .request _ type arguments hfirst htype ?_
          rw [tokenise, ht]
          simp only [htype]
          exact hloop

theorem requestType_eq_error {token : Bytes} {e : Exn} (h : requestType token = .error e) :
    e.what = ascii "invalid token: " ++ token := by
  unfold requestType at h
  split_ifs at h
  obtain rfl := Except.error.inj h
  rfl

theorem zero_notMem_firstToken {buf token : Bytes} (h : firstToken (cstr buf) = some token) :
    0 ∉ token := by
  obtain ⟨t, ht, rfl⟩ := Option.map_eq_some_iff.mp h
  have htoken : t.token ⊆ cstr buf := by
    unfold strtokR at ht
    intro b hb
    cases hrest : (cstr buf).dropWhile (· == 0x20) with
    | nil => simp [hrest] at ht
    | cons c rest =>
        have hb' : b ∈ (c :: rest).takeWhile (· != 0x20) := by
          simp only [hrest] at ht
          cases hend : (c :: rest).dropWhile (· != 0x20) with
          | nil =>
              simp only [hend] at ht
              rwa [← Option.some.inj ht] at hb
          | cons d tail =>
              simp only [hend] at ht
              rwa [← Option.some.inj ht] at hb
        have hmem := (List.takeWhile_subset _) hb'
        rw [← hrest] at hmem
        exact (List.dropWhile_subset _) hmem
  have hline : lineToken t.token ⊆ t.token := by
    unfold lineToken
    cases strstr crlf t.token with
    | none => exact List.Subset.refl _
    | some i => exact List.take_subset i _
  intro hzero
  exact zero_notMem_cstr buf (htoken (hline hzero))

/-! ### What is thrown and caught -/

theorem argumentsCountError_printable (expected got : ℕ) :
    (argumentsCountError expected got).Printable := by
  simp only [Exn.Printable, argumentsCountError, isPrintable_append, isPrintable_decimal]
  decide

theorem checkArgumentsLength_raises (arguments : List Bytes) (size : ℕ) :
    Raises Exn.Printable (checkArgumentsLength arguments size) := by
  unfold checkArgumentsLength
  split_ifs
  · exact raises_error.mpr (argumentsCountError_printable _ _)
  · exact raises_ok ()

theorem inputCommand_raises (m : Machine) (arguments : List Bytes) :
    Raises Exn.Printable (inputCommand m arguments) := by
  have hcount : Raises Exn.Printable (checkArgumentsMinLength arguments 1) := by
    unfold checkArgumentsMinLength
    split_ifs
    · exact raises_error.mpr (argumentsCountError_printable _ _)
    · exact raises_ok ()
  exact raises_bind hcount fun _ => P18.validateInput_raises _ _

theorem selectVersion_raises (options : ConnectionOptions) (arguments : List Bytes) :
    Raises Exn.Printable (selectVersion options arguments) := by
  refine raises_bind (checkArgumentsLength_raises arguments 1) ?_
  intro _
  refine raises_bind (stou_raises _) ?_
  intro v
  split_ifs
  · exact raises_error.mpr (by decide)
  · exact raises_pure _

theorem formatFromString_raises (text : Bytes) : Raises Exn.Printable (formatFromString text) := by
  unfold formatFromString
  split_ifs
  · exact raises_ok _
  · exact raises_ok _
  · exact raises_ok _
  · exact raises_ok _
  · exact raises_error.mpr (by decide)

theorem selectFormat_raises (options : ConnectionOptions) (arguments : List Bytes) :
    Raises Exn.Printable (selectFormat options arguments) := by
  refine raises_bind (checkArgumentsLength_raises arguments 1) ?_
  intro _
  exact raises_bind (formatFromString_raises _) fun format => raises_pure _

section

variable (J : JsonDump) (m : Machine) (depth : ℕ) (options : ConnectionOptions) (s : Server)
  (env : Server.Env)

theorem applyOptions_throws {x : Except Exn ConnectionOptions} (hx : Raises Exn.Printable x) :
    (applyOptions options s x).outcome.Throws Exn.Printable := by
  unfold applyOptions
  cases x with
  | error e => exact Outcome.throws_throw.mpr (hx e rfl)
  | ok options' => exact Outcome.throws_ret []

/-- Writing a response ends in one of three ways, and throws an ASCII text at most. -/
theorem format_written (response : P18.Response) :
    Written ((P18.format response.command response.raw response.fields).write J depth
        options.format)
      ((P18.format response.command response.raw response.fields).Ends options.format)
      ((P18.format response.command response.raw response.fields).Plain options.format) :=
  Formatter.Formattable.write_written J depth options.format
    (P18.format_asciiKeys response.command response.raw response.fields)

/-- The text is printable, or an ASCII text of the serialiser. -/
def Tame (options : ConnectionOptions) (e : Exn) : Prop :=
  e.Printable ∨ (options.format ≠ .table ∧ options.format ≠ .simpleTable ∧ e.Ascii)

theorem Tame.ascii {e : Exn} (h : Tame options e) : e.Ascii := by
  rcases h with h | ⟨-, -, h⟩
  · exact h.ascii
  · exact h

theorem not_table_of_not_plain {f : Formatter.Formattable P18.Variant} {format : Format}
    (h : ¬ f.Plain format) : format ≠ .table ∧ format ≠ .simpleTable := by
  constructor
  · rintro rfl
    exact h (by cases f <;> exact .inl rfl)
  · rintro rfl
    exact h (by cases f <;> exact .inr (.inl rfl))

/-- Behind the first token, whatever a request throws is printable, or comes from the serialiser. -/
theorem dispatch_tame (type : Option RequestType) (arguments : List Bytes) :
    (dispatch J m depth options s env type arguments).outcome.Throws (Tame options) := by
  have hprintable {α : Type} {o : Outcome Exn α} (h : o.Throws Exn.Printable) :
      o.Throws (Tame options) := fun e he => .inl (h e he)
  cases type with
  | none => exact Outcome.throws_ret []
  | some type =>
      cases type with
      | version =>
          exact hprintable (applyOptions_throws options s (selectVersion_raises options arguments))
      | format =>
          exact hprintable (applyOptions_throws options s (selectFormat_raises options arguments))
      | raw => exact Outcome.throws_throw.mpr (.inl (by decide))
      | execute =>
          show (executeRequest J m depth options s env arguments).outcome.Throws (Tame options)
          unfold executeRequest
          cases hinput : inputCommand m arguments with
          | error e =>
              exact Outcome.throws_throw.mpr (.inl (inputCommand_raises m arguments e hinput))
          | ok input =>
              refine Outcome.throws_bind (hprintable (Server.executeCommand_throws m s env _ _)) ?_
              intro response
              cases format_written J depth options response with
              | text text ho =>
                  rw [ho]
                  exact Outcome.throws_ret text
              | thrown e ho hd _ hp =>
                  rw [ho]
                  obtain ⟨htable, hsimple⟩ := not_table_of_not_plain hp
                  exact Outcome.throws_throw.mpr (.inr ⟨htable, hsimple, hd.2⟩)
              | stuck ho =>
                  rw [ho]
                  exact Outcome.throws_pending

theorem dispatch_throws (type : Option RequestType) (arguments : List Bytes) :
    (dispatch J m depth options s env type arguments).outcome.Throws Exn.Ascii := fun e he =>
  (dispatch_tame J m depth options s env type arguments e he).ascii options

/-- The text of an exception can be printed in the format of the connection. -/
def Fits (options : ConnectionOptions) (e : Exn) : Prop :=
  options.format = .table ∨ options.format = .simpleTable ∨ validUtf8 (cstr e.what) = true

/-- The catch block returns exactly when the text fits the format. -/
theorem report_cases (e : Exn) :
    (Fits options e ∧ ∃ r, report J depth options e = .ret r) ∨
      (¬ Fits options e ∧ ∃ e', report J depth options e = .throw e') := by
  have hkeys : (errorFormat (cstr e.what)).AsciiKeys := trivial
  cases Formatter.Formattable.write_written J depth options.format hkeys with
  | text text ho _ hp =>
      refine .inl ⟨hp, ⟨.error, text⟩, ?_⟩
      rw [report, ho]
      rfl
  | thrown e' ho _ _ hp =>
      refine .inr ⟨hp, e', ?_⟩
      rw [report, ho]
      rfl
  | stuck ho he => exact absurd trivial he

theorem report_of_ascii {e : Exn} (he : e.Ascii) : ∃ r, report J depth options e = .ret r := by
  have hcstr : isAscii (cstr e.what) = true := isAscii_of_subset (cstr_isPrefix e.what).subset he
  rcases report_cases J depth options e with ⟨-, hr⟩ | ⟨hfits, -⟩
  · exact hr
  · exact absurd (.inr (.inr (validUtf8_of_isAscii hcstr))) hfits

end

/-! ### When a request is answered -/

/-- The command that a request executes. -/
def requested (m : Machine) (buf : Bytes) : Option (CommandType × List Bytes) :=
  match (tokenise (cstr buf)).result with
  | .ok (some .execute, arguments) => (inputCommand m arguments).toOption
  | _ => none

/-- A first token that is no request type can be printed in the format. -/
def TokenPrintable (options : ConnectionOptions) (buf : Bytes) : Prop :=
  options.format = .table ∨ options.format = .simpleTable ∨
    ∀ token e, firstToken (cstr buf) = some token → requestType token = .error e →
      validUtf8 token = true

/-- The command, if there is one, comes to its end inside its buffers, and the codes that its
response shows have names. -/
def CommandEnds (m : Machine) (options : ConnectionOptions) (s : Server) (env : Server.Env)
    (buf : Bytes) : Prop :=
  ∀ c args, requested m buf = some (c, args) →
    (s.executeCommand m env c args).outcome.Ended ∧
      ∀ response, (s.executeCommand m env c args).outcome = .ret response →
        (P18.format response.command response.raw response.fields).Ends options.format

section

variable (J : JsonDump) (m : Machine) (depth : ℕ) {options : ConnectionOptions} {s : Server}
  {env : Server.Env}

theorem output_ended_iff (o : Outcome Exn P18.Response) :
    (o >>= fun response => (P18.format response.command response.raw response.fields).write J depth
        options.format).Ended ↔
      o.Ended ∧ ∀ response, o = .ret response →
        (P18.format response.command response.raw response.fields).Ends options.format := by
  cases o with
  | throw e =>
      refine iff_of_true (Outcome.ended_iff.mpr (.inr ⟨e, rfl⟩)) ?_
      refine ⟨Outcome.ended_iff.mpr (.inr ⟨e, rfl⟩), ?_⟩
      intro response h
      cases h
  | fault => exact iff_of_false (fun h => h.1 rfl) (fun h => h.1.1 rfl)
  | pending => exact iff_of_false (fun h => h.2 rfl) (fun h => h.1.2 rfl)
  | ret response =>
      have hret : (Outcome.ret response : Outcome Exn P18.Response).Ended :=
        Outcome.ended_iff.mpr (.inl ⟨response, rfl⟩)
      rw [Outcome.ret_bind]
      cases format_written J depth options response with
      | text text ho he =>
          rw [ho]
          refine iff_of_true (Outcome.ended_iff.mpr (.inl ⟨text, rfl⟩)) ⟨hret, ?_⟩
          intro response' h
          obtain rfl := Outcome.ret.inj h
          exact he
      | thrown e ho _ he =>
          rw [ho]
          refine iff_of_true (Outcome.ended_iff.mpr (.inr ⟨e, rfl⟩)) ⟨hret, ?_⟩
          intro response' h
          obtain rfl := Outcome.ret.inj h
          exact he
      | stuck ho he =>
          rw [ho]
          exact iff_of_false (fun h => h.2 rfl) (fun h => he (h.2 response rfl))

theorem applyOptions_ended (x : Except Exn ConnectionOptions) :
    (applyOptions options s x).outcome.Ended := by
  cases x with
  | error e => exact Outcome.ended_iff.mpr (.inr ⟨e, rfl⟩)
  | ok options' => exact Outcome.ended_iff.mpr (.inl ⟨[], rfl⟩)

theorem attempt_ended_iff (uninitialised : Option RequestType) {buf : Bytes} :
    (attempt J m depth options s env uninitialised buf).outcome.Ended ↔
      CommandEnds m options s env buf := by
  unfold attempt CommandEnds requested
  cases tokens (cstr buf) with
  | blank _ hresult =>
      rw [hresult]
      refine iff_of_true ?_ (fun c args h => by cases h)
      cases uninitialised with
      | none => exact Outcome.ended_iff.mpr (.inl ⟨[], rfl⟩)
      | some type =>
          cases type with
          | version => exact applyOptions_ended _
          | format => exact applyOptions_ended _
          | raw => exact Outcome.ended_iff.mpr (.inr ⟨_, rfl⟩)
          | execute => exact Outcome.ended_iff.mpr (.inr ⟨_, rfl⟩)
  | unknown token e _ _ hresult =>
      rw [hresult]
      exact iff_of_true (Outcome.ended_iff.mpr (.inr ⟨e, rfl⟩)) (fun c args h => by cases h)
  | request token type arguments _ _ hresult =>
      rw [hresult]
      cases type with
      | version => exact iff_of_true (applyOptions_ended _) (fun c args h => by cases h)
      | format => exact iff_of_true (applyOptions_ended _) (fun c args h => by cases h)
      | raw =>
          exact iff_of_true (Outcome.ended_iff.mpr (.inr ⟨_, rfl⟩)) (fun c args h => by cases h)
      | execute =>
          show (executeRequest J m depth options s env arguments).outcome.Ended ↔
            ∀ c args, (inputCommand m arguments).toOption = some (c, args) → _
          unfold executeRequest
          cases inputCommand m arguments with
          | error e =>
              exact iff_of_true (Outcome.ended_iff.mpr (.inr ⟨e, rfl⟩)) (fun c args h => by cases h)
          | ok input =>
              refine (output_ended_iff J depth _).trans ?_
              constructor
              · intro h c args hinput
                obtain rfl : input = (c, args) := Option.some.inj hinput
                exact h
              · intro h
                exact h input.1 input.2 rfl

theorem attempt_unknown (uninitialised : Option RequestType) {buf : Bytes} {e : Exn}
    (hresult : (tokenise (cstr buf)).result = .error e) :
    attempt J m depth options s env uninitialised buf = ⟨.throw e, options, s⟩ := by
  unfold attempt
  rw [hresult]

theorem attempt_throws (uninitialised : Option RequestType) {buf : Bytes}
    {input : Option RequestType × List Bytes} (hresult : (tokenise (cstr buf)).result = .ok input) :
    (attempt J m depth options s env uninitialised buf).outcome.Throws Exn.Ascii := by
  unfold attempt
  rw [hresult]
  exact dispatch_throws J m depth options s env _ _

/-- What the catch block prints of an unknown token, and when it can. -/
theorem report_unknown_iff {buf token : Bytes} {e : Exn}
    (hfirst : firstToken (cstr buf) = some token) (htype : requestType token = .error e) :
    Fits options e ↔ TokenPrintable options buf := by
  have hwhat := requestType_eq_error htype
  have hhead : validUtf8 (ascii "invalid token: ") = true := by decide
  have hzero : 0 ∉ e.what := by
    rw [hwhat, List.mem_append, not_or]
    exact ⟨by decide, zero_notMem_firstToken hfirst⟩
  rw [Fits, cstr_of_notMem hzero, hwhat, validUtf8_append hhead, TokenPrintable]
  refine or_congr_right (or_congr_right ?_)
  constructor
  · intro h token' e' hfirst' _
    rw [hfirst] at hfirst'
    rwa [← Option.some.inj hfirst']
  · intro h
    exact h token e hfirst htype

theorem processRequest_of_ascii {uninitialised : Option RequestType} {buf : Bytes}
    (h : (attempt J m depth options s env uninitialised buf).outcome.Throws Exn.Ascii) :
    let o := (processRequest J m depth options s env uninitialised buf).outcome
    (∀ e, o ≠ .throw e) ∧
      ((∃ r, o = .ret r) ↔ (attempt J m depth options s env uninitialised buf).outcome.Ended) := by
  unfold processRequest
  cases ho : (attempt J m depth options s env uninitialised buf).outcome with
  | ret text => simp [ho, Outcome.Ended]
  | fault => simp [ho, Outcome.Ended]
  | pending => simp [ho, Outcome.Ended]
  | throw e =>
      obtain ⟨r, hr⟩ := report_of_ascii J depth
        (attempt J m depth options s env uninitialised buf).options (h e ho)
      simp [ho, hr, Outcome.Ended]

theorem requestType_ne_error {buf token : Bytes} {input : Option RequestType × List Bytes} {e : Exn}
    (hresult : (tokenise (cstr buf)).result = .ok input)
    (hfirst : firstToken (cstr buf) = some token) : requestType token ≠ .error e := by
  intro htype
  cases tokens (cstr buf) with
  | blank hfirst' =>
      rw [hfirst] at hfirst'
      cases hfirst'
  | unknown _ e' _ _ hresult' =>
      rw [hresult] at hresult'
      cases hresult'
  | request token' type _ hfirst' htype' =>
      rw [hfirst] at hfirst'
      obtain rfl := Option.some.inj hfirst'
      rw [htype] at htype'
      cases htype'

theorem tokenPrintable_of_ok {buf : Bytes} {input : Option RequestType × List Bytes}
    (hresult : (tokenise (cstr buf)).result = .ok input) : TokenPrintable options buf :=
  .inr (.inr fun _ _ hfirst htype => absurd htype (requestType_ne_error hresult hfirst))

/-- **No request ends the daemon**, exactly when its first token can be printed: an exception
leaves `processRequest` exactly if the output format is JSON and the first token is no request type
and no UTF-8; and it returns a response exactly if moreover its command, if it has one, comes to its
end and shows no code without a name. -/
theorem processRequest_returns_iff (options : ConnectionOptions) (s : Server) (env : Server.Env)
    (uninitialised : Option RequestType) (buf : Bytes) :
    ((∀ depth e, (processRequest J m depth options s env uninitialised buf).outcome ≠ .throw e) ↔
        TokenPrintable options buf) ∧
      ((∃ depth r, (processRequest J m depth options s env uninitialised buf).outcome = .ret r) ↔
        TokenPrintable options buf ∧ CommandEnds m options s env buf) := by
  have hended (depth : ℕ) : (attempt J m depth options s env uninitialised buf).outcome.Ended ↔
      CommandEnds m options s env buf := attempt_ended_iff J m depth uninitialised
  cases hresult : (tokenise (cstr buf)).result with
  | ok input =>
      have hprintable : TokenPrintable options buf := tokenPrintable_of_ok hresult
      have hthrows (depth : ℕ) :
          (attempt J m depth options s env uninitialised buf).outcome.Throws Exn.Ascii :=
        attempt_throws J m depth uninitialised hresult
      have hanswer (depth : ℕ) := processRequest_of_ascii J m depth (hthrows depth)
      refine ⟨iff_of_true (fun depth => (hanswer depth).1) hprintable, ?_⟩
      rw [and_iff_right hprintable]
      constructor
      · rintro ⟨depth, hr⟩
        exact (hended depth).mp ((hanswer depth).2.mp hr)
      · intro hcommand
        exact ⟨0, (hanswer 0).2.mpr ((hended 0).mpr hcommand)⟩
  | error e =>
      have hattempt (depth : ℕ) : attempt J m depth options s env uninitialised buf =
          ⟨.throw e, options, s⟩ := attempt_unknown J m depth uninitialised hresult
      have hcommand : CommandEnds m options s env buf := by
        rw [← hended 0, hattempt]
        exact Outcome.ended_iff.mpr (.inr ⟨e, rfl⟩)
      have hreport (depth : ℕ) :
          (processRequest J m depth options s env uninitialised buf).outcome =
            report J depth options e := by
        unfold processRequest
        rw [hattempt]
      have hfits : Fits options e ↔ TokenPrintable options buf := by
        cases tokens (cstr buf) with
        | blank _ hresult' => rw [hresult] at hresult'; cases hresult'
        | request _ _ _ _ _ hresult' => rw [hresult] at hresult'; cases hresult'
        | unknown token e' hfirst htype hresult' =>
            rw [hresult] at hresult'
            obtain rfl := Except.error.inj hresult'
            exact report_unknown_iff hfirst htype
      rw [← hfits, and_iff_left hcommand]
      constructor
      · constructor
        · intro h
          rcases report_cases J 0 options e with ⟨hf, -⟩ | ⟨-, e', he'⟩
          · exact hf
          · exact absurd ((hreport 0).trans he') (h 0 e')
        · intro hf depth e' he'
          rcases report_cases J depth options e with ⟨-, r, hr⟩ | ⟨hnot, -⟩
          · rw [hreport, hr] at he'
            cases he'
          · exact hnot hf
      · constructor
        · rintro ⟨depth, r, hr⟩
          rcases report_cases J depth options e with ⟨hf, -⟩ | ⟨-, e', he'⟩
          · exact hf
          · rw [hreport, he'] at hr
            cases hr
        · intro hf
          rcases report_cases J 0 options e with ⟨-, r, hr⟩ | ⟨hnot, -⟩
          · exact ⟨0, r, (hreport 0).trans hr⟩
          · exact absurd hf hnot

/-- With a driver that reports what it transfers, a command only fails to end by waiting for ever or
by showing a code without a name. -/
theorem commandEnds_iff {buf : Bytes} (hcounts : s.device.Counts env.device.writes)
    (hd : s.device.Delivers 256 env.device.reads) :
    CommandEnds m options s env buf ↔ ∀ c args, requested m buf = some (c, args) →
      (s.executeCommand m env c args).outcome ≠ .pending ∧
        ∀ response, (s.executeCommand m env c args).outcome = .ret response →
          (P18.format response.command response.raw response.fields).Ends options.format := by
  unfold CommandEnds
  refine forall₃_congr fun c args _ => and_congr_left' ?_
  constructor
  · intro h
    exact h.2
  · intro h
    exact Server.executeCommand_ended m c args hcounts hd h

/-- The request `FF CR LF` in the default format: the error response cannot be printed, and the
exception of the serialiser leaves `processRequest`. -/
theorem processRequest_throws : ¬ ∀ (J : JsonDump) (m : Machine) (options : ConnectionOptions)
    (s : Server) (env : Server.Env) (uninitialised : Option RequestType) (buf : Bytes), 0 ∈ buf →
      ∃ depth r, (processRequest J m depth options s env uninitialised buf).outcome = .ret r := by
  intro h
  let device : Voltronic.Device := ⟨.usb, Voltronic.defaultFlags, Voltronic.TIMEOUT⟩
  let env : Server.Env := ⟨0, 0, ⟨0, [], 0, 0, []⟩, P18.zeroBuffer, 0⟩
  obtain ⟨depth, r, hr⟩ := h Formatter.textDump P18.x86 .init (Server.init device) env none
    [0xFF, CR, LF, 0] (by decide)
  have hreport : report Formatter.textDump depth .init
      ⟨.invalidArgument, ascii "invalid token: " ++ [0xFF]⟩ = .ret r := hr
  rcases report_cases Formatter.textDump depth .init
    ⟨.invalidArgument, ascii "invalid token: " ++ [0xFF]⟩ with ⟨hfits, -⟩ | ⟨-, e', he'⟩
  · exact absurd hfits (show ¬ (Format.json = .table ∨ Format.json = .simpleTable ∨
      validUtf8 (cstr (ascii "invalid token: " ++ [0xFF])) = true) by decide)
  · rw [he'] at hreport
    cases hreport

end

/-! ### Requests that are answered `ok` -/

theorem checkArgumentsLength_eq_ok {arguments : List Bytes} {size : ℕ} {u : Unit} :
    checkArgumentsLength arguments size = .ok u ↔ arguments.length = size := by
  unfold checkArgumentsLength
  split_ifs with h
  · simp [h]
  · simp [not_not.mp h]

theorem selectVersion_eq_ok {options options' : ConnectionOptions} {arguments : List Bytes} :
    selectVersion options arguments = .ok options' ↔
      ∃ a, arguments = [a] ∧ stou a = .ok 1 ∧ options' = { options with version := 1 } := by
  simp only [selectVersion, bind_eq_ok, checkArgumentsLength_eq_ok]
  constructor
  · rintro ⟨-, hlen, v, hv, h⟩
    obtain ⟨a, rfl⟩ := List.length_eq_one_iff.mp hlen
    split_ifs at h with hone
    obtain rfl := not_not.mp hone
    exact ⟨a, rfl, hv, (pure_eq_ok.mp h).symm⟩
  · rintro ⟨a, rfl, hv, rfl⟩
    exact ⟨(), rfl, 1, hv, rfl⟩

theorem selectFormat_eq_ok {options options' : ConnectionOptions} {arguments : List Bytes} :
    selectFormat options arguments = .ok options' ↔ ∃ name format, arguments = [name] ∧
      formatFromString name = .ok format ∧ options' = { options with format := format } := by
  simp only [selectFormat, bind_eq_ok, checkArgumentsLength_eq_ok]
  constructor
  · rintro ⟨-, hlen, format, hformat, h⟩
    obtain ⟨name, rfl⟩ := List.length_eq_one_iff.mp hlen
    exact ⟨name, format, rfl, hformat, (pure_eq_ok.mp h).symm⟩
  · rintro ⟨name, format, rfl, hformat, rfl⟩
    exact ⟨(), rfl, format, hformat, rfl⟩

/-- How a request is answered `ok` with a text, and the options after it. -/
inductive Done (J : JsonDump) (m : Machine) (depth : ℕ) (options : ConnectionOptions) (s : Server)
    (env : Server.Env) (uninitialised : Option RequestType) (buf : Bytes) :
    Bytes → ConnectionOptions → Prop where
  | version (argument : Bytes)
      (hresult : (tokenise (cstr buf)).result = .ok (some .version, [argument]))
      (hone : stou argument = .ok 1) : Done J m depth options s env uninitialised buf []
        { options with version := 1 }
  | format (name : Bytes) (format : Format)
      (hresult : (tokenise (cstr buf)).result = .ok (some .format, [name]))
      (hname : formatFromString name = .ok format) : Done J m depth options s env uninitialised buf
        [] { options with format := format }
  | execute (arguments : List Bytes) (c : CommandType) (args : List Bytes)
      (response : P18.Response) (text : Bytes)
      (hresult : (tokenise (cstr buf)).result = .ok (some .execute, arguments))
      (hinput : inputCommand m arguments = .ok (c, args))
      (hret : (s.executeCommand m env c args).outcome = .ret response)
      (hwrite : (P18.format response.command response.raw response.fields).write J depth
        options.format = .ret text) : Done J m depth options s env uninitialised buf text options
  | blank (hresult : (tokenise (cstr buf)).result = .ok (none, [])) (hnone : uninitialised = none) :
      Done J m depth options s env uninitialised buf [] options

section

variable (J : JsonDump) (m : Machine) (depth : ℕ) {options : ConnectionOptions} {s : Server}
  {env : Server.Env} {uninitialised : Option RequestType} {buf : Bytes}

theorem dispatch_throw {type : Option RequestType} {arguments : List Bytes} {e : Exn}
    (h : (dispatch J m depth options s env type arguments).outcome = .throw e) :
    (dispatch J m depth options s env type arguments).options = options := by
  have happly {x : Except Exn ConnectionOptions}
      (hx : (applyOptions options s x).outcome = .throw e) :
      (applyOptions options s x).options = options := by
    cases x with
    | error e' => rfl
    | ok options' => cases hx
  cases type with
  | none => rfl
  | some type =>
      cases type with
      | version => exact happly h
      | format => exact happly h
      | raw => rfl
      | execute =>
          show (executeRequest J m depth options s env arguments).options = options
          unfold executeRequest
          cases inputCommand m arguments with
          | error e' => rfl
          | ok input => rfl

theorem attempt_throw {e : Exn}
    (h : (attempt J m depth options s env uninitialised buf).outcome = .throw e) :
    (attempt J m depth options s env uninitialised buf).options = options := by
  unfold attempt at h ⊢
  cases hresult : (tokenise (cstr buf)).result with
  | error e' => rfl
  | ok input =>
      rw [hresult] at h
      exact dispatch_throw J m depth h

/-- A request is answered `ok` in one of four ways; the fourth needs a request without a token and
a `type` that happens to be no enumerator. -/
theorem attempt_ret {text : Bytes}
    (h : (attempt J m depth options s env uninitialised buf).outcome = .ret text) :
    Done J m depth options s env uninitialised buf text
      (attempt J m depth options s env uninitialised buf).options := by
  have happly {x : Except Exn ConnectionOptions}
      (hx : (applyOptions options s x).outcome = .ret text) :
      text = [] ∧ ∃ options', x = .ok options' ∧ (applyOptions options s x).options = options' := by
    cases x with
    | error e => cases hx
    | ok options' => exact ⟨(Outcome.ret.inj hx).symm, options', rfl, rfl⟩
  unfold attempt at h ⊢
  cases tokens (cstr buf) with
  | unknown token e _ _ hresult =>
      rw [hresult] at h
      cases h
  | blank _ hresult =>
      rw [hresult] at h ⊢
      cases uninitialised with
      | none =>
          obtain rfl := Outcome.ret.inj h
          exact .blank hresult rfl
      | some type =>
          -- without arguments no request is accepted
          cases type with
          | version => cases h
          | format => cases h
          | raw => cases h
          | execute => cases h
  | request token type arguments _ _ hresult =>
      rw [hresult] at h ⊢
      cases type with
      | version =>
          obtain ⟨rfl, options', hok, heq⟩ := happly h
          obtain ⟨a, rfl, hone, rfl⟩ := selectVersion_eq_ok.mp hok
          exact heq ▸ .version a hresult hone
      | format =>
          obtain ⟨rfl, options', hok, heq⟩ := happly h
          obtain ⟨name, format, rfl, hname, rfl⟩ := selectFormat_eq_ok.mp hok
          exact heq ▸ .format name format hresult hname
      | raw => cases h
      | execute =>
          simp only [dispatch, executeRequest] at h ⊢
          cases hinput : inputCommand m arguments with
          | error e =>
              rw [hinput] at h
              cases h
          | ok input =>
              rw [hinput] at h
              obtain ⟨response, hret, hwrite⟩ := Outcome.bind_eq_ret.mp h
              exact .execute arguments input.1 input.2 response text hresult hinput hret hwrite

end

end InverterTools.Connection
