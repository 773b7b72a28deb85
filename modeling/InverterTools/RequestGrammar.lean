import InverterTools.Requests

/-! # The grammar of requests

`PROTOCOL.md` has three requests that can be answered `ok`: a protocol version, an output format
and a command.  `request_grammar_iff` says for which buffers `processRequest` keeps to it.  There
are two ways out: a buffer without a token leaves `type` unset, and `std::stoul` with the cast to
`unsigned` takes more texts for `1` than the numerals of `1`. -/

namespace InverterTools.Connection

open Formatter (JsonDump)
open P18 (CommandType Machine)
open Server (RequestType requestType tokenise words lineRequest LineEnd)

/-- The name of an output format. -/
def formatNames : List Bytes :=
  [ascii "json", ascii "simple-json", ascii "table", ascii "simple-table"]

/-- The words of a request that the protocol knows. -/
inductive Grammatical (m : Machine) (s : Server) (env : Server.Env) (words : List Bytes) : Prop
  where
  | version (numeral : Bytes) (hwords : words = [ascii "v", numeral]) (hdigits : AllDigits numeral)
      (hone : numVal numeral = 1)
  | format (name : Bytes) (hwords : words = [ascii "format", name]) (hname : name ∈ formatNames)
  | execute (arguments : List Bytes) (c : CommandType) (args : List Bytes)
      (response : P18.Response) (hwords : words = ascii "exec" :: arguments)
      (hinput : inputCommand m arguments = .ok (c, args))
      (hret : (s.executeCommand m env c args).outcome = .ret response)

/-- `processRequest` keeps to the grammar on a buffer with these words: only its requests are
answered `ok`, a request for a version or a format is; any other request that comes to an end ends
in the error branch; and the `switch` sees a type that a token has set. -/
structure KeepsGrammar (J : JsonDump) (m : Machine) (depth : ℕ) (options : ConnectionOptions)
    (s : Server) (env : Server.Env) (uninitialised : Option RequestType) (buf : Bytes)
    (words : List Bytes) : Prop where
  only : ∀ text, (processRequest J m depth options s env uninitialised buf).outcome =
    .ret ⟨.ok, text⟩ → Grammatical m s env words
  accepted : Grammatical m s env words → words.head? ≠ some (ascii "exec") →
    (processRequest J m depth options s env uninitialised buf).outcome = .ret ⟨.ok, []⟩
  refused : ¬ Grammatical m s env words →
    (attempt J m depth options s env uninitialised buf).outcome.Ended →
    ∃ e, (attempt J m depth options s env uninitialised buf).outcome = .throw e
  assigned : ∀ arguments, (tokenise (cstr buf)).result ≠ .ok (none, arguments)

/-! ### The words of a request type -/

/-- The token that selects a request type. -/
def keyword : RequestType → Bytes
  | .version => ascii "v"
  | .format => ascii "format"
  | .execute => ascii "exec"
  | .raw => ascii "raw"

theorem requestType_eq_ok {token : Bytes} {type : RequestType} :
    requestType token = .ok type ↔ token = keyword type := by
  constructor
  · intro h
    unfold requestType at h
    split_ifs at h with h1 h2 h3 h4 <;> obtain rfl := Except.ok.inj h
    · exact h1
    · exact h2
    · exact h3
    · exact h4
  · rintro rfl
    cases type <;> decide

theorem lineRequest_eq_ok {line : Bytes} {type : RequestType} {arguments : List Bytes} :
    lineRequest line = .ok (some type, arguments) ↔ words line = keyword type :: arguments := by
  simp only [lineRequest, bind_eq_ok, requestType_eq_ok, pure_eq_ok, Prod.mk.injEq,
    Option.some.injEq]
  constructor
  · rintro ⟨type', hhead, rfl, rfl⟩
    cases hwords : words line with
    | nil =>
        rw [hwords] at hhead
        exact absurd hhead (by cases type' <;> decide)
    | cons w rest =>
        rw [hwords] at hhead
        rw [← hhead]
        rfl
  · intro h
    exact ⟨type, by rw [h]; rfl, rfl, by rw [h]; rfl⟩

theorem lineRequest_ne_none {line : Bytes} {arguments : List Bytes} :
    lineRequest line ≠ .ok (none, arguments) := by
  intro h
  obtain ⟨type, -, hpure⟩ := bind_eq_ok.mp h
  cases pure_eq_ok.mp hpure

theorem mem_formatNames_iff {name : Bytes} :
    name ∈ formatNames ↔ ∃ format, formatFromString name = .ok format := by
  simp only [formatNames, List.mem_cons, List.not_mem_nil, or_false]
  unfold formatFromString
  split_ifs with h1 h2 h3 h4
  · exact iff_of_true (.inl h1) ⟨_, rfl⟩
  · exact iff_of_true (.inr (.inl h2)) ⟨_, rfl⟩
  · exact iff_of_true (.inr (.inr (.inl h3))) ⟨_, rfl⟩
  · exact iff_of_true (.inr (.inr (.inr h4))) ⟨_, rfl⟩
  · exact iff_of_false (by simp [h1, h2, h3, h4]) (by simp)

/-! ### A buffer with a token -/

section

variable {J : JsonDump} {m : Machine} {depth : ℕ} {options : ConnectionOptions} {s : Server}
  {env : Server.Env} {uninitialised : Option RequestType} {buf line : Bytes}

theorem processRequest_eq_ok {text : Bytes} :
    (processRequest J m depth options s env uninitialised buf).outcome = .ret ⟨.ok, text⟩ ↔
      (attempt J m depth options s env uninitialised buf).outcome = .ret text := by
  unfold processRequest
  cases ho : (attempt J m depth options s env uninitialised buf).outcome with
  | ret text' => simp [ho]
  | fault => simp [ho]
  | pending => simp [ho]
  | throw e =>
      refine iff_of_false (fun h => ?_) (by simp)
      simp only [ho] at h
      obtain ⟨text', -, hret⟩ := Outcome.bind_eq_ret.mp h
      cases hret

variable (htokens : (tokenise (cstr buf)).result = lineRequest line)

include htokens

/-- A numeral that `stou` takes for `1` is answered `ok`. -/
theorem attempt_version {a : Bytes} (hwords : words line = [ascii "v", a]) (hone : stou a = .ok 1) :
    (attempt J m depth options s env uninitialised buf).outcome = .ret [] := by
  have hrequest : lineRequest line = .ok (some .version, [a]) := lineRequest_eq_ok.mpr hwords
  rw [attempt, htokens, hrequest]
  show (applyOptions options s (selectVersion options [a])).outcome = .ret []
  rw [selectVersion_eq_ok.mpr ⟨a, rfl, hone, rfl⟩]
  rfl

theorem attempt_format {name : Bytes} (hwords : words line = [ascii "format", name])
    (hname : name ∈ formatNames) :
    (attempt J m depth options s env uninitialised buf).outcome = .ret [] := by
  obtain ⟨format, hformat⟩ := mem_formatNames_iff.mp hname
  have hrequest : lineRequest line = .ok (some .format, [name]) := lineRequest_eq_ok.mpr hwords
  rw [attempt, htokens, hrequest]
  show (applyOptions options s (selectFormat options [name])).outcome = .ret []
  rw [selectFormat_eq_ok.mpr ⟨name, format, rfl, hformat, rfl⟩]
  rfl

/-- What is answered `ok` is in the grammar, but for what is taken for `1`. -/
theorem grammatical_of_ret {text : Bytes}
    (hnumeral : ∀ a, words line = [ascii "v", a] → stou a = .ok 1 → AllDigits a ∧ numVal a = 1)
    (h : (attempt J m depth options s env uninitialised buf).outcome = .ret text) :
    Grammatical m s env (words line) := by
  have hdone := attempt_ret J m depth h
  generalize (attempt J m depth options s env uninitialised buf).options = options' at hdone
  cases hdone with
  | version a hresult hone =>
      have hwords := lineRequest_eq_ok.mp (htokens.symm.trans hresult)
      obtain ⟨hdigits, hval⟩ := hnumeral a hwords hone
      exact .version a hwords hdigits hval
  | format name format hresult hname =>
      exact .format name (lineRequest_eq_ok.mp (htokens.symm.trans hresult))
        (mem_formatNames_iff.mpr ⟨format, hname⟩)
  | execute arguments c args response _ hresult hinput hret _ =>
      exact .execute arguments c args response
        (lineRequest_eq_ok.mp (htokens.symm.trans hresult)) hinput hret
  | blank hresult _ => exact absurd (htokens.symm.trans hresult) lineRequest_ne_none

/-- With a token, only what is taken for `1` can leave the grammar. -/
theorem keepsGrammar_of_token
    (hnumeral : ∀ a, words line = [ascii "v", a] → stou a = .ok 1 → AllDigits a ∧ numVal a = 1) :
    KeepsGrammar J m depth options s env uninitialised buf (words line) := by
  refine ⟨fun text h => ?_, fun h hexec => ?_, fun h hended => ?_, fun arguments h => ?_⟩
  · exact grammatical_of_ret htokens hnumeral (processRequest_eq_ok.mp h)
  · rw [processRequest_eq_ok]
    cases h with
    | version a hwords hdigits hone =>
        have hne : a ≠ [] := by
          rintro rfl
          cases hone
        have hstou : stou a = .ok 1 := by
          rw [stou, stoul_allDigits hdigits hne (by omega), hone]
          rfl
        exact attempt_version htokens hwords hstou
    | format name hwords hname => exact attempt_format htokens hwords hname
    | execute arguments c args response hwords _ _ =>
        rw [hwords] at hexec
        exact absurd rfl hexec
  · rcases Outcome.ended_iff.mp hended with ⟨text, hret⟩ | hthrow
    · exact absurd (grammatical_of_ret htokens hnumeral hret) h
    · exact hthrow
  · exact lineRequest_ne_none (htokens.symm.trans h)

end

/-- **The request grammar.**  For a buffer with one line, with or without CRLF behind it, and
whatever the device does: `processRequest` keeps to the grammar if and only if the buffer has a
token (the CRLF of a line of spaces counts as one), and its words are not `v` and a text that is
taken for `1` without being a numeral of `1`. -/
theorem request_grammar_iff (J : JsonDump) (m : Machine) (depth : ℕ) (options : ConnectionOptions)
    (s : Server) (env : Server.Env) (uninitialised : Option RequestType) {buf line tail : Bytes}
    (hbuf : cstr buf = line ++ tail) (hline : ¬ crlf <:+: line) (htail : LineEnd tail) :
    KeepsGrammar J m depth options s env uninitialised buf (words line) ↔
      (words line ≠ [] ∨ tail = crlf) ∧
        ∀ a, words line = [ascii "v", a] → stou a = .ok 1 → AllDigits a ∧ numVal a = 1 := by
  constructor
  · intro h
    have htoken : words line ≠ [] ∨ tail = crlf := by
      by_contra hblank
      rw [not_or, not_not] at hblank
      obtain rfl := htail.resolve_right hblank.2
      rw [List.append_nil] at hbuf
      exact h.assigned [] (hbuf ▸ Server.tokenise_spaces hblank.1)
    have htokens : (tokenise (cstr buf)).result = lineRequest line :=
      hbuf ▸ Server.tokenise_lineEnd hline htail htoken
    refine ⟨htoken, fun a hwords hone => ?_⟩
    -- the request is answered, so the grammar has it
    cases h.only [] (processRequest_eq_ok.mpr (attempt_version htokens hwords hone)) with
    | version numeral hwords' hdigits hval =>
        rw [hwords] at hwords'
        obtain rfl : a = numeral := by simpa using hwords'
        exact ⟨hdigits, hval⟩
    | format name hwords' _ =>
        rw [hwords] at hwords'
        exact absurd (List.cons.inj hwords').1 (by decide)
    | execute arguments c args response hwords' _ _ =>
        rw [hwords] at hwords'
        exact absurd (List.cons.inj hwords').1 (by decide)
  · rintro ⟨htoken, hnumeral⟩
    exact keepsGrammar_of_token (hbuf ▸ Server.tokenise_lineEnd hline htail htoken) hnumeral

/-- The request `format table`. -/
theorem request_grammar_format :
    let s := Server.init ⟨.usb, Voltronic.defaultFlags, Voltronic.TIMEOUT⟩
    let env : Server.Env := ⟨0, 0, ⟨0, [], 0, 0, []⟩, P18.zeroBuffer, 0⟩
    KeepsGrammar Formatter.textDump P18.x86 0 .init s env none
      (ascii "format table" ++ crlf ++ [0]) [ascii "format", ascii "table"] := by
  intro s env
  have hwords : words (ascii "format table") = [ascii "format", ascii "table"] := by decide
  have hbuf : cstr (ascii "format table" ++ crlf ++ [0]) = ascii "format table" ++ crlf := by decide
  have hkeeps := (request_grammar_iff Formatter.textDump P18.x86 0 .init s env none hbuf
    (by decide) (.inr rfl)).mpr
  rw [hwords] at hkeeps
  refine hkeeps ⟨.inr rfl, fun a h => absurd (List.cons.inj h).1 (by decide)⟩

/-- The request `v 4294967297` is answered `ok`. -/
theorem request_grammar_wraps : ¬ ∀ (J : JsonDump) (m : Machine) (depth : ℕ)
    (options : ConnectionOptions) (s : Server) (env : Server.Env)
    (uninitialised : Option RequestType) (buf line tail : Bytes), cstr buf = line ++ tail →
      ¬ crlf <:+: line → LineEnd tail →
      KeepsGrammar J m depth options s env uninitialised buf (words line) := by
  intro h
  let s := Server.init ⟨.usb, Voltronic.defaultFlags, Voltronic.TIMEOUT⟩
  let env : Server.Env := ⟨0, 0, ⟨0, [], 0, 0, []⟩, P18.zeroBuffer, 0⟩
  have hkeeps := h Formatter.textDump P18.x86 0 .init s env none
    (ascii "v 4294967297" ++ crlf ++ [0]) (ascii "v 4294967297") crlf (by decide) (by decide)
    (.inr rfl)
  have hwords : words (ascii "v 4294967297") = [ascii "v", ascii "4294967297"] := by decide
  rw [hwords] at hkeeps
  cases hkeeps.only [] (by decide) with
  | version numeral hwords' _ hone =>
      obtain ⟨rfl, -⟩ := List.cons.inj (List.cons.inj hwords').2
      exact absurd hone (by decide)
  | format name hwords' _ => exact absurd (List.cons.inj hwords').1 (by decide)
  | execute arguments c args response hwords' _ _ =>
      exact absurd (List.cons.inj hwords').1 (by decide)

end InverterTools.Connection
