import InverterTools.Requests

/-! # The command line of `inverterctl` (`inverterctl.cc`, `p18/commands.cc`)

`getopt_long` leaves the words that are no options from `optind` on; these are the list here.
`validate_input` is the one of the daemon, over another `get_args`, which stops at a word that
starts with a minus sign; what is left over afterwards is an error.  The daemon ignores it:
`front_ends_agree_iff`. -/

namespace InverterTools.Inverterctl

open P18 (CommandType Machine argCount clientCommand validateArgs validateInput)
open Connection (inputCommand)

/-- `*input->argv[optind] != '-'`. -/
def isArgument (word : Bytes) : Bool := word.head? != some 0x2D

/-- The error of `get_args`. -/
def requiresArguments (count : ℕ) : Exn :=
  ⟨.invalidArgument, ascii "this command requires " ++ decimal count ++ ascii " argument" ++
    if 1 < count then ascii "s" else []⟩

/-- `get_args` of `inverterctl`: the arguments, and the words from the new `optind` on. -/
def takeArgs (count : ℕ) : ℕ → List Bytes → List Bytes → Except Exn (List Bytes × List Bytes)
  | 0, arguments, argv => .ok (arguments, argv)
  | n + 1, arguments, word :: argv =>
      if isArgument word then takeArgs count n (arguments ++ [word]) argv
      else .error (requiresArguments count)
  | _ + 1, _, [] => .error (requiresArguments count)

/-- The words from `optind` on after `validate_input` has returned. -/
def leftOver (c : CommandType) (argv : List Bytes) : List Bytes :=
  match argCount c with
  | none => argv
  | some count => match takeArgs count count [] argv with
      | .ok (_, rest) => rest
      | .error _ => argv

/-- `case Action::Command` and the check for extra parameters. -/
def readCommand (m : Machine) (argv : List Bytes) : Except Exn (CommandType × List Bytes) :=
  match argv with
  | [] => .error (invalidArgument "missing command")
  | command :: argv => do
      let (commandType, arguments) ←
        validateInput m (fun count => Prod.fst <$> takeArgs count count [] argv) command
      if leftOver commandType argv ≠ [] then .error (invalidArgument "extra parameter found")
      else pure (commandType, arguments)

/-- The number of arguments of a command. -/
def arity (c : CommandType) : ℕ := (argCount c).getD 0

/-- The arguments of the command are there, none with a minus sign in front. -/
def Supplied (c : CommandType) (argv : List Bytes) : Prop :=
  arity c ≤ argv.length ∧ ∀ word ∈ argv.take (arity c), isArgument word = true

theorem takeArgs_eq_ok_iff {count n : ℕ} {arguments argv : List Bytes}
    {r : List Bytes × List Bytes} :
    takeArgs count n arguments argv = .ok r ↔ n ≤ argv.length ∧
      (∀ word ∈ argv.take n, isArgument word = true) ∧
        r = (arguments ++ argv.take n, argv.drop n) := by
  induction n generalizing argv arguments with
  | zero =>
      rw [takeArgs, List.take_zero, List.append_nil, List.drop_zero, Except.ok.injEq]
      exact ⟨fun h => ⟨Nat.zero_le _, nofun, h.symm⟩, fun h => h.2.2.symm⟩
  | succ n ih =>
      cases argv with
      | nil => simp [takeArgs]
      | cons word argv =>
          unfold takeArgs
          by_cases hword : isArgument word = true
          · rw [if_pos hword, ih]
            simp [hword]
          · rw [if_neg hword]
            simp [hword]

theorem givenArgs_takeArgs {c : CommandType} {argv given : List Bytes} :
    P18.givenArgs (fun count => Prod.fst <$> takeArgs count count [] argv) c = .ok given ↔
      Supplied c argv ∧ given = argv.take (arity c) := by
  unfold P18.givenArgs Supplied arity
  cases argCount c with
  | none =>
      rw [pure_eq_ok, Option.getD_none, List.take_zero]
      exact ⟨fun h => ⟨⟨Nat.zero_le _, nofun⟩, h.symm⟩, fun h => h.2.symm⟩
  | some n =>
      simp only [map_eq_ok, Option.getD_some, takeArgs_eq_ok_iff, List.nil_append]
      constructor
      · rintro ⟨_, ⟨hle, hwords, rfl⟩, rfl⟩
        exact ⟨⟨hle, hwords⟩, rfl⟩
      · rintro ⟨⟨hle, hwords⟩, rfl⟩
        exact ⟨_, ⟨hle, hwords, rfl⟩, rfl⟩

theorem leftOver_eq {c : CommandType} {argv : List Bytes} (h : Supplied c argv) :
    leftOver c argv = argv.drop (arity c) := by
  obtain ⟨hle, hwords⟩ := h
  unfold leftOver
  unfold arity at hle hwords ⊢
  cases hc : argCount c with
  | none => rfl
  | some n =>
      rw [hc, Option.getD_some] at hle hwords
      have htake : takeArgs n n [] argv = .ok ([] ++ argv.take n, argv.drop n) :=
        takeArgs_eq_ok_iff.mpr ⟨hle, hwords, rfl⟩
      simp only [htake, Option.getD_some]

/-- What `inverterctl` accepts: a known command with exactly its number of arguments, which pass
the checks. -/
theorem readCommand_eq_ok {m : Machine} {command : Bytes} {argv args : List Bytes}
    {c : CommandType} :
    readCommand m (command :: argv) = .ok (c, args) ↔ clientCommand command = some c ∧
      Supplied c argv ∧ argv.length = arity c ∧ validateArgs m c argv = .ok args := by
  have hstep : readCommand m (command :: argv) = .ok (c, args) ↔
      validateInput m (fun count => Prod.fst <$> takeArgs count count [] argv) command =
        .ok (c, args) ∧ leftOver c argv = [] := by
    unfold readCommand
    rw [bind_eq_ok]
    constructor
    · rintro ⟨⟨c', args'⟩, hv, h⟩
      dsimp only at h
      split_ifs at h with hleft
      obtain ⟨rfl, rfl⟩ := Prod.mk.inj (pure_eq_ok.mp h)
      exact ⟨hv, not_not.mp hleft⟩
    · rintro ⟨hv, hleft⟩
      refine ⟨_, hv, ?_⟩
      dsimp only
      rw [if_neg (not_not.mpr hleft)]
      rfl
  rw [hstep, P18.validateInput_eq_ok]
  constructor
  · rintro ⟨⟨hc, given, hgiven, hargs⟩, hleft⟩
    obtain ⟨hsupplied, rfl⟩ := givenArgs_takeArgs.mp hgiven
    rw [leftOver_eq hsupplied, List.drop_eq_nil_iff] at hleft
    rw [List.take_of_length_le hleft] at hargs
    exact ⟨hc, hsupplied, le_antisymm hleft hsupplied.1, hargs⟩
  · rintro ⟨hc, hsupplied, hlen, hargs⟩
    have hgiven : argv = argv.take (arity c) := by rw [← hlen, List.take_length]
    refine ⟨⟨hc, argv, givenArgs_takeArgs.mpr ⟨hsupplied, hgiven⟩, hargs⟩, ?_⟩
    rw [leftOver_eq hsupplied, ← hlen, List.drop_length]

/-- What the daemon accepts: a known command with at least its number of arguments, the first of
which pass the checks. -/
theorem inputCommand_eq_ok {m : Machine} {command : Bytes} {argv args : List Bytes}
    {c : CommandType} :
    inputCommand m (command :: argv) = .ok (c, args) ↔
      clientCommand command = some c ∧ arity c ≤ argv.length ∧
        validateArgs m c (argv.take (arity c)) = .ok args := by
  have hgiven (given : List Bytes) : P18.givenArgs (P18.getArgs argv) c = .ok given ↔
      arity c ≤ argv.length ∧ given = argv.take (arity c) := by
    unfold P18.givenArgs arity
    cases argCount c with
    | none =>
        rw [pure_eq_ok]
        simp [eq_comm]
    | some n =>
        simp only [P18.getArgs, Option.getD_some]
        split_ifs with hlt
        · have hnot : ¬ n ≤ argv.length := by omega
          simp [hnot]
        · simp [Nat.not_lt.mp hlt, eq_comm]
  have hstep : inputCommand m (command :: argv) =
      validateInput m (P18.getArgs argv) command := by
    simp [inputCommand, Connection.checkArgumentsMinLength, bind, Except.bind]
  rw [hstep, P18.validateInput_eq_ok]
  simp only [hgiven]
  constructor
  · rintro ⟨hc, _, ⟨hle, rfl⟩, hargs⟩
    exact ⟨hc, hle, hargs⟩
  · rintro ⟨hc, hle, hargs⟩
    exact ⟨hc, _, ⟨hle, rfl⟩, hargs⟩

/-- **The two front ends** accept the same command line, with the same result, exactly when the
command is unknown, or no word follows its arguments, or its arguments are refused. -/
theorem front_ends_agree_iff (m : Machine) (command : Bytes) (argv : List Bytes)
    (hargv : ∀ word ∈ argv, isArgument word = true) :
    (∀ r, readCommand m (command :: argv) = .ok r ↔ inputCommand m (command :: argv) = .ok r) ↔
      ∀ c, clientCommand command = some c → argv.length ≤ arity c ∨
        ∀ args, validateArgs m c (argv.take (arity c)) ≠ .ok args := by
  have hwords : ∀ n, ∀ word ∈ argv.take n, isArgument word = true := fun n word hword =>
    hargv word (List.mem_of_mem_take hword)
  constructor
  · intro h c hc
    by_cases hle : argv.length ≤ arity c
    · exact .inl hle
    · right
      intro args hargs
      have haccepted := inputCommand_eq_ok.mpr ⟨hc, by omega, hargs⟩
      have := readCommand_eq_ok.mp ((h (c, args)).mpr haccepted)
      omega
  · rintro h ⟨c, args⟩
    rw [readCommand_eq_ok, inputCommand_eq_ok]
    refine and_congr_right fun hc => ?_
    constructor
    · rintro ⟨-, hlen, hargs⟩
      rw [← hlen, List.take_length]
      exact ⟨le_rfl, hargs⟩
    · rintro ⟨hle, hargs⟩
      rcases h c hc with hle' | hrefused
      · have hlen : argv.length = arity c := by omega
        rw [← hlen, List.take_length] at hargs
        exact ⟨⟨hle, hwords _⟩, hlen, hargs⟩
      · exact absurd hargs (hrefused args)

/-- `set-ac-supply 1`. -/
theorem front_ends_agree_ac_supply :
    (∀ r, readCommand P18.x86 [ascii "set-ac-supply", ascii "1"] = .ok r ↔
        inputCommand P18.x86 [ascii "set-ac-supply", ascii "1"] = .ok r) ↔
      ∀ c, clientCommand (ascii "set-ac-supply") = some c → [ascii "1"].length ≤ arity c ∨
        ∀ args, validateArgs P18.x86 c ([ascii "1"].take (arity c)) ≠ .ok args :=
  front_ends_agree_iff P18.x86 (ascii "set-ac-supply") [ascii "1"] (by decide)

/-- `get-mode x`: the daemon runs the command, `inverterctl` refuses it. -/
theorem front_ends_differ : ¬ ∀ (m : Machine) (command : Bytes) (argv : List Bytes),
    (∀ word ∈ argv, isArgument word = true) →
      ∀ r, readCommand m (command :: argv) = .ok r ↔ inputCommand m (command :: argv) = .ok r := by
  intro h
  have haccepted :
      inputCommand P18.x86 [ascii "get-mode", ascii "x"] = .ok (.getWorkingMode, []) := by
    decide
  have hread := (h P18.x86 (ascii "get-mode") [ascii "x"] (by decide) _).mpr haccepted
  exact absurd hread (by decide)

end InverterTools.Inverterctl
