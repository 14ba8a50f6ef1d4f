import GuildSandbox.CommandLine.Arguments

/-!
Where option pairs may stand.

A list of arguments is taken apart into option pairs and arguments of their own in one way only, from
left to right: what starts a pair never stands on its own, and what follows it belongs to the pair,
whatever it looks like. Main statement: parsing sees nothing of how the two are mixed. It accepts
exactly the mixtures of pairs with the words of a command, and the last path counts.
-/

set_option autoImplicit false
set_option relaxedAutoImplicit false

namespace GuildSandbox.CommandLine

/-- Option pairs with these paths mixed with these other arguments, both in their order. What an
other argument looks like does not matter, unless it starts a pair. -/
inductive Mixed : (paths others arguments : List String) → Prop
  | nil : Mixed [] [] []
  | pair {paths others arguments : List String} {option : String}
      (named : option = "--config" ∨ option = "-c") (path : String)
      (rest : Mixed paths others arguments) :
      Mixed (path :: paths) others (option :: path :: arguments)
  | other {paths others arguments : List String} {argument : String}
      (own : ¬ (argument = "--config" ∨ argument = "-c")) (rest : Mixed paths others arguments) :
      Mixed paths (argument :: others) (argument :: arguments)

def Command.words : Command → List String
  | .check script => ["check", script]
  | .run script fixture => ["run", script, fixture]

private theorem isConfigOption_iff {argument : String} :
    isConfigOption argument = true ↔ argument = "--config" ∨ argument = "-c" := by
  simp [isConfigOption]

private theorem isOption_iff {argument : String} :
    isOption argument = true ↔ argument.toList.head? = some '-' := by
  simp [isOption]

private theorem sort_pair {option : String} (named : option = "--config" ∨ option = "-c")
    (path : String)
    (rest : List String) : sort (option :: path :: rest) =
      (sort rest).map fun s => { s with config := s.config.or (some path) } := by
  rw [sort, if_pos (isConfigOption_iff.2 named)]
  cases sort rest <;> rfl

private theorem sort_unfinished {option : String} (named : option = "--config" ∨ option = "-c") :
    sort [option] = .error .noConfigPath := by
  rw [sort, if_pos (isConfigOption_iff.2 named)]

private theorem sort_other {argument : String} (own : ¬ (argument = "--config" ∨ argument = "-c"))
    (rest : List String) : sort (argument :: rest) =
      if isOption argument then .error (.unknownOption argument)
      else (sort rest).map fun s => { s with positional := argument :: s.positional } := by
  have plain : ¬ isConfigOption argument = true := fun config => own (isConfigOption_iff.1 config)
  cases rest with
  | nil => simp [sort, plain, Except.map]
  | cons next rest =>
    rw [sort, if_neg plain]
    split
    · rfl
    · cases sort (next :: rest) <;> rfl

/-- How a mixture is sorted depends on the paths and on the other arguments, not on how they are
mixed. The pairs that follow in `tail` come later, so that their last path goes before the ones here. -/
private theorem Mixed.sort_append {paths others front : List String}
    (mixed : Mixed paths others front)
    (tail : List String) : sort (front ++ tail) = match others.find? isOption with
      | some option => .error (.unknownOption option)
      | none => (sort tail).map fun s =>
          { positional := others ++ s.positional, config := s.config.or paths.getLast? } := by
  induction mixed with
  | nil =>
    rw [List.nil_append, List.find?_nil]
    cases sort tail with
    | error e => rfl
    | ok s => simp only [Except.map, List.nil_append, List.getLast?_nil, Option.or_none]
  | @pair paths others arguments option named path rest ih =>
    rw [List.cons_append, List.cons_append, sort_pair named, ih]
    cases others.find? isOption with
    | some option => rfl
    | none =>
      cases sort tail with
      | error e => rfl
      | ok s =>
        have last : (paths.getLast?).or (some path) = (path :: paths).getLast? := by
          rw [List.getLast?_cons]
          cases paths.getLast? <;> rfl
        simp only [Except.map, Option.or_assoc, last]
  | @other paths others arguments argument own rest ih =>
    rw [List.cons_append, sort_other own, ih, List.find?_cons]
    cases isOption argument with
    | true => rfl
    | false =>
      cases others.find? isOption with
      | some option => rfl
      | none => cases sort tail <;> rfl

private theorem exists_mixed : (arguments : List String) → ∃ paths others front tail,
    arguments = front ++ tail ∧ Mixed paths others front ∧
      (tail = [] ∨ ∃ option, (option = "--config" ∨ option = "-c") ∧ tail = [option])
  | [] => ⟨[], [], [], [], rfl, .nil, .inl rfl⟩
  | [argument] => by
    by_cases named : argument = "--config" ∨ argument = "-c"
    · exact ⟨[], [], [], [argument], rfl, .nil, .inr ⟨argument, named, rfl⟩⟩
    · exact ⟨[], [argument], [argument], [], rfl, .other named .nil, .inl rfl⟩
  | argument :: next :: rest => by
    by_cases named : argument = "--config" ∨ argument = "-c"
    · obtain ⟨paths, others, front, tail, rfl, mixed, ends⟩ := exists_mixed rest
      exact ⟨next :: paths, others, argument :: next :: front, tail, rfl,
        .pair named next mixed, ends⟩
    · obtain ⟨paths, others, front, tail, same, mixed, ends⟩ := exists_mixed (next :: rest)
      exact ⟨paths, argument :: others, argument :: front, tail, congrArg _ same,
        .other named mixed, ends⟩

/-- What a list sorts into is what it is a mixture of, and no other argument looks like an option. -/
private theorem sort_eq_ok_iff {arguments : List String} {s : Sorted} : sort arguments = .ok s ↔
    ∃ paths, Mixed paths s.positional arguments ∧
      (∀ argument ∈ s.positional, argument.toList.head? ≠ some '-') ∧
      s.config = paths.getLast? := by
  have unlike {others : List String} : others.find? isOption = none ↔
      ∀ argument ∈ others, argument.toList.head? ≠ some '-' := by
    simp only [List.find?_eq_none, isOption_iff, ne_eq]
  constructor
  · intro sorted
    obtain ⟨paths, others, front, tail, rfl, mixed, ends⟩ := exists_mixed arguments
    rw [mixed.sort_append tail] at sorted
    cases found : others.find? isOption with
    | some option =>
      rw [found] at sorted
      cases sorted
    | none =>
      rw [found] at sorted
      obtain rfl | ⟨option, named, rfl⟩ := ends
      · cases sorted
        simpa [sort] using ⟨paths, mixed, unlike.1 found, rfl⟩
      · rw [sort_unfinished named] at sorted
        cases sorted
  · rintro ⟨paths, mixed, plain, last⟩
    have sorted := mixed.sort_append []
    rw [List.append_nil, unlike.2 plain] at sorted
    rw [sorted, sort]
    simp [Except.map, ← last]

private theorem Command.ofPositional_eq_ok_iff {words : List String} {command : Command} :
    Command.ofPositional words = .ok command ↔ words = command.words := by
  constructor
  · intro read
    unfold ofPositional at read
    split at read
    · cases read
    · split at read <;> cases read
      rfl
    · split at read <;> cases read
      rfl
    · cases read
  · rintro rfl
    cases command <;> rfl

namespace Arguments

private theorem parse_eq (arguments : List String) : parse arguments =
    (sort arguments).bind fun s => (Command.ofPositional s.positional).map fun command =>
      { command := command, config := s.config } := by
  rw [parse]
  cases sort arguments with
  | error e => rfl
  | ok s => cases Command.ofPositional s.positional <;> rfl

private theorem parse_eq_ok_iff {arguments : List String} {parsed : Arguments} :
    parse arguments = .ok parsed ↔
      sort arguments = .ok { positional := parsed.command.words, config := parsed.config } := by
  rw [parse_eq]
  constructor
  · intro read
    cases sorted : sort arguments with
    | error e =>
      rw [sorted] at read
      cases read
    | ok s =>
      rw [sorted, Except.bind] at read
      cases found : Command.ofPositional s.positional with
      | error e =>
        rw [found] at read
        cases read
      | ok command =>
        rw [found] at read
        cases read
        rw [← Command.ofPositional_eq_ok_iff.1 found]
  · intro sorted
    rw [sorted, Except.bind, Command.ofPositional_eq_ok_iff.2 rfl]
    rfl

/-- A list is accepted exactly when it is a mixture of option pairs with the words of a command, none
of which looks like an option. It then asks for that command, with the last path. Wherever the pairs
at the front of a list stand, it is parsed alike, also when it is refused. -/
theorem parse_exact :
    (∀ (arguments : List String) (parsed : Arguments), parse arguments = .ok parsed ↔
      ∃ paths, Mixed paths parsed.command.words arguments ∧
        (∀ word ∈ parsed.command.words, word.toList.head? ≠ some '-') ∧
        parsed.config = paths.getLast?) ∧
    ∀ (paths others front moved tail : List String), Mixed paths others front →
      Mixed paths others moved → parse (moved ++ tail) = parse (front ++ tail) := by
  constructor
  · intro arguments parsed
    rw [parse_eq_ok_iff, sort_eq_ok_iff]
  · intro paths others front moved tail mixed again
    rw [parse_eq, parse_eq, again.sort_append, mixed.sort_append]

theorem scattered_pairs_parse :
    let parsed : Arguments := { command := .run "a.rhai" "f.json", config := some "c.toml" }
    parse ["run", "-c", "-x", "a.rhai", "f.json", "--config", "c.toml"] = .ok parsed ∧
      parse ["-c", "-x", "--config", "c.toml", "run", "a.rhai", "f.json"] = .ok parsed := by
  intro parsed
  have front : Mixed ["-x", "c.toml"] parsed.command.words
      ["-c", "-x", "--config", "c.toml", "run", "a.rhai", "f.json"] :=
    .pair (.inr rfl) "-x" (.pair (.inl rfl) "c.toml"
      (.other (by decide) (.other (by decide) (.other (by decide) .nil))))
  have moved : Mixed ["-x", "c.toml"] parsed.command.words
      ["run", "-c", "-x", "a.rhai", "f.json", "--config", "c.toml"] :=
    .other (by decide) (.pair (.inr rfl) "-x"
      (.other (by decide) (.other (by decide) (.pair (.inl rfl) "c.toml" .nil))))
  have first := (parse_exact.1 _ parsed).2 ⟨_, front, by decide, rfl⟩
  exact ⟨(parse_exact.2 _ _ _ _ [] front moved).trans first, first⟩

end Arguments

end GuildSandbox.CommandLine
