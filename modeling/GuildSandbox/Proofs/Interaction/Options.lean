import Mathlib.Logic.ExistsUnique
import Mathlib.Logic.Relation
import GuildSandbox.Interaction.Command

/-!
Which options of a command are found by name.

Subcommands and groups of subcommands only stand for the options inside them. A list of options
is flattened by opening one of these after the other, in any order, until none is left; opened, it
gives its place to its own options. Main statement: exactly one list comes of this, and the option
found by a name is the first one of the name in that list.
-/

set_option autoImplicit false
set_option relaxedAutoImplicit false

namespace GuildSandbox

/-- The option is a subcommand or a group of subcommands, not an argument. -/
def OptionKind.IsSubcommand (kind : OptionKind) : Prop :=
  kind = .subCommand ∨ kind = .subCommandGroup

private theorem OptionKind.isGroup_iff {kind : OptionKind} :
    kind.isGroup = true ↔ kind.IsSubcommand := by
  cases kind <;> simp [isGroup, IsSubcommand]

namespace CommandOption

mutual

/-- The options that are no groups, those of a group in its place. -/
def plain : List CommandOption → List CommandOption
  | [] => []
  | option :: rest => plainIn option ++ plain rest

def plainIn : CommandOption → List CommandOption
  | .mk name kind value options =>
    if kind.isGroup then plain options else [.mk name kind value options]

end

mutual

theorem isGroup_of_mem_plain : (options : List CommandOption) →
    ∀ option ∈ plain options, option.kind.isGroup = false
  | [], _, listed => nomatch listed
  | first :: rest, option, listed => by
    rw [plain, List.mem_append] at listed
    obtain inFirst | later := listed
    · exact isGroup_of_mem_plainIn first option inFirst
    · exact isGroup_of_mem_plain rest option later

private theorem isGroup_of_mem_plainIn : (first : CommandOption) →
    ∀ option ∈ plainIn first, option.kind.isGroup = false
  | .mk name kind value options, option, listed => by
    rw [plainIn] at listed
    split at listed
    · exact isGroup_of_mem_plain options option listed
    next single =>
      cases List.mem_singleton.1 listed
      exact Bool.eq_false_iff.2 single

end

mutual

theorem find?_eq (name : String) : (options : List CommandOption) →
    find? name options = (plain options).find? fun option => option.name = name
  | [] => by rw [find?, plain, List.find?_nil]
  | option :: rest => by
    rw [find?, plain, List.find?_append, findIn?_eq name option, find?_eq name rest]

private theorem findIn?_eq (name : String) : (option : CommandOption) →
    findIn? name option = (plainIn option).find? fun option => option.name = name
  | .mk own kind value options => by
    rw [findIn?, plainIn]
    split
    · exact find?_eq name options
    · by_cases same : own = name
      · simp [same, CommandOption.name]
      · simp [same, CommandOption.name]

end

private theorem plain_append (options others : List CommandOption) :
    plain (options ++ others) = plain options ++ plain others := by
  induction options with
  | nil => rfl
  | cons option rest ih => rw [List.cons_append, plain, plain, ih, List.append_assoc]

private theorem plainIn_of_isSubcommand {option : CommandOption} (sub : option.kind.IsSubcommand) :
    plainIn option = plain option.options := by
  cases option with
  | mk name kind value options =>
    have group : kind.isGroup = true := OptionKind.isGroup_iff.2 sub
    rw [plainIn, if_pos group]
    rfl

private theorem plainIn_of_not_isSubcommand {option : CommandOption}
    (single : ¬ option.kind.IsSubcommand) : plainIn option = [option] := by
  cases option with
  | mk name kind value options =>
    have noGroup : ¬ kind.isGroup = true := mt OptionKind.isGroup_iff.1 single
    rw [plainIn, if_neg noGroup]

inductive Opens : List CommandOption → List CommandOption → Prop
  | group (before : List CommandOption) (group : CommandOption) (after : List CommandOption)
      (sub : group.kind.IsSubcommand) :
      Opens (before ++ group :: after) (before ++ group.options ++ after)

/-- The second list is what is left when all that can be opened has been, in some order. -/
structure Flattens (options flat : List CommandOption) : Prop where
  opened : Relation.ReflTransGen Opens options flat
  done : ∀ option ∈ flat, ¬ option.kind.IsSubcommand

variable {options flat : List CommandOption}

private theorem Opens.plain_eq (opens : Opens options flat) : plain options = plain flat := by
  cases opens with
  | group before group after sub =>
    rw [plain_append, plain, plainIn_of_isSubcommand sub, plain_append, plain_append,
      List.append_assoc]

private theorem plain_eq_of_opened (opened : Relation.ReflTransGen Opens options flat) :
    plain options = plain flat := by
  induction opened with
  | refl => rfl
  | tail _ opens ih => exact ih.trans opens.plain_eq

private theorem plain_eq_self (done : ∀ option ∈ flat, ¬ option.kind.IsSubcommand) :
    plain flat = flat := by
  induction flat with
  | nil => rfl
  | cons option rest ih =>
    obtain ⟨single, later⟩ := List.forall_mem_cons.1 done
    rw [plain, plainIn_of_not_isSubcommand single, ih later, List.singleton_append]

theorem Flattens.eq_plain (flattens : Flattens options flat) : flat = plain options :=
  calc
    flat = plain flat := (plain_eq_self flattens.done).symm
    _ = plain options := (plain_eq_of_opened flattens.opened).symm

private theorem Opens.between (opens : Opens options flat) (front back : List CommandOption) :
    Opens (front ++ options ++ back) (front ++ flat ++ back) := by
  cases opens with
  | group before group after sub =>
    simpa only [List.append_assoc, List.cons_append] using
      Opens.group (front ++ before) group (after ++ back) sub

private theorem opened_between (opened : Relation.ReflTransGen Opens options flat)
    (front back : List CommandOption) :
    Relation.ReflTransGen Opens (front ++ options ++ back) (front ++ flat ++ back) :=
  opened.lift (fun part => front ++ part ++ back) fun _ _ opens => opens.between front back

-- A group is opened first and the groups in it afterwards, each within the options around it.
mutual

private theorem opened_plain : (options : List CommandOption) →
    Relation.ReflTransGen Opens options (plain options)
  | [] => .refl
  | option :: rest => by
    have first := opened_between (opened_plainIn option) [] rest
    have later := opened_between (opened_plain rest) (plainIn option) []
    rw [List.append_nil, List.append_nil] at later
    exact first.trans later

private theorem opened_plainIn : (option : CommandOption) →
    Relation.ReflTransGen Opens [option] (plainIn option)
  | .mk name kind value options => by
    rw [plainIn]
    split
    next group =>
      have opens := Opens.group [] (.mk name kind value options) [] (OptionKind.isGroup_iff.1 group)
      rw [List.nil_append, List.nil_append, List.append_nil] at opens
      exact (opened_plain options).head opens
    · exact .refl

end

private theorem flattens_plain (options : List CommandOption) :
    Flattens options (plain options) where
  opened := opened_plain options
  done option listed sub := by
    have single := isGroup_of_mem_plain options option listed
    rw [OptionKind.isGroup_iff.2 sub] at single
    cases single

end CommandOption

namespace CommandData

open CommandOption (Flattens flattens_plain)

/-- The options of a command flatten to one list in whatever order they are opened. The option found
by a name is the first of the name in that list, so never a subcommand or a group. -/
theorem option_first_flattened (c : CommandData) (name : String) :
    (∃! flat, Flattens c.options flat) ∧
    (∀ flat, Flattens c.options flat →
      c.option? name = flat.find? fun option => option.name = name) ∧
    ∀ option, c.option? name = some option →
      option.kind ≠ .subCommand ∧ option.kind ≠ .subCommandGroup := by
  have first : ∀ flat, Flattens c.options flat →
      c.option? name = flat.find? fun option => option.name = name := fun flat flattens => by
    rw [option?, CommandOption.find?_eq, flattens.eq_plain]
  have flattens := flattens_plain c.options
  refine ⟨⟨_, flattens, fun _ => Flattens.eq_plain⟩, first, fun option found => ?_⟩
  rw [first _ flattens] at found
  exact not_or.1 (flattens.done option (List.mem_of_find?_eq_some found))

/-- A group has the name of an option in it, and one option stands below another that is none. -/
def loggingCommand : CommandData where
  options :=
    [.mk "log" .subCommandGroup none
      [.mk "clear" .subCommand none [],
       .mk "set" .subCommand none
        [.mk "level" .string (some (.str "high")) [.mk "mode" .string (some (.str "loud")) []],
         .mk "log" .channel (some (.str "2")) []]],
     .mk "level" .string (some (.str "low")) []]

theorem loggingCommand_found :
    Flattens loggingCommand.options
      [.mk "level" .string (some (.str "high")) [.mk "mode" .string (some (.str "loud")) []],
       .mk "log" .channel (some (.str "2")) [], .mk "level" .string (some (.str "low")) []] ∧
    (loggingCommand.option? "level").map CommandOption.value = some (some (.str "high")) ∧
    (loggingCommand.option? "log").map CommandOption.kind = some .channel ∧
    loggingCommand.option? "clear" = none ∧ loggingCommand.option? "mode" = none := by
  have flattens := flattens_plain loggingCommand.options
  have found (name : String) := (option_first_flattened loggingCommand name).2.1 _ flattens
  simp only [found]
  exact ⟨flattens, rfl, rfl, rfl, rfl⟩

end CommandData

end GuildSandbox
