import GuildSandbox.Capability.Argument
import GuildSandbox.Proofs.Interaction.Options
import GuildSandbox.Proofs.Number.Integer
import GuildSandbox.Proofs.Value.WholeNumber

/-!
What the arguments of commands stand for.

The kind of an option says which JSON values fit it and what a fitting one stands for; an id stands for
the entity that the tables of the command have under it. Main statement: an argument is what the value
of its option stands for. Values that do not fit are refused where text, numbers and truth values are
asked for. Where an entity is asked for, they are taken for the empty id.
-/

set_option autoImplicit false
set_option relaxedAutoImplicit false

namespace GuildSandbox

open Number.Binary64 (IsNearest)

structure ResolvedData.Keyed (r : ResolvedData) : Prop where
  users : ∀ id user, Dict.find? id r.users = some user → user.id = id
  channels : ∀ id channel, Dict.find? id r.channels = some channel → channel.id = id
  roles : ∀ id role, Dict.find? id r.roles = some role → role.id = id
  attachments : ∀ id attachment, Dict.find? id r.attachments = some attachment → attachment.id = id

namespace OptionKind

def NamesEntity : OptionKind → Prop
  | .user | .channel | .role | .mentionable | .attachment => True
  | _ => False

inductive Fits : OptionKind → Json → Prop
  | string (s : String) : Fits .string (.str s)
  | integer (i : Int64) : Fits .integer (.int64 i)
  | number (n : JsonNumber) : Fits .number (.num n)
  | boolean (b : Bool) : Fits .boolean (.bool b)
  | id {kind : OptionKind} (names : kind.NamesEntity) (id : String) : Fits kind (.str id)

end OptionKind

namespace Json

private theorem toStr?_eq_some_iff {j : Json} {s : String} : j.toStr? = some s ↔ j = .str s := by
  cases j <;> simp [toStr?]

private theorem toBool?_eq_some_iff {j : Json} {b : Bool} : j.toBool? = some b ↔ j = .bool b := by
  cases j <;> simp [toBool?]

private theorem toInt64?_eq_some_iff {j : Json} {i : Int64} :
    j.toInt64? = some i ↔ j = .int64 i := by
  constructor
  · intro word
    cases j with
    | num n =>
      cases n with
      | int n fits =>
        obtain rfl := Number.Binary64.toInt_of_int64? word
        rfl
      | float f finite => cases word
    | _ => cases word
  · rintro rfl
    exact Number.Binary64.int64?_toInt i

end Json

private theorem JsonNumber.isNearest_toFloat : (n : JsonNumber) → IsNearest n.toFloat n.exact
  | .int _ fits => Number.Binary64.isNearest_ofInt_of_fits (by omega)
  | .float f finite => by
    refine ⟨finite, fun g _ => ?_⟩
    rw [toFloat, exact, sub_self, abs_zero]
    exact abs_nonneg _

namespace CommandData

variable {c : CommandData}

/-- The entity is the one that the table has under the id, or a bare one where it has none. -/
def Resolves {α : Type} (table : Dict α) (id : String) (bare entity : α) : Prop :=
  Dict.find? id table = some entity ∨ Dict.find? id table = none ∧ entity = bare

inductive Means (c : CommandData) : OptionKind → Json → Value → Prop
  | string (s : String) : Means c .string (.str s) (.str s)
  | integer (i : Int64) : Means c .integer (.int64 i) (.int i)
  | number {n : JsonNumber} (near : IsNearest n.toFloat n.exact) :
      Means c .number (.num n) (.float n.toFloat)
  | boolean (b : Bool) : Means c .boolean (.bool b) (.bool b)
  | user {id : String} {user : User} (known : Resolves c.resolved.users id { id := id } user)
      (own : user.id = id) : Means c .user (.str id) (.view (.user user))
  | channel {id : String} {channel : Channel}
      (known : Resolves c.resolved.channels id { id := id } channel) (own : channel.id = id) :
      Means c .channel (.str id) (.view (.channel channel))
  | role {id : String} {role : Role} (known : Resolves c.resolved.roles id { id := id } role)
      (own : role.id = id) : Means c .role (.str id) (.view (.role role))
  | mentionableUser {id : String} {user : User}
      (known : Dict.find? id c.resolved.users = some user) (own : user.id = id) :
      Means c .mentionable (.str id) (.view (.user user))
  | mentionableRole {id : String} {role : Role} (noUser : Dict.find? id c.resolved.users = none)
      (known : Dict.find? id c.resolved.roles = some role) (own : role.id = id) :
      Means c .mentionable (.str id) (.view (.role role))
  | mentionableUnknown {id : String} (noUser : Dict.find? id c.resolved.users = none)
      (noRole : Dict.find? id c.resolved.roles = none) : Means c .mentionable (.str id) .unit
  | attachment {id : String} {attachment : Attachment}
      (known : Dict.find? id c.resolved.attachments = some attachment) (own : attachment.id = id) :
      Means c .attachment (.str id) (.view (.attachment attachment))
  | attachmentUnknown {id : String} (unknown : Dict.find? id c.resolved.attachments = none) :
      Means c .attachment (.str id) .unit

private theorem resolves_getD {α : Type} (table : Dict α) (id : String) (bare : α) :
    Resolves table id bare ((Dict.find? id table).getD bare) := by
  cases found : Dict.find? id table with
  | none => exact .inr ⟨found, rfl⟩
  | some entity => exact .inl found

private theorem Resolves.own {α : Type} {table : Dict α} {id : String} {bare entity : α}
    {idOf : α → String}
    (known : Resolves table id bare entity) (bareOwn : idOf bare = id)
    (keyed : ∀ id entity, Dict.find? id table = some entity → idOf entity = id) :
    idOf entity = id := by
  obtain found | ⟨-, rfl⟩ := known
  · exact keyed id entity found
  · exact bareOwn

private theorem means_mentionable (keyed : c.resolved.Keyed) (id : String) :
    c.Means .mentionable (.str id) (c.mentionable id) := by
  rw [mentionable, Dict.contains, Dict.contains]
  cases asUser : Dict.find? id c.resolved.users with
  | some user =>
    have known : c.user id = user := by rw [CommandData.user, asUser]; rfl
    rw [known]
    exact .mentionableUser asUser (keyed.users id user asUser)
  | none =>
    cases asRole : Dict.find? id c.resolved.roles with
    | some role =>
      have known : c.role id = role := by rw [CommandData.role, asRole]; rfl
      rw [known]
      exact .mentionableRole asUser asRole (keyed.roles id role asRole)
    | none => exact .mentionableUnknown asUser asRole

/-- An entity that is asked for is the one of the id, and the id is empty where the value is no text. -/
private theorem exists_means_of_namesEntity (keyed : c.resolved.Keyed) (name : String)
    {kind : OptionKind}
    (names : kind.NamesEntity) (j : Json) :
    ∃ v, c.convert name kind j = .ok v ∧ c.Means kind (.str (j.toStr?.getD "")) v := by
  generalize hid : j.toStr?.getD "" = id
  cases kind with
  | user =>
    have known := resolves_getD c.resolved.users id { id := id }
    refine ⟨.view (.user (c.user id)), by rw [convert, hid], .user known ?_⟩
    exact known.own rfl keyed.users
  | channel =>
    have known := resolves_getD c.resolved.channels id { id := id }
    refine ⟨.view (.channel (c.channel id)), by rw [convert, hid], .channel known ?_⟩
    exact known.own rfl keyed.channels
  | role =>
    have known := resolves_getD c.resolved.roles id { id := id }
    refine ⟨.view (.role (c.role id)), by rw [convert, hid], .role known ?_⟩
    exact known.own rfl keyed.roles
  | mentionable =>
    exact ⟨c.mentionable id, by rw [convert, hid], means_mentionable keyed id⟩
  | attachment =>
    refine ⟨_, by rw [convert, hid], ?_⟩
    cases found : Dict.find? id c.resolved.attachments with
    | none => exact .attachmentUnknown found
    | some attachment => exact .attachment found (keyed.attachments id attachment found)
  | _ => exact names.elim

private theorem exists_means_of_fits (keyed : c.resolved.Keyed) (name : String) {kind : OptionKind}
    {j : Json} (fits : kind.Fits j) : ∃ v, c.convert name kind j = .ok v ∧ c.Means kind j v := by
  cases fits with
  | string s => exact ⟨.str s, rfl, .string s⟩
  | integer i =>
    refine ⟨.int i, ?_, .integer i⟩
    have word : (Json.int64 i).toInt64? = some i := Json.toInt64?_eq_some_iff.2 rfl
    simp only [convert, word]
    rfl
  | number n => exact ⟨.float n.toFloat, rfl, .number n.isNearest_toFloat⟩
  | boolean b => exact ⟨.bool b, rfl, .boolean b⟩
  | id names id => exact exists_means_of_namesEntity keyed name names (.str id)

private theorem convert_of_not_fits (name : String) {kind : OptionKind} {j : Json}
    (grouped : kind.isGroup = false) (names : ¬ kind.NamesEntity) (unfit : ¬ kind.Fits j) :
    c.convert name kind j = .error (unexpected name j) := by
  cases kind with
  | string =>
    cases text : j.toStr? with
    | none => simp only [convert, text, Option.map_none]
    | some s => exact absurd (Json.toStr?_eq_some_iff.1 text ▸ .string s) unfit
  | integer =>
    cases word : j.toInt64? with
    | none => simp only [convert, word, Option.map_none]
    | some i => exact absurd (Json.toInt64?_eq_some_iff.1 word ▸ .integer i) unfit
  | number =>
    cases j with
    | num n => exact absurd (.number n) unfit
    | _ => rfl
  | boolean =>
    cases truth : j.toBool? with
    | none => simp only [convert, truth, Option.map_none]
    | some b => exact absurd (Json.toBool?_eq_some_iff.1 truth ▸ .boolean b) unfit
  | subCommand => cases grouped
  | subCommandGroup => cases grouped
  | _ => exact absurd trivial names

def named? (c : CommandData) (name : String) : Option CommandOption :=
  (CommandOption.plain c.options).find? fun option => option.name = name

private theorem option?_eq_named? (c : CommandData) (name : String) :
    c.option? name = c.named? name :=
  CommandOption.find?_eq name c.options

private theorem isGroup_of_named? {name : String} {option : CommandOption}
    (found : c.named? name = some option) : option.kind.isGroup = false :=
  CommandOption.isGroup_of_mem_plain c.options option (List.mem_of_find?_eq_some found)

/-- An argument is unit when its option is missing or has no value, and otherwise what a fitting value
stands for. A value that does not fit is refused, unless the option asks for an entity: then it is
taken for the empty id. -/
theorem argument_faithful (keyed : c.resolved.Keyed) (name : String) :
    ((c.named? name).bind CommandOption.value = none → c.argument name = .ok .unit) ∧
    ∀ option j, c.named? name = some option → option.value = some j →
      (option.kind.Fits j → ∃ v, c.argument name = .ok v ∧ c.Means option.kind j v) ∧
      (¬ option.kind.Fits j → ¬ option.kind.NamesEntity → c.argument name = .error (.invalidArgument
        ("option '" ++ name ++ "' has an unexpected value: " ++ j.compact))) ∧
      (¬ option.kind.Fits j → option.kind.NamesEntity →
        ∃ v, c.argument name = .ok v ∧ c.Means option.kind (.str "") v) := by
  refine ⟨fun absent => ?_, fun option j found value => ?_⟩
  · rw [argument, option?_eq_named?]
    cases found : c.named? name with
    | none => rfl
    | some option =>
      rw [found, Option.bind_some] at absent
      simp only [absent]
  · have converted : c.argument name = c.convert name option.kind j := by
      rw [argument, option?_eq_named?, found]
      simp only [value]
    rw [converted]
    refine ⟨exists_means_of_fits keyed name, fun unfit others => ?_, fun unfit names => ?_⟩
    · exact convert_of_not_fits name (isGroup_of_named? found) others unfit
    · have other : j.toStr? = none := by
        cases text : j.toStr? with
        | none => rfl
        | some s => exact absurd (Json.toStr?_eq_some_iff.1 text ▸ .id names s) unfit
      have taken := exists_means_of_namesEntity keyed name names j
      rwa [other] at taken

/-- A command whose options stand in a subcommand. The target is a role. -/
def promoteCommand : CommandData where
  options := [.mk "user" .subCommand none
    [.mk "target" .mentionable (some (.str "r1")) [], .mk "rank" .integer (some (.str "7")) []]]
  resolved := { roles := [("r1", { id := "r1", name := "low" })] }

private theorem keyed_promoteCommand : promoteCommand.resolved.Keyed where
  users _ _ := nofun
  channels _ _ := nofun
  roles id role known := by
    by_cases same : "r1" = id
    · subst same
      cases known
      rfl
    · rw [promoteCommand, Dict.find?, if_neg same] at known
      cases known
  attachments _ _ := nofun

theorem promoteCommand_arguments :
    promoteCommand.argument "target" = .ok (.view (.role { id := "r1", name := "low" })) ∧
      promoteCommand.argument "rank" = .error (.invalidArgument
        ("option 'rank' has an unexpected value: " ++ (Json.str "7").compact)) ∧
      promoteCommand.argument "user" = .ok .unit := by
  refine ⟨?_, ?_, (argument_faithful keyed_promoteCommand "user").1 rfl⟩
  · have names : OptionKind.NamesEntity .mentionable := trivial
    obtain ⟨v, given, means⟩ :=
      ((argument_faithful keyed_promoteCommand "target").2 _ _ rfl rfl).1 (.id names "r1")
    rw [given]
    cases means with
    | mentionableUser known => cases known
    | mentionableRole _ known =>
      cases known
      rfl
    | mentionableUnknown _ noRole => cases noRole
  · have plain : ¬ OptionKind.NamesEntity .integer := fun names => names
    exact ((argument_faithful keyed_promoteCommand "rank").2 _ _ rfl rfl).2.1 nofun plain

/-- A number in place of the id of a user is not refused. -/
theorem numeric_id_accepted :
    ¬ ∀ (c : CommandData) (name : String) (option : CommandOption) (j : Json), c.resolved.Keyed →
      c.named? name = some option → option.value = some j → ¬ option.kind.Fits j →
      ∃ message, c.argument name = .error (.invalidArgument message) := by
  intro claim
  let kick : CommandData := { options := [.mk "target" .user (some (.int64 7)) []] }
  have keyed : kick.resolved.Keyed :=
    ⟨fun _ _ => nofun, fun _ _ => nofun, fun _ _ => nofun, fun _ _ => nofun⟩
  obtain ⟨message, refused⟩ := claim kick "target" _ _ keyed rfl rfl nofun
  cases refused

end CommandData

end GuildSandbox
