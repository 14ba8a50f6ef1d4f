import GuildSandbox.Entity.Guild
import GuildSandbox.Entity.Message

/-!
Commands as a user invokes them.

A command carries options, which may nest inside subcommands and groups of subcommands, and tables
of the entities that its options refer to by id. `CommandData.option?` looks an option up by name:
subcommands and groups are looked into in place and are never found themselves, options nested
under other kinds stay hidden, and the first match wins.
-/

set_option autoImplicit false
set_option relaxedAutoImplicit false

namespace GuildSandbox

inductive OptionKind where
  | subCommand
  | subCommandGroup
  | string
  | integer
  | boolean
  | user
  | channel
  | role
  | mentionable
  | number
  | attachment
  deriving DecidableEq, Repr, Inhabited

namespace OptionKind

def names : List (String × OptionKind) :=
  [("sub_command", .subCommand), ("sub_command_group", .subCommandGroup), ("string", .string),
   ("integer", .integer), ("boolean", .boolean), ("user", .user), ("channel", .channel),
   ("role", .role), ("mentionable", .mentionable), ("number", .number),
   ("attachment", .attachment)]

def name : OptionKind → String
  | .subCommand => "sub_command"
  | .subCommandGroup => "sub_command_group"
  | .string => "string"
  | .integer => "integer"
  | .boolean => "boolean"
  | .user => "user"
  | .channel => "channel"
  | .role => "role"
  | .mentionable => "mentionable"
  | .number => "number"
  | .attachment => "attachment"

def isGroup : OptionKind → Bool
  | .subCommand | .subCommandGroup => true
  | _ => false

end OptionKind

inductive CommandOption where
  | mk (name : String) (kind : OptionKind) (value : Option Json) (options : List CommandOption)

namespace CommandOption

def name : CommandOption → String
  | .mk name _ _ _ => name

def kind : CommandOption → OptionKind
  | .mk _ kind _ _ => kind

def value : CommandOption → Option Json
  | .mk _ _ value _ => value

def options : CommandOption → List CommandOption
  | .mk _ _ _ options => options

instance : Inhabited CommandOption := ⟨.mk "" .string none []⟩

mutual

def toJson : CommandOption → Json
  | .mk name kind value options =>
    .obj (Json.always "name" (.str name) ++ Json.always "type" (.str kind.name) ++
      Json.whenPresent "value" id value ++ Json.always "options" (.arr (toJsonItems options)))

def toJsonItems : List CommandOption → List Json
  | [] => []
  | option :: rest => toJson option :: toJsonItems rest

end

/-- Reads the record from JSON, given how to read the options nested in it. -/
def ofJsonWith? (nested : Json → Option CommandOption) (j : Json) : Option CommandOption := do
  match ← j.recordFields? ["name", "type", "value", "options"] with
  | [name, kind, value, options] =>
    return .mk (← Json.required Json.toStr? name)
      (← Json.required (Json.oneOf OptionKind.names) kind)
      (← Json.optional Json.anything value)
      (← Json.withDefault [] (Json.list nested) options)
  | _ => none

def ofJsonWithin? : (levels : Nat) → Json → Option CommandOption
  | 0 => fun _ => none
  | levels + 1 => ofJsonWith? (ofJsonWithin? levels)

/-- The record from JSON. Options cannot nest deeper than the tree that holds them. -/
def ofJson? (j : Json) : Option CommandOption := ofJsonWithin? j.height j

mutual

/-- The first option of a name, subcommands and groups looked into in place. -/
def find? (name : String) : List CommandOption → Option CommandOption
  | [] => none
  | option :: rest => (findIn? name option).or (find? name rest)

/-- The option itself if it has the name, or what is found in it if it is a group. -/
def findIn? (name : String) : CommandOption → Option CommandOption
  | .mk own kind value options =>
    if kind.isGroup then find? name options
    else if own = name then some (.mk own kind value options)
    else none

end

end CommandOption

structure ResolvedMember where
  nick : Option String := none
  roles : List String := []
  deriving DecidableEq, Repr, Inhabited

namespace ResolvedMember

def toJson (m : ResolvedMember) : Json :=
  .obj (Json.whenPresent "nick" .str m.nick ++
    Json.always "roles" (.arr (m.roles.map .str)))

def ofJson? (j : Json) : Option ResolvedMember := do
  match ← j.recordFields? ["nick", "roles"] with
  | [nick, roles] =>
    return {
      nick := ← Json.optional Json.toStr? nick
      roles := ← Json.withDefault [] (Json.list Json.toStr?) roles }
  | _ => none

end ResolvedMember

structure ResolvedData where
  users : Dict User := []
  members : Dict ResolvedMember := []
  channels : Dict Channel := []
  roles : Dict Role := []
  attachments : Dict Attachment := []
  deriving DecidableEq, Inhabited

namespace ResolvedData

def toJson (r : ResolvedData) : Json :=
  .obj [("users", Json.ofTable User.toJson r.users),
    ("members", Json.ofTable ResolvedMember.toJson r.members),
    ("channels", Json.ofTable Channel.toJson r.channels),
    ("roles", Json.ofTable Role.toJson r.roles),
    ("attachments", Json.ofTable Attachment.toJson r.attachments)]

def ofJson? (j : Json) : Option ResolvedData := do
  match ← j.recordFields? ["users", "members", "channels", "roles", "attachments"] with
  | [users, members, channels, roles, attachments] =>
    return {
      users := ← Json.withDefault [] (Json.table User.ofJson?) users
      members := ← Json.withDefault [] (Json.table ResolvedMember.ofJson?) members
      channels := ← Json.withDefault [] (Json.table Channel.ofJson?) channels
      roles := ← Json.withDefault [] (Json.table Role.ofJson?) roles
      attachments := ← Json.withDefault [] (Json.table Attachment.ofJson?) attachments }
  | _ => none

end ResolvedData

structure CommandData where
  id : String := ""
  name : String := ""
  options : List CommandOption := []
  resolved : ResolvedData := {}
  deriving Inhabited

namespace CommandData

/-- The first option of a name, subcommands and groups looked into in place. -/
def option? (c : CommandData) (name : String) : Option CommandOption :=
  CommandOption.find? name c.options

def toJson (c : CommandData) : Json :=
  .obj [("id", .str c.id), ("name", .str c.name),
    ("options", .arr (CommandOption.toJsonItems c.options)), ("resolved", c.resolved.toJson)]

def ofJson? (j : Json) : Option CommandData := do
  match ← j.recordFields? ["id", "name", "options", "resolved"] with
  | [id, name, options, resolved] =>
    return {
      id := ← Json.required Json.toStr? id
      name := ← Json.required Json.toStr? name
      options := ← Json.withDefault [] (Json.list CommandOption.ofJson?) options
      resolved := ← Json.withDefault {} ResolvedData.ofJson? resolved }
  | _ => none

end CommandData

end GuildSandbox
