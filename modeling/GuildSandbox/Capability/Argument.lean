import GuildSandbox.Json.Printer
import GuildSandbox.Run.Error
import GuildSandbox.Value.Basic

set_option autoImplicit false
set_option relaxedAutoImplicit false

namespace GuildSandbox.CommandData

def user (c : CommandData) (id : String) : User :=
  (Dict.find? id c.resolved.users).getD { id := id }

def channel (c : CommandData) (id : String) : Channel :=
  (Dict.find? id c.resolved.channels).getD { id := id }

def role (c : CommandData) (id : String) : Role :=
  (Dict.find? id c.resolved.roles).getD { id := id }

def mentionable (c : CommandData) (id : String) : Value :=
  if Dict.contains id c.resolved.users then .view (.user (c.user id))
  else if Dict.contains id c.resolved.roles then .view (.role (c.role id))
  else .unit

def unexpected (name : String) (value : Json) : RunError :=
  .invalidArgument ("option '" ++ name ++ "' has an unexpected value: " ++ value.compact)

/-- The value of an option of a kind. Ids that are not text count as empty. -/
def convert (c : CommandData) (name : String) (kind : OptionKind) (value : Json) :
    Except RunError Value :=
  let id := value.toStr?.getD ""
  let fitting (v : Option Value) : Except RunError Value :=
    match v with
    | some v => .ok v
    | none => .error (unexpected name value)
  match kind with
  | .string => fitting (value.toStr?.map .str)
  | .integer => fitting (value.toInt64?.map .int)
  | .number => fitting (value.toFloat?.map .float)
  | .boolean => fitting (value.toBool?.map .bool)
  | .user => .ok (.view (.user (c.user id)))
  | .channel => .ok (.view (.channel (c.channel id)))
  | .role => .ok (.view (.role (c.role id)))
  | .mentionable => .ok (c.mentionable id)
  | .attachment => .ok (.ofView? ((Dict.find? id c.resolved.attachments).map .attachment))
  | .subCommand | .subCommandGroup => .ok .unit

/-- The argument of a name, or unit when there is no such option or it has no value. -/
def argument (c : CommandData) (name : String) : Except RunError Value :=
  match c.option? name with
  | none => .ok .unit
  | some option => match option.value with
    | none => .ok .unit
    | some value => c.convert name option.kind value

end GuildSandbox.CommandData
