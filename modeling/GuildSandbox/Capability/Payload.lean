import GuildSandbox.Entity.Guild
import GuildSandbox.Interaction.Response
import GuildSandbox.Run.Error
import GuildSandbox.Value.Plain

set_option autoImplicit false
set_option relaxedAutoImplicit false

namespace GuildSandbox

namespace Fields

def rejectUnknown (entries : Dict Value) (allowed : List String) : Except RunError Unit :=
  match (Dict.keys entries).find? fun key => !allowed.contains key with
  | some key => .error (.invalidArgument
      ("unknown field '" ++ key ++ "', expected one of: " ++ ", ".intercalate allowed))
  | none => .ok ()

def wrongType (name expected : String) (found : Value) : RunError :=
  .invalidArgument ("'" ++ name ++ "' must be a " ++ expected ++ ", got " ++ found.typeName)

def text? (entries : Dict Value) (name : String) : Except RunError (Option String) :=
  match Dict.find? name entries with
  | none | some .unit => .ok none
  | some (.str s) => .ok (some s)
  | some value => .error (wrongType name "string" value)

def bool (entries : Dict Value) (name : String) (default : Bool) : Except RunError Bool :=
  match Dict.find? name entries with
  | none | some .unit => .ok default
  | some (.bool b) => .ok b
  | some value => .error (wrongType name "bool" value)

end Fields

structure ResponsePayload where
  content : Option String := none
  ephemeral : Bool := true
  embeds : List Json := []
  deriving DecidableEq, Inhabited

namespace ResponsePayload

def embedsOf (entries : Dict Value) : Except RunError (List Json) :=
  match Dict.find? "embeds" entries with
  | none | some .unit => .ok []
  | some value => do
    match ← value.toPlainJson.mapError RunError.value with
    | .arr embeds => return embeds
    | .obj fields => return [.obj fields]
    | _ => .error (.invalidArgument "'embeds' must be a map or an array of maps")

def ofMap (entries : Dict Value) : Except RunError ResponsePayload := do
  Fields.rejectUnknown entries ["content", "ephemeral", "embeds"]
  let ephemeral ← Fields.bool entries "ephemeral" true
  let embeds ← embedsOf entries
  let content ← Fields.text? entries "content"
  return { content := content, ephemeral := ephemeral, embeds := embeds }

def ofText (content : String) (ephemeral : Bool) : ResponsePayload :=
  { content := some content, ephemeral := ephemeral }

def toData (p : ResponsePayload) : ResponseData :=
  { content := p.content, embeds := p.embeds, ephemeral := p.ephemeral }

end ResponsePayload

namespace ChannelEdit

def ofMap (entries : Dict Value) : Except RunError ChannelEdit := do
  Fields.rejectUnknown entries ["name", "topic"]
  return { name := ← Fields.text? entries "name", topic := ← Fields.text? entries "topic" }

end ChannelEdit

namespace RoleEdit

def ofMap (entries : Dict Value) : Except RunError RoleEdit := do
  Fields.rejectUnknown entries ["name"]
  return { name := ← Fields.text? entries "name" }

end RoleEdit

end GuildSandbox
