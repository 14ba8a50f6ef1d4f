import GuildSandbox.Json.Record
import GuildSandbox.Permission.Basic

set_option autoImplicit false
set_option relaxedAutoImplicit false

namespace GuildSandbox

structure Guild where
  id : String := ""
  name : String := ""
  ownerId : String := ""
  icon : Option String := none
  description : Option String := none
  deriving DecidableEq, Repr, Inhabited

namespace Guild

def toJson (g : Guild) : Json :=
  .obj (Json.always "id" (.str g.id) ++ Json.always "name" (.str g.name) ++
    Json.always "owner_id" (.str g.ownerId) ++ Json.whenPresent "icon" .str g.icon ++
    Json.whenPresent "description" .str g.description)

def ofJson? (j : Json) : Option Guild := do
  match ← j.recordFields? ["id", "name", "owner_id", "icon", "description"] with
  | [id, name, ownerId, icon, description] =>
    return {
      id := ← Json.required Json.toStr? id
      name := ← Json.required Json.toStr? name
      ownerId := ← Json.withDefault "" Json.toStr? ownerId
      icon := ← Json.optional Json.toStr? icon
      description := ← Json.optional Json.toStr? description }
  | _ => none

end Guild

structure Channel where
  id : String := ""
  guildId : Option String := none
  name : String := ""
  kind : UInt8 := 0
  topic : Option String := none
  position : Int64 := 0
  parentId : Option String := none
  nsfw : Bool := false
  deriving DecidableEq, Repr, Inhabited

namespace Channel

def mention (c : Channel) : String := "<#" ++ c.id ++ ">"

def toJson (c : Channel) : Json :=
  .obj (Json.always "id" (.str c.id) ++ Json.whenPresent "guild_id" .str c.guildId ++
    Json.always "name" (.str c.name) ++ Json.always "type" (Json.ofUInt64 c.kind.toUInt64) ++
    Json.whenPresent "topic" .str c.topic ++ Json.always "position" (.int64 c.position) ++
    Json.whenPresent "parent_id" .str c.parentId ++ Json.always "nsfw" (.bool c.nsfw))

def ofJson? (j : Json) : Option Channel := do
  match ← j.recordFields?
    ["id", "guild_id", "name", "type", "topic", "position", "parent_id", "nsfw"] with
  | [id, guildId, name, kind, topic, position, parentId, nsfw] =>
    return {
      id := ← Json.required Json.toStr? id
      guildId := ← Json.optional Json.toStr? guildId
      name := ← Json.withDefault "" Json.toStr? name
      kind := UInt8.ofNat (← Json.withDefault 0 (Json.intWithin 0 255) kind).toNat
      topic := ← Json.optional Json.toStr? topic
      position := ← Json.withDefault 0 Json.toInt64? position
      parentId := ← Json.optional Json.toStr? parentId
      nsfw := ← Json.withDefault false Json.toBool? nsfw }
  | _ => none

end Channel

structure Role where
  id : String := ""
  name : String := ""
  color : UInt32 := 0
  position : Int64 := 0
  permissions : Permissions := .empty
  hoist : Bool := false
  mentionable : Bool := false
  managed : Bool := false
  deriving DecidableEq, Repr, Inhabited

namespace Role

def mention (r : Role) : String := "<@&" ++ r.id ++ ">"

def toJson (r : Role) : Json :=
  .obj [("id", .str r.id), ("name", .str r.name), ("color", Json.ofUInt64 r.color.toUInt64),
    ("position", .int64 r.position), ("permissions", Json.ofUInt64 r.permissions.bits),
    ("hoist", .bool r.hoist), ("mentionable", .bool r.mentionable), ("managed", .bool r.managed)]

def ofJson? (j : Json) : Option Role := do
  match ← j.recordFields?
    ["id", "name", "color", "position", "permissions", "hoist", "mentionable", "managed"] with
  | [id, name, color, position, permissions, hoist, mentionable, managed] =>
    return {
      id := ← Json.required Json.toStr? id
      name := ← Json.required Json.toStr? name
      color := UInt32.ofNat (← Json.withDefault 0 (Json.intWithin 0 4294967295) color).toNat
      position := ← Json.withDefault 0 Json.toInt64? position
      permissions := ⟨← Json.withDefault 0 Json.uint64 permissions⟩
      hoist := ← Json.withDefault false Json.toBool? hoist
      mentionable := ← Json.withDefault false Json.toBool? mentionable
      managed := ← Json.withDefault false Json.toBool? managed }
  | _ => none

end Role

structure ChannelEdit where
  name : Option String := none
  topic : Option String := none
  deriving DecidableEq, Repr, Inhabited

namespace ChannelEdit

def toJson (e : ChannelEdit) : Json :=
  .obj (Json.whenPresent "name" .str e.name ++ Json.whenPresent "topic" .str e.topic)

def ofJson? (j : Json) : Option ChannelEdit := do
  match ← j.recordFields? ["name", "topic"] with
  | [name, topic] =>
    return { name := ← Json.optional Json.toStr? name, topic := ← Json.optional Json.toStr? topic }
  | _ => none

end ChannelEdit

structure RoleEdit where
  name : Option String := none
  deriving DecidableEq, Repr, Inhabited

namespace RoleEdit

def toJson (e : RoleEdit) : Json := .obj (Json.whenPresent "name" .str e.name)

def ofJson? (j : Json) : Option RoleEdit := do
  match ← j.recordFields? ["name"] with
  | [name] => return { name := ← Json.optional Json.toStr? name }
  | _ => none

end RoleEdit

end GuildSandbox
