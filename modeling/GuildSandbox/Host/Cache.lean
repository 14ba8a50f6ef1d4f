import GuildSandbox.Entity.Guild
import GuildSandbox.Entity.Message
import GuildSandbox.Permission.Derived

set_option autoImplicit false
set_option relaxedAutoImplicit false

namespace GuildSandbox

structure Cache where
  guilds : List Guild := []
  channels : List Channel := []
  roles : Dict (List Role) := []
  members : Dict (List Member) := []
  messages : List Message := []
  /-- Current permissions by user; those of other users cannot be derived. -/
  permissions : Dict DerivedPermissions := []
  deriving DecidableEq, Inhabited

namespace Cache

def toJson (c : Cache) : Json :=
  .obj [("guilds", .arr (c.guilds.map Guild.toJson)),
    ("channels", .arr (c.channels.map Channel.toJson)),
    ("roles", Json.ofTable (fun rs => .arr (rs.map Role.toJson)) c.roles),
    ("members", Json.ofTable (fun ms => .arr (ms.map Member.toJson)) c.members),
    ("messages", .arr (c.messages.map Message.toJson)),
    ("permissions", Json.ofTable DerivedPermissions.toJson c.permissions)]

def ofJson? (j : Json) : Option Cache := do
  match ← j.recordFields?
    ["guilds", "channels", "roles", "members", "messages", "permissions"] with
  | [guilds, channels, roles, members, messages, permissions] =>
    return {
      guilds := ← Json.withDefault [] (Json.list Guild.ofJson?) guilds
      channels := ← Json.withDefault [] (Json.list Channel.ofJson?) channels
      roles := ← Json.withDefault [] (Json.table (Json.list Role.ofJson?)) roles
      members := ← Json.withDefault [] (Json.table (Json.list Member.ofJson?)) members
      messages := ← Json.withDefault [] (Json.list Message.ofJson?) messages
      permissions := ← Json.withDefault [] (Json.table DerivedPermissions.ofJson?) permissions }
  | _ => none

def guild? (c : Cache) (id : String) : Option Guild := c.guilds.find? fun g => g.id = id

def guildChannels (c : Cache) (guildId : String) : List Channel :=
  c.channels.filter fun ch => ch.guildId = some guildId

def channel? (c : Cache) (id : String) : Option Channel := c.channels.find? fun ch => ch.id = id

def guildRoles (c : Cache) (guildId : String) : List Role := (Dict.find? guildId c.roles).getD []

def role? (c : Cache) (guildId id : String) : Option Role :=
  (c.guildRoles guildId).find? fun r => r.id = id

def member? (c : Cache) (guildId userId : String) : Option Member :=
  ((Dict.find? guildId c.members).getD []).find? fun m => m.user.id = userId

def message? (c : Cache) (channelId id : String) : Option Message :=
  c.messages.find? fun m => m.channelId = channelId && m.id = id

def livePermissions? (c : Cache) (userId : String) : Option DerivedPermissions :=
  Dict.find? userId c.permissions

def setPermissions (c : Cache) (p : DerivedPermissions) : Cache :=
  { c with permissions := Dict.insert p.userId p c.permissions }

def insertChannel (c : Cache) (channel : Channel) : Cache :=
  { c with channels := (c.channels.filter fun ch => ch.id ≠ channel.id) ++ [channel] }

def insertMessage (c : Cache) (message : Message) : Cache :=
  { c with messages := (c.messages.filter fun m => m.id ≠ message.id) ++ [message] }

end Cache

end GuildSandbox
