import GuildSandbox.Json.Record
import GuildSandbox.Permission.Basic

set_option autoImplicit false
set_option relaxedAutoImplicit false

namespace GuildSandbox

/-- The permissions of one user, in the guild and in the channel of the interaction. -/
structure DerivedPermissions where
  userId : String
  guildIsOwner : Bool := false
  guildPermissions : Permissions := .empty
  channelPermissions : Permissions := .empty
  /-- The roles below the user's highest role. -/
  lowerRoleIds : List String := []
  deriving DecidableEq, Repr, Inhabited

namespace DerivedPermissions

def isPrivileged (d : DerivedPermissions) : Bool :=
  d.guildIsOwner || d.guildPermissions.contains .administrator

def hasGuildPermission (d : DerivedPermissions) (p : Permissions) : Bool :=
  d.isPrivileged || d.guildPermissions.contains p

def hasChannelPermission (d : DerivedPermissions) (p : Permissions) : Bool :=
  d.isPrivileged || d.channelPermissions.contains p

/-- Roles may be managed, and this one sits below the user's highest role. -/
def canManageRole (d : DerivedPermissions) (roleId : String) : Bool :=
  d.isPrivileged ||
    (d.guildPermissions.contains .manageRoles && d.lowerRoleIds.any (· == roleId))

def toJson (d : DerivedPermissions) : Json :=
  .obj [("user_id", .str d.userId),
    ("guild_is_owner", .bool d.guildIsOwner),
    ("guild_permissions", Json.ofUInt64 d.guildPermissions.bits),
    ("channel_permissions", Json.ofUInt64 d.channelPermissions.bits),
    ("lower_role_ids", .arr (d.lowerRoleIds.map .str))]

def ofJson? (j : Json) : Option DerivedPermissions := do
  let fields ← j.recordFields?
    ["user_id", "guild_is_owner", "guild_permissions", "channel_permissions", "lower_role_ids"]
  match fields with
  | [userId, owner, guild, channel, lower] =>
    return {
      userId := ← Json.required Json.toStr? userId
      guildIsOwner := ← Json.withDefault false Json.toBool? owner
      guildPermissions := ⟨← Json.withDefault 0 Json.uint64 guild⟩
      channelPermissions := ⟨← Json.withDefault 0 Json.uint64 channel⟩
      lowerRoleIds := ← Json.withDefault [] (Json.list Json.toStr?) lower }
  | _ => none

end DerivedPermissions

end GuildSandbox
