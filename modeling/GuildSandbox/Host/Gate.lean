import GuildSandbox.Host.Link

set_option autoImplicit false
set_option relaxedAutoImplicit false

namespace GuildSandbox

inductive Requirement where
  | guild (permission : Permissions)
  /-- Judged by channel permissions in the channel of the interaction, and by guild permissions in
  any other. -/
  | channel (channelId : String) (permission : Permissions)
  | manageRole (roleId : String)
  deriving DecidableEq, Repr, Inhabited

namespace Requirement

def describe : Requirement → String
  | .guild permission => permission.name
  | .channel _ permission => permission.name
  | .manageRole roleId => "MANAGE_ROLES for role " ++ roleId

end Requirement

/-- The place of an interaction, and the permissions of its user there when it was dispatched. -/
structure Gate where
  snapshot : DerivedPermissions
  guildId : String
  channelId : String
  deriving DecidableEq, Repr, Inhabited

namespace Gate

def grants (g : Gate) (p : DerivedPermissions) : Requirement → Bool
  | .guild permission => p.hasGuildPermission permission
  | .channel channelId permission =>
    if channelId = g.channelId then p.hasChannelPermission permission
    else p.hasGuildPermission permission
  | .manageRole roleId => p.canManageRole roleId

def demand (g : Gate) (p : DerivedPermissions) (r : Requirement) : Except RunError Unit :=
  if g.grants p r then .ok () else .error (.permissionDenied r.describe)

def check (g : Gate) (r : Requirement) : Host Unit := do
  ofExcept (g.demand g.snapshot r)
  let live ← Host.call (.immediate (Host.lookup fun c => c.livePermissions? g.snapshot.userId))
  match live with
  | some p => ofExcept (g.demand p r)
  | none => pure ()

end Gate

end GuildSandbox
