set_option autoImplicit false
set_option relaxedAutoImplicit false

namespace GuildSandbox

structure Permissions where
  bits : UInt64
  deriving DecidableEq, Repr, Inhabited

namespace Permissions

def kickMembers : Permissions := ⟨0x2⟩
def banMembers : Permissions := ⟨0x4⟩
def administrator : Permissions := ⟨0x8⟩
def manageChannels : Permissions := ⟨0x10⟩
def addReactions : Permissions := ⟨0x40⟩
def manageMessages : Permissions := ⟨0x2000⟩
def manageRoles : Permissions := ⟨0x10000000⟩

def empty : Permissions := ⟨0⟩

def contains (p q : Permissions) : Bool := p.bits &&& q.bits == q.bits

def union (p q : Permissions) : Permissions := ⟨p.bits ||| q.bits⟩

def name (p : Permissions) : String :=
  if p = kickMembers then "KICK_MEMBERS"
  else if p = banMembers then "BAN_MEMBERS"
  else if p = administrator then "ADMINISTRATOR"
  else if p = manageChannels then "MANAGE_CHANNELS"
  else if p = addReactions then "ADD_REACTIONS"
  else if p = manageMessages then "MANAGE_MESSAGES"
  else if p = manageRoles then "MANAGE_ROLES"
  else "UNKNOWN"

end Permissions

end GuildSandbox
