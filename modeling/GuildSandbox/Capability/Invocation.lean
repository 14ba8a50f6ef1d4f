import GuildSandbox.Host.Gate
import GuildSandbox.Store.Guild
import GuildSandbox.Value.Basic

set_option autoImplicit false
set_option relaxedAutoImplicit false

namespace GuildSandbox

/-- The interaction that a run answers, the permissions of its user at that time, and the saved
messages that the host offers, if any. -/
structure Invocation where
  interaction : Interaction
  permissions : DerivedPermissions
  savedMessages : Option (List SavedMessage) := none

namespace Invocation

def guildId (inv : Invocation) : String := inv.interaction.guildId

def gate (inv : Invocation) : Gate :=
  { snapshot := inv.permissions, guildId := inv.interaction.guildId
    channelId := inv.interaction.channelId }

/-- The saved message of an id that belongs to the guild of the interaction. -/
def savedMessage? (inv : Invocation) (id : String) : Option SavedMessage :=
  (inv.savedMessages.getD []).find? fun m => m.id = id && m.guildId = some inv.guildId

end Invocation

end GuildSandbox
