import GuildSandbox.Run.Dispatch

set_option autoImplicit false
set_option relaxedAutoImplicit false

namespace GuildSandbox.CommandLine

structure Fixture where
  interaction : Interaction
  permissions : DerivedPermissions
  cache : Cache := {}
  savedMessages : List SavedMessage := []

namespace Fixture

def ofJson? (j : Json) : Option Fixture := do
  match ← j.recordFields? ["interaction", "permissions", "cache", "saved_messages"] with
  | [interaction, permissions, cache, savedMessages] =>
    return {
      interaction := ← Json.required Interaction.ofJson? interaction
      permissions := ← Json.required DerivedPermissions.ofJson? permissions
      cache := ← Json.withDefault {} Cache.ofJson? cache
      savedMessages := ← Json.withDefault [] (Json.list SavedMessage.ofJson?) savedMessages }
  | _ => none

def parse? (text : String) : Option Fixture := Json.parse? text >>= ofJson?

/-- What a run for the fixture is given. Without saved messages the host offers none. -/
def invocation (f : Fixture) : Invocation :=
  { interaction := f.interaction, permissions := f.permissions
    savedMessages := if f.savedMessages.isEmpty then none else some f.savedMessages }

end Fixture

end GuildSandbox.CommandLine
