import GuildSandbox.Run.Error
import GuildSandbox.Script.Parser
import GuildSandbox.Script.Simplify

set_option autoImplicit false
set_option relaxedAutoImplicit false

namespace GuildSandbox

structure Source where
  id : String
  text : String
  deriving DecidableEq, Repr, Inhabited

/-- A script that is ready to run, under the limits that it was compiled with. -/
structure CompiledScript where
  id : String
  program : Script.Program
  limits : Script.Limits
  deriving Inhabited

def Source.compile (source : Source) (limits : Script.Limits) : Except RunError CompiledScript :=
  match Script.Program.parse limits source.text with
  | .error refusal => .error (.compile source.id refusal.message)
  | .ok program =>
    if program.importsModule then .error (.moduleLoading source.id)
    else .ok { id := source.id, program := program.simplify, limits := limits }

end GuildSandbox
