import GuildSandbox.Run.Error
import GuildSandbox.Script.Fault

set_option autoImplicit false
set_option relaxedAutoImplicit false

namespace GuildSandbox.Script

inductive Interruption where
  /-- A failure from outside: a failure of the host, or one of which only the message is known. -/
  | host (message : String) (cause : Option RunError)
  /-- A fault of the script itself. -/
  | fault (f : Fault)
  | inFunction (inner : Interruption)
  | inModule (inner : Interruption)
  deriving Inhabited

namespace Interruption

def ofRunError (e : RunError) : Interruption := .host e.message (some e)

def toRunError : Interruption → RunError
  | .host _ (some e) => e
  | .host message none => .host message
  | .fault f => .script f.message
  | .inFunction inner => toRunError inner
  | .inModule inner => toRunError inner

def message : Interruption → String
  | .host message _ => message
  | .fault f => f.message
  | .inFunction inner => message inner
  | .inModule inner => message inner

def core : Interruption → Interruption
  | .inFunction inner => core inner
  | .inModule inner => core inner
  | i => i

def isCatchable : Interruption → Bool
  | .host _ _ => false
  | .fault f => f.isCatchable
  | .inFunction _ => true
  | .inModule _ => true

/-- The failure after it left a function: what cannot be caught passes through unchanged. -/
def leaveFunction (i : Interruption) : Interruption := if i.isCatchable then .inFunction i else i

theorem toRunError_ofRunError (e : RunError) : (ofRunError e).toRunError = e := rfl

end Interruption

end GuildSandbox.Script
