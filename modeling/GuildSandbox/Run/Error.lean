import GuildSandbox.Store.Error

set_option autoImplicit false
set_option relaxedAutoImplicit false

namespace GuildSandbox

inductive CancelReason where
  /-- The steps of the budget are used up. -/
  | stepLimit
  /-- Too much time was spent computing. -/
  | durationLimit
  /-- The deadline of the whole run has passed. -/
  | totalDurationLimit
  deriving DecidableEq, Repr, Inhabited

namespace CancelReason

def message : CancelReason → String
  | .stepLimit => "execution step limit exceeded"
  | .durationLimit => "execution duration limit exceeded"
  | .totalDurationLimit => "total duration limit exceeded"

end CancelReason

inductive RunError where
  | compile (id detail : String)
  | moduleLoading (id : String)
  | permissionDenied (permission : String)
  | store (e : StoreError)
  | value (e : ValueError)
  | cancelled (reason : CancelReason)
  | host (detail : String)
  | script (detail : String)
  | invalidArgument (detail : String)
  deriving DecidableEq, Repr, Inhabited

namespace RunError

def message : RunError → String
  | .compile id detail => "failed to compile script " ++ id ++ ": " ++ detail
  | .moduleLoading id => "module loading is not allowed (script " ++ id ++ " imports a module)"
  | .permissionDenied permission => "missing permission: " ++ permission
  | .store e => e.message
  | .value e => e.message
  | .cancelled reason => "run cancelled: " ++ reason.message
  | .host detail => "host call failed: " ++ detail
  | .script detail => "script error: " ++ detail
  | .invalidArgument detail => "invalid argument: " ++ detail

def chain (messages : List String) : String := ": ".intercalate messages

end RunError

inductive Outcome where
  | completed
  | cancelled (reason : CancelReason)
  | compileError (detail : String)
  | moduleLoadingDisallowed
  | runtimeError (cause : RunError)
  deriving DecidableEq, Repr, Inhabited

namespace Outcome

def isSuccess : Outcome → Bool
  | .completed => true
  | _ => false

def ofError : RunError → Outcome
  | .cancelled reason => .cancelled reason
  | .compile _ detail => .compileError detail
  | .moduleLoading _ => .moduleLoadingDisallowed
  | e => .runtimeError e

def message : Outcome → String
  | .completed => "completed"
  | .cancelled reason => "cancelled (" ++ reason.message ++ ")"
  | .compileError detail => "compile error: " ++ detail
  | .moduleLoadingDisallowed => "module loading disallowed"
  | .runtimeError cause => "runtime error: " ++ cause.message

end Outcome

end GuildSandbox
