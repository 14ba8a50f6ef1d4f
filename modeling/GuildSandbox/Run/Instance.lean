import GuildSandbox.Script.Compile
import GuildSandbox.Script.Evaluate

set_option autoImplicit false
set_option relaxedAutoImplicit false

namespace GuildSandbox

inductive InstanceState where
  | ready
  | completed
  | cancelled
  | runtimeError
  deriving DecidableEq, Repr, Inhabited

structure RunReport where
  scriptId : String
  outcome : Outcome
  steps : Nat
  execution : Nat
  idle : Nat
  total : Nat
  deriving DecidableEq, Repr, Inhabited

structure Instance where
  script : CompiledScript
  state : InstanceState := .ready
  deriving Inhabited

namespace InstanceState

def ofOutcome : Outcome → InstanceState
  | .completed => .completed
  | .cancelled _ => .cancelled
  | _ => .runtimeError

end InstanceState

namespace RunReport

/-- The report of a run that ended this way, from its account at the present. -/
def of (scriptId : String) (outcome : Outcome) (w : World) : RunReport :=
  { scriptId := scriptId, outcome := outcome, steps := w.account.totalSteps
    execution := w.account.executionDuration w.clock, idle := w.account.idleDuration w.clock
    total := w.account.totalDuration w.clock }

end RunReport

namespace Surface

def bindings (s : Surface) : List Script.Binding :=
  (s.map fun (name, view) => (⟨name, .own { value := .view view }⟩ : Script.Binding)).reverse

end Surface

namespace CompiledScript

def outcomeOf (a : Account) : Except Script.Interruption Unit → Outcome
  | .ok () => .completed
  | .error i => match a.cancelled with
    | some reason => .cancelled reason
    | none => .ofError i.toRunError

def execute (script : CompiledScript) (capabilities : Capabilities) (surface : Surface)
    (w : World) : Outcome × World :=
  let w := { w with account := w.account.begin w.clock }
  let (result, m) :=
    script.program.run script.limits capabilities { scope := surface.bindings, world := w }
  let w := { m.world with account := (m.meter.finish m.world.account).2 }
  (outcomeOf w.account result, w)

end CompiledScript

namespace Instance

def spent : RunError := .invalidArgument "script instance can only run once"

def run (i : Instance) (inv : Invocation) (surface : Surface) (w : World) :
    RunReport × Instance × World :=
  match i.state with
  | .ready =>
    let (outcome, w) := i.script.execute inv.capabilities surface w
    (.of i.script.id outcome w, { i with state := .ofOutcome outcome }, w)
  | _ => (.of i.script.id (.runtimeError spent) w, i, w)

end Instance

end GuildSandbox
