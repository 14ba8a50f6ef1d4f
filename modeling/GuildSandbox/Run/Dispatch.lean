import GuildSandbox.Run.Instance

set_option autoImplicit false
set_option relaxedAutoImplicit false

namespace GuildSandbox

structure Dispatcher where
  budget : Budget := {}
  storeLimits : StoreLimits := {}
  /-- What the user of a run that failed is told. -/
  errorMessage : String
  deriving DecidableEq, Repr, Inhabited

namespace Dispatcher

def failureData (d : Dispatcher) : ResponseData :=
  { content := some d.errorMessage, ephemeral := true }

def notify (d : Dispatcher) (i : Interaction) : Host Unit := do
  if (← getThe World).responded then
    let _ ← Host.sendFollowup i.applicationId d.failureData
  else
    let _ ← Host.sendResponse i.id
      { kind := .channelMessageWithSource, data := some d.failureData }

/-- The world at the start of a run: a new account, a deadline, and no answer so far. -/
def opened (d : Dispatcher) (w : World) : World :=
  { w with account := .new d.budget w.clock, deadline := some (w.clock + d.budget.maxTotal)
           responded := false }

def notified (d : Dispatcher) (i : Interaction) (w : World) : World :=
  let w := { w with deadline := some (w.clock + d.budget.maxTotal) }
  ((HostCall.service (d.notify i)).settle.run w).2

def dispatch (d : Dispatcher) (script : CompiledScript) (inv : Invocation) (w : World) :
    RunReport × World :=
  let surface := Surface.standard inv d.storeLimits
  let (report, _, w) := ({ script := script } : Instance).run inv surface (d.opened w)
  let w := if report.outcome.isSuccess then w else d.notified inv.interaction w
  (report, { w with deadline := none })

end Dispatcher

end GuildSandbox
