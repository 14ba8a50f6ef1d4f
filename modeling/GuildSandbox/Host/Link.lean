import GuildSandbox.Host.World

/-!
Calls from a script to its host.

A call is made only while the run is active. The run is idle until the call has settled, and a
call that still waits when the deadline comes is dropped without effect. A call that settled in a
run that has been cancelled meanwhile fails like the run.
-/

set_option autoImplicit false
set_option relaxedAutoImplicit false

namespace GuildSandbox

/-- A call to the host: how long it waits before it takes effect, and the effect. -/
structure HostCall (α : Type) where
  wait : World → Nat := fun _ => 0
  effect : Host α

inductive Settled (α : Type) where
  | dropped (reason : CancelReason)
  | finished (result : Except RunError α)

namespace HostCall

def immediate {α : Type} (effect : Host α) : HostCall α := { effect := effect }

def service {α : Type} (effect : Host α) : HostCall α :=
  { wait := fun w => w.rest.delay, effect := effect }

/-- Waits for a call to take effect or for the deadline, whichever comes first. -/
def settle {α : Type} (c : HostCall α) : StateM World (Settled α) := do
  let w ← get
  let wait := c.wait w
  if 0 < wait && w.reachesDeadline wait then
    let w := w.elapseToDeadline 0
    set w
    return .dropped (w.account.signal.getD .totalDurationLimit)
  else
    set (w.elapse wait)
    return .finished (← c.effect.run)

end HostCall

namespace World

def idled (w : World) : World := { w with account := (w.account.enterIdle w.clock).2 }

/-- The world after a call that began in `w` and left `left` behind: the run is as idle as before. -/
def resumed (w left : World) : World :=
  { left with account := left.account.leaveIdle (w.account.enterIdle w.clock).1 left.clock }

end World

namespace Host

def call {α : Type} (c : HostCall α) : Host α := do
  ensureActive
  let w ← getThe World
  set w.idled
  let settled ← (c.settle : StateM World (Settled α))
  modify w.resumed
  match settled with
  | .dropped reason => throw (.cancelled reason)
  | .finished result =>
    ensureActive
    ofExcept result

end Host

end GuildSandbox
