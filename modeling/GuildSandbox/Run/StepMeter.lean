import GuildSandbox.Run.Account

set_option autoImplicit false
set_option relaxedAutoImplicit false

namespace GuildSandbox

/-- The operations of a run so far, and how many of them the account has been told of. -/
structure StepMeter where
  seen : Nat := 0
  reported : Nat := 0
  deriving DecidableEq, Repr, Inhabited

namespace StepMeter

def interval : Nat := 10

/-- The operations that the account has not been told of; they count as told from now on. -/
def takeUnreported (m : StepMeter) : Nat × StepMeter :=
  (m.seen - m.reported, { m with reported := m.seen })

/-- Notes that so many operations have been done, and checks the account when it is time to. Gives
the reason to stop, if there is one. -/
def onOperation (m : StepMeter) (operations : Nat) (a : Account) (now : Nat) :
    Option CancelReason × StepMeter × Account :=
  let m := { m with seen := operations }
  if operations % interval = 0 then
    let (steps, m) := m.takeUnreported
    let (reason, a) := a.onStep steps now
    (reason, m, a)
  else (none, m, a)

def finish (m : StepMeter) (a : Account) : StepMeter × Account :=
  let (steps, m) := m.takeUnreported
  (m, a.addSteps steps)

end StepMeter

end GuildSandbox
