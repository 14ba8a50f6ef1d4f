import GuildSandbox.Run.Error

/-!
The account of one run: steps taken, time spent computing and waiting, and the first cancellation.

Clock readings are nanoseconds on a clock that never runs backwards. The time of a run is split
into idle time, which the host spends on the script's behalf, and execution time, which is the
rest. The first cancellation stands.
-/

set_option autoImplicit false
set_option relaxedAutoImplicit false

namespace GuildSandbox

def nanosPerMilli : Nat := 1000000

structure Budget where
  maxSteps : Nat := 100000
  maxExecution : Nat := 500 * nanosPerMilli
  maxTotal : Nat := 5000 * nanosPerMilli
  deriving DecidableEq, Repr, Inhabited

structure Account where
  budget : Budget
  totalSteps : Nat := 0
  start : Nat := 0
  /-- The start of the idle interval that is open. -/
  idleStart : Option Nat := none
  /-- The length of the idle intervals that are closed. -/
  idleClosed : Nat := 0
  cancelled : Option CancelReason := none
  /-- The reason that those who wait for a cancellation are told. -/
  signal : Option CancelReason := none
  deriving DecidableEq, Repr, Inhabited

/-- Holds an idle interval open. Only the guard that opened the interval closes it. -/
structure IdleGuard where
  owner : Bool
  deriving DecidableEq, Repr, Inhabited

namespace Account

def stepCeiling : Nat := 18446744073709551615

def new (budget : Budget) (now : Nat) : Account := { budget := budget, start := now }

def idleDuration (a : Account) (now : Nat) : Nat :=
  a.idleClosed + match a.idleStart with
    | some opened => now - opened
    | none => 0

def totalDuration (a : Account) (now : Nat) : Nat := now - a.start

def executionDuration (a : Account) (now : Nat) : Nat := a.totalDuration now - a.idleDuration now

def begin (a : Account) (now : Nat) : Account :=
  { a with start := now, idleStart := none, idleClosed := 0 }

def addSteps (a : Account) (n : Nat) : Account :=
  { a with totalSteps := min stepCeiling (a.totalSteps + n) }

/-- Records a cancellation without announcing it, and tells whether it is the first. -/
def record (a : Account) (reason : CancelReason) : Bool × Account :=
  match a.cancelled with
  | some _ => (false, a)
  | none => (true, { a with cancelled := some reason })

def announce (a : Account) (reason : CancelReason) : Account := { a with signal := some reason }

def cancel (a : Account) (reason : CancelReason) : Bool × Account :=
  match a.record reason with
  | (true, recorded) => (true, recorded.announce reason)
  | (false, recorded) => (false, recorded)

def exceeded (a : Account) (now : Nat) : Option CancelReason :=
  if a.budget.maxExecution ≤ a.executionDuration now then some .durationLimit
  else if a.budget.maxSteps ≤ a.totalSteps then some .stepLimit
  else none

/-- Counts steps and cancels when a limit is reached. Gives the reason of the cancellation, old or
new. -/
def onStep (a : Account) (n : Nat) (now : Nat) : Option CancelReason × Account :=
  let a := a.addSteps n
  match a.cancelled with
  | some reason => (some reason, a)
  | none => match a.exceeded now with
    | some reason => (some reason, (a.cancel reason).2)
    | none => (none, a)

def markIdle (a : Account) (now : Nat) : Account :=
  match a.idleStart with
  | some _ => a
  | none => { a with idleStart := some now }

def markActive (a : Account) (now : Nat) : Account :=
  match a.idleStart with
  | some opened => { a with idleStart := none, idleClosed := a.idleClosed + (now - opened) }
  | none => a

def enterIdle (a : Account) (now : Nat) : IdleGuard × Account :=
  ({ owner := a.idleStart.isNone }, a.markIdle now)

def leaveIdle (a : Account) (guard : IdleGuard) (now : Nat) : Account :=
  if guard.owner then a.markActive now else a

def isCancelled (a : Account) : Bool := a.cancelled.isSome

def ensureActive (a : Account) : Except RunError Unit :=
  match a.cancelled with
  | some reason => .error (.cancelled reason)
  | none => .ok ()

end Account

/-- An account together with the guards that are held on it, the oldest first. -/
structure GuardedAccount where
  account : Account
  guards : List IdleGuard := []
  deriving DecidableEq, Repr, Inhabited

namespace GuardedAccount

def enter (g : GuardedAccount) (now : Nat) : GuardedAccount :=
  let (guard, account) := g.account.enterIdle now
  { account := account, guards := g.guards ++ [guard] }

def leaveAt (g : GuardedAccount) (place : Nat) (now : Nat) : GuardedAccount :=
  match g.guards[place]? with
  | some guard =>
    { account := g.account.leaveIdle guard now, guards := g.guards.eraseIdx place }
  | none => g

def leave (g : GuardedAccount) (now : Nat) : GuardedAccount := g.leaveAt (g.guards.length - 1) now

end GuardedAccount

end GuildSandbox
