import GuildSandbox.Host.Cache
import GuildSandbox.Host.RestCall
import GuildSandbox.Run.Account
import GuildSandbox.Store.Basic

/-!
The host of a run: its clock, the account of the run, and the collaborators that scripts reach.

Time passes only through `World.elapse`. A run that is dispatched has a deadline; once the clock
reaches it, the account is cancelled.
-/

set_option autoImplicit false
set_option relaxedAutoImplicit false

namespace GuildSandbox

inductive Mode where
  /-- It does what it is asked. -/
  | pass
  /-- Every call fails, with a chain of messages, the outermost first. -/
  | fail (messages : List String)
  /-- Every call first cancels the account of the run. -/
  | cancel (reason : CancelReason)
  /-- Every call first blocks for a number of nanoseconds. -/
  | block (nanos : Nat)
  deriving DecidableEq, Repr, Inhabited

/-- The calls that reached the service, in order, and how the service answers. -/
structure RestLog where
  calls : List RestCall := []
  /-- The number of messages that the service has made up. -/
  messagesMade : Nat := 0
  /-- The nanoseconds that pass before a call arrives. -/
  delay : Nat := 0
  /-- The failure of every call, after it has arrived. -/
  failure : Option String := none
  deriving DecidableEq

structure World where
  /-- Nanoseconds on a clock that never runs backwards. -/
  clock : Nat := 0
  /-- The instant at which the clock read zero. -/
  epoch : Time.Instant
  account : Account
  /-- The clock reading at which the whole run is cancelled. -/
  deadline : Option Nat := none
  cache : Cache := {}
  cacheMode : Mode := .pass
  store : Store := .memory {}
  storeMode : Mode := .pass
  rest : RestLog := {}
  /-- The interaction has been answered. -/
  responded : Bool := false

abbrev Host := ExceptT RunError (StateM World)

namespace World

def cancelGrace : Nat := 50 * nanosPerMilli

def now (w : World) : Time.Instant := w.epoch.addNanos w.clock

def cancel (w : World) (reason : CancelReason) : World :=
  { w with account := (w.account.cancel reason).2 }

def reachesDeadline (w : World) (nanos : Nat) : Bool :=
  match w.deadline with
  | some t => t ≤ w.clock + nanos
  | none => false

def stopTime (w : World) : Nat := max w.clock (w.deadline.getD w.clock)

def elapse (w : World) (nanos : Nat) : World :=
  let later := { w with clock := w.clock + nanos }
  if w.reachesDeadline nanos then later.cancel .totalDurationLimit else later

def elapseToDeadline (w : World) (longer : Nat) : World :=
  w.elapse (w.stopTime + longer - w.clock)

/-- A thread that blocks for `nanos` nanoseconds outstays the deadline and is given up. -/
def outstays (w : World) (nanos : Nat) : Bool :=
  match w.deadline with
  | some t => t + cancelGrace < w.clock + nanos
  | none => false

end World

namespace Host

def run {α : Type} (action : Host α) (w : World) : Except RunError α × World :=
  (ExceptT.run action).run w

def ensureActive : Host Unit := do ofExcept (← getThe World).account.ensureActive

/-- Lets a thread block. One that is given up never gets to what it was going to do. -/
def block (nanos : Nat) : Host Unit := do
  let w ← getThe World
  if w.outstays nanos then
    set (w.elapseToDeadline World.cancelGrace)
    throw (.cancelled .totalDurationLimit)
  else set (w.elapse nanos)

/-- Contacts a collaborator; `failure` tells what a chain of messages amounts to. -/
def contact (mode : Mode) (failure : List String → RunError) : Host Unit :=
  match mode with
  | .pass => pure ()
  | .fail messages => throw (failure messages)
  | .cancel reason => modify fun w => w.cancel reason
  | .block nanos => block nanos

def lookup {α : Type} (query : Cache → α) : Host α := do
  contact (← getThe World).cacheMode fun messages => .host (RunError.chain messages)
  return query (← getThe World).cache

def onStore {α : Type} (action : StoreAction α) : Host α := do
  contact (← getThe World).storeMode fun messages => .store (.backend (RunError.chain messages))
  let w ← getThe World
  let (result, store) := w.store.run w.now action
  set { w with store := store }
  ofExcept (result.mapError .store)

def record (call : RestCall) : Host Unit := do
  let w ← getThe World
  set { w with rest := { w.rest with calls := w.rest.calls ++ [call] } }
  match w.rest.failure with
  | some message => throw (.host message)
  | none => pure ()

def makeMessage (data : ResponseData) : Host Message := do
  let w ← getThe World
  let number := w.rest.messagesMade + 1
  set { w with rest := { w.rest with messagesMade := number } }
  return {
    id := "recorded-" ++ toString number
    author := { id := "0", username := "guild-scripts", bot := true }
    content := data.content.getD ""
    embeds := data.embeds }

end Host

end GuildSandbox
