import GuildSandbox.Capability.Surface

set_option autoImplicit false
set_option relaxedAutoImplicit false

namespace GuildSandbox

inductive RunEvent where
  /-- The script calls a method. -/
  | call (view : View) (name : String) (args : List Value)
  /-- Somebody cancels the run. -/
  | cancel (reason : CancelReason)
  /-- The interpreter counts steps. -/
  | steps (n : Nat)
  /-- Time passes. -/
  | elapse (nanos : Nat)
  /-- The state of the guilds changes. -/
  | cache (change : Cache → Cache)

namespace World

/-- The world after an event. A method that does not exist reaches no host. -/
def step (inv : Invocation) (w : World) : RunEvent → World
  | .call view name args => match view.method? name args with
    | some c => ((c.perform inv).run w).2
    | none => w
  | .cancel reason => w.cancel reason
  | .steps n => { w with account := (w.account.onStep n w.clock).2 }
  | .elapse nanos => w.elapse nanos
  | .cache change => { w with cache := change w.cache }

def after (inv : Invocation) (w : World) (events : List RunEvent) : World :=
  events.foldl (step inv) w

theorem after_append (inv : Invocation) (w : World) (before later : List RunEvent) :
    w.after inv (before ++ later) = (w.after inv before).after inv later :=
  List.foldl_append

end World

end GuildSandbox
