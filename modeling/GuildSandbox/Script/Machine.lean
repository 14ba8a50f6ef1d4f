import GuildSandbox.Capability.Surface
import GuildSandbox.Run.StepMeter
import GuildSandbox.Script.Interruption
import GuildSandbox.Script.Program
import GuildSandbox.Script.Size

/-!
What a running script works on.

A computation reads and changes the variables, the world of the host and the meter of the run. It
ends with a value or is halted: by an interruption, by a word that leaves a loop or a function, or
because the script is done. Whatever was changed before a halt stays changed. A failure of the host
is noted where it enters the script, and noted as overcome where the script goes on in spite of it.
-/

set_option autoImplicit false
set_option relaxedAutoImplicit false

namespace GuildSandbox.Script

structure Cell where
  value : Value
  isConstant : Bool := false

/-- A variable has its content to itself, or shares it with the functions that took it along. -/
inductive Slot where
  | own (content : Cell)
  | shared (cell : Nat)

structure Binding where
  name : String
  slot : Slot

structure HostFailure where
  error : RunError
  world : World

inductive Escape where
  /-- The failure stopped a comparison, which then says nothing. -/
  | comparison
  /-- A handler took the interruption. -/
  | handler (i : Interruption)

structure Overcome where
  failure : HostFailure
  escape : Escape

structure Machine where
  /-- The variables that can be seen, innermost first. -/
  scope : List Binding := []
  /-- The contents of shared variables, which outlive the variables. -/
  cells : List Cell := []
  world : World
  meter : StepMeter := {}
  /-- The failures of the host that the script is being stopped by. -/
  failures : List HostFailure := []
  overcome : List Overcome := []

structure Variable where
  content : Cell
  isShared : Bool

namespace Machine

def content (m : Machine) (cell : Nat) : Cell := m.cells.getD cell { value := .unit }

def variableAt (m : Machine) : Slot → Variable
  | .own c => ⟨c, false⟩
  | .shared cell => ⟨m.content cell, true⟩

def slot? (m : Machine) (name : String) : Option Slot :=
  (m.scope.find? fun b => b.name = name).map Binding.slot

def lookup? (m : Machine) (name : String) : Option Variable := (m.slot? name).map m.variableAt

def setSlot (name : String) (slot : Slot) : List Binding → List Binding
  | [] => []
  | b :: rest =>
    if b.name = name then { b with slot := slot } :: rest else b :: setSlot name slot rest

def assign (m : Machine) (name : String) (value : Value) : Machine :=
  match m.slot? name with
  | none => m
  | some (.own c) => { m with scope := setSlot name (.own { c with value := value }) m.scope }
  | some (.shared cell) =>
    { m with cells := m.cells.modify cell fun c => { c with value := value } }

/-- The cell of the innermost variable of a name, and the machine in which it has one. -/
def share (m : Machine) (name : String) : Option Nat × Machine :=
  match m.slot? name with
  | none => (none, m)
  | some (.shared cell) => (some cell, m)
  | some (.own c) =>
    (some m.cells.length,
      { m with scope := setSlot name (.shared m.cells.length) m.scope, cells := m.cells ++ [c] })

def recovered (m : Machine) (escape : Escape) : Machine :=
  { m with failures := [], overcome := (m.failures.map fun f => ⟨f, escape⟩) ++ m.overcome }

end Machine

inductive Halt where
  | interrupted (i : Interruption)
  /-- Leaves a loop, which then has a value. -/
  | broke (v : Value)
  /-- Goes on with the next item of a loop. -/
  | continued
  | returned (v : Value)
  /-- The script ends here. -/
  | exited

abbrev Eval := ExceptT Halt (StateM Machine)

namespace Eval

def runOn {α : Type} (e : Eval α) (m : Machine) : Except Halt α × Machine := (ExceptT.run e).run m

def interrupt {α : Type} (i : Interruption) : Eval α := throw (Halt.interrupted i)

def fault {α : Type} (f : Fault) : Eval α := interrupt (.fault f)

def ofFault {α : Type} : Except Fault α → Eval α
  | .ok a => pure a
  | .error f => fault f

def ofHost {α : Type} : Except RunError α → Eval α
  | .ok a => pure a
  | .error e => do
    modify fun m => { m with failures := ⟨e, m.world⟩ :: m.failures }
    interrupt (.ofRunError e)

def host {α : Type} (action : Host α) : Eval α := do
  let m ← getThe Machine
  let (result, world) := action.run m.world
  set { m with world := world }
  ofHost result

def operationNanos : Nat := 100

def tick : Eval Unit := do
  let m ← getThe Machine
  let world := m.world.elapse operationNanos
  let (reason, meter, account) := m.meter.onOperation (m.meter.seen + 1) world.account world.clock
  set { m with world := { world with account := account }, meter := meter }
  match reason with
  | some _ => fault .terminated
  | none => pure ()

def sized (limits : Limits) (v : Value) : Eval Value := ofFault (limits.accept v)

def lookup? (name : String) : Eval (Option Variable) := do return (← getThe Machine).lookup? name

def bind (name : String) (value : Value) (isConstant : Bool) : Eval Unit :=
  modify fun m => { m with scope := ⟨name, .own ⟨value, isConstant⟩⟩ :: m.scope }

def assign (name : String) (value : Value) : Eval Unit := modify fun m => m.assign name value

/-- The cell of the innermost variable of a name, which is a shared one from now on. -/
def share? (name : String) : Eval (Option Nat) := do
  let (cell, m) := (← getThe Machine).share name
  set m
  return cell

def cellsOf : List String → Eval (List Nat)
  | [] => pure []
  | name :: rest => do
    match ← share? name with
    | some cell => return cell :: (← cellsOf rest)
    | none => fault (.variableNotFound name)

def contents (cells : List Nat) : Eval (List Value) := do
  let m ← getThe Machine
  return cells.map fun cell => (m.content cell).value

def enclosed {α : Type} (e : Eval α) : Eval α := fun m =>
  let before := m.scope.length
  let (result, m) := e.runOn m
  (result, { m with scope := m.scope.drop (m.scope.length - before) })

def leave : Except Halt Value → Except Halt Value
  | .error (.returned v) => .ok v
  | .error (.interrupted i) => .error (.interrupted i.leaveFunction)
  | ended => ended

/-- A body that sees these variables alone, as that of a function does. Gives the receiver as the body
leaves it behind. -/
def asFunction (scope : List Binding) (body : Eval Value) : Eval (Value × Option Value) := fun m =>
  let (ended, after) := body.runOn { m with scope := scope }
  ((leave ended).map fun v => (v, (after.lookup? "this").map fun x => x.content.value),
    { after with scope := m.scope })

def truth (v : Value) : Eval Bool :=
  match v with
  | .bool b => pure b
  | v => fault (.typeMismatch "bool" v.scriptTypeName)

/-- What a handler sees of an interruption: the value that was thrown, or a map with the message. -/
def caughtValue (i : Interruption) : Value :=
  match i.core with
  | .fault (.thrown v) => v
  | core => .map [("message", .str core.message)]

/-- The halt of a handler that throws nothing of its own is that of what it handles. -/
def rethrown (caught : Interruption) : Halt → Halt
  | .interrupted (.fault (.thrown .unit)) => .interrupted caught
  | h => h

/-- Runs a body; what it can be stopped by and can be caught goes to the handler. -/
def attempt (body : Eval Unit) (handler : Value → Eval Unit) : Eval Unit := fun m =>
  match body.runOn m with
  | (.error (.interrupted i), m) =>
    if i.isCatchable then
      match (handler (caughtValue i)).runOn (m.recovered (.handler i)) with
      | (.error h, m) => (.error (rethrown i h), m)
      | (.ok (), m) => (.ok (), m)
    else (.error (.interrupted i), m)
  | other => other

def discarding {α : Type} (e : Eval α) : Eval (Option α) := fun m =>
  match e.runOn m with
  | (.ok a, m) => (.ok (some a), m)
  | (.error _, m) => (.ok none, m.recovered .comparison)

/-- The halt says that there is no function of the name for what it was called with. -/
def isMissing (name : String) : Halt → Bool
  | .interrupted (.fault (.functionNotFound signature)) => name.toList.isPrefixOf signature.toList
  | _ => false

/-- A call by name, with another one for the case that nothing is found for it. -/
def ifMissing {α : Type} (name : String) (e next : Eval α) : Eval α := fun m =>
  match e.runOn m with
  | (.error h, m) => if isMissing name h then next.runOn m else (.error h, m)
  | other => other

/-- A computation whose interruptions come out of a call, those by the host too. -/
def throughCall {α : Type} (e : Eval α) : Eval α := fun m =>
  match e.runOn m with
  | (.error (.interrupted i), m) => (.error (.interrupted (.inFunction i)), m)
  | other => other

/-- Runs the body of a loop for every item, numbered from `index` on; the loop has the value that it
is left with. -/
def eachItem (body : Nat → Value → Eval Unit) : Nat → List Value → Eval Value
  | _, [] => pure .unit
  | index, v :: rest => fun m =>
    match (body index v).runOn m with
    | (.ok (), m) => eachItem body (index + 1) rest m
    | (.error .continued, m) => eachItem body (index + 1) rest m
    | (.error (.broke v), m) => (.ok v, m)
    | (.error h, m) => (.error h, m)

def eachInteger (body : Nat → Value → Eval Unit) : Nat → Nat → Int → Eval Value
  | 0, _, _ => pure .unit
  | count + 1, index, low => fun m =>
    match (body index (.int (Int64.ofInt low))).runOn m with
    | (.ok (), m) => eachInteger body count (index + 1) (low + 1) m
    | (.error .continued, m) => eachInteger body count (index + 1) (low + 1) m
    | (.error (.broke v), m) => (.ok v, m)
    | (.error h, m) => (.error h, m)

def each (source : Value) (body : Nat → Value → Eval Unit) : Eval Value :=
  match source with
  | .array items => eachItem body 0 items
  | .str s => eachItem body 0 (s.toList.map .char)
  | .range low high inclusive =>
    let stop := if inclusive then high.toInt + 1 else high.toInt
    eachInteger body (stop - low.toInt).toNat 0 low.toInt
  | _ => fault .notIterable

end Eval

end GuildSandbox.Script
