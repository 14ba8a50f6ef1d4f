import GuildSandbox.Script.Builtin
import GuildSandbox.Script.Machine

/-!
Calling back functions that are values.

What hands an item to a function does not know how the function takes it: as its receiver, which it
may change, or as an argument, with or without the extras that may be left out. The number of its
parameters says so. A name alone has no parameters, so it is tried in one way after the other, and
whatever stops it comes out of that call.
-/

set_option autoImplicit false
set_option relaxedAutoImplicit false

namespace GuildSandbox.Script

structure Environment where
  limits : Limits
  capabilities : Capabilities
  functions : List FunctionDef
  /-- Runs a function on a receiver, the cells that it took along and arguments, and gives the receiver
  as it is afterwards. -/
  invoke : FunctionDef → Option Value → List Nat → List Value → Eval (Value × Option Value)
  /-- Calls what has a name, one level further in; a receiver makes it a method call. -/
  callBack : String → Option Value → List Value → Eval Reply

structure Handout where
  item : Value
  args : List Value := []
  /-- The number of arguments before the item where it is one of them. -/
  place : Nat := 0
  extras : List Value := []

namespace Handout

def withItem (h : Handout) : List Value := h.args.insertIdx h.place h.item

def ways (h : Handout) : List (Option Value × List Value) :=
  [(some h.item, h.args), (none, h.withItem), (none, h.withItem ++ h.extras),
   (some h.item, h.args ++ h.extras)]

end Handout

namespace Environment

variable (env : Environment)

/-- The function that a function value refers to. A name alone refers to none. -/
def referred? (name : String) (carried : List Carried) : Option FunctionDef :=
  if carried.contains .definition then env.functions.find? fun f => f.name = name else none

/-- Tries a name in one way, and in others while nothing is found that takes the arguments. -/
def tryWays (name : String) (call : Option Value × List Value → Eval (Value × Value)) :
    Option Value × List Value → List (Option Value × List Value) → Eval (Value × Value)
  | way, [] => call way
  | way, next :: others => Eval.ifMissing name (call way) (tryWays name call next others)

def handByName (name : String) (bound : List Value) (h : Handout) : Eval (Value × Value) :=
  let call (way : Option Value × List Value) : Eval (Value × Value) := do
    let reply ← env.callBack name way.1 (bound ++ way.2)
    return (reply.result, if way.1.isSome then reply.receiver.getD h.item else h.item)
  Eval.throughCall
    (tryWays name call (some h.item, h.args) [(none, h.withItem), (none, h.withItem ++ h.extras)])

/-- Calls a function value on an item. Gives the result, and the item as it is afterwards. -/
def hand (name : String) (carried : List Carried) (h : Handout) : Eval (Value × Value) := do
  let cells := Carried.cells carried
  let fitting := (env.referred? name carried).bind fun f =>
    (h.ways.find? fun way => cells.length + way.2.length = f.arity).map fun way => (f, way)
  match fitting with
  | some (f, receiver, args) =>
    let (result, after) ← env.invoke f receiver cells args
    return (result, after.getD h.item)
  | none => env.handByName name (← Eval.contents cells) h

def compare (name : String) (carried : List Carried) (a b : Value) : Eval Value := do
  let cells := Carried.cells carried
  match (env.referred? name carried).filter fun f => cells.length + 2 = f.arity with
  | some f => return (← env.invoke f none cells [a, b]).1
  | none => return (← env.callBack name none ((← Eval.contents cells) ++ [a, b])).result

end Environment

end GuildSandbox.Script
