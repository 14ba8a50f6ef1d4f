import GuildSandbox.Script.Callback

/-!
Functions of the library that call back.

Those that go over an array or a map call a function on the items one after the other, and halt when
it does. Those that put an array in order call it on pairs of items, and take a call that halts for one
that says nothing.
-/

set_option autoImplicit false
set_option relaxedAutoImplicit false

namespace GuildSandbox

def Value.isTrue : Value → Bool
  | .bool b => b
  | _ => false

namespace Script

/-- Hands items over one after the other, up to the first answer that stops. Gives the items as they
are afterwards, with the answers to them. -/
def Environment.handAll (hand : Handout → Eval (Value × Value)) (stops : Value → Bool) :
    List Handout → Eval (List (Value × Value))
  | [] => pure []
  | h :: rest => do
    let (answer, item) ← hand h
    if stops answer then return [(item, answer)]
    else return (item, answer) :: (← handAll hand stops rest)

/-- How a function goes over an array: which answers stop it, its result, and what is left of the
items that it handed over. -/
structure Sweep where
  stops : Value → Bool := fun _ => false
  result : List (Value × Value) → Value
  left : List (Value × Value) → List Value := List.map Prod.fst

/-- The items that are taken out of a container and those that are left in it, by whether the answer
to them is true. -/
structure Selection where
  takes : Bool → Bool
  leaves : Bool → Bool

namespace Selection

def ofName? : String → Option Selection
  | "filter" => some ⟨fun chosen => chosen, fun _ => true⟩
  | "drain" => some ⟨fun chosen => chosen, fun chosen => !chosen⟩
  | "retain" => some ⟨fun chosen => !chosen, fun chosen => chosen⟩
  | _ => none

def pick {α : Type} (which : Bool → Bool) (met : List (α × Value)) : List α :=
  (met.filter fun m => which m.2.isTrue).map Prod.fst

def sweep (s : Selection) : Sweep where
  result met := .array (pick s.takes met)
  left := pick s.leaves

end Selection

namespace Sweep

def found? (met : List (Value × Value)) : Option Value :=
  match met.getLast? with
  | some (item, .bool true) => some item
  | _ => none

def ofName? (name : String) : Option Sweep :=
  match name with
  | "for_each" => some { result := fun _ => .unit }
  | "map" => some { result := fun met => .array (met.map Prod.snd) }
  | "find" => some { stops := Value.isTrue, result := fun met => (found? met).getD .unit }
  | "find_map" =>
    some { stops := fun v => !Value.identical v .unit
           result := fun met => (met.getLast?.map Prod.snd).getD .unit }
  | "index_of" =>
    some { stops := Value.isTrue
           result := fun met => if (found? met).isSome then Builtin.size (met.length - 1) else .int (-1) }
  | "some" =>
    some { stops := Value.isTrue, result := fun met => .bool (met.any fun m => m.2.isTrue) }
  | "all" =>
    some { stops := fun v => !v.isTrue
           result := fun met => .bool (met.all fun m => m.2.isTrue) }
  | name => (Selection.ofName? name).map Selection.sweep

end Sweep

namespace Environment

def sweep (hand : Handout → Eval (Value × Value)) (s : Sweep) (items : List Value) : Eval Reply := do
  let met ← handAll hand s.stops
    (items.zipIdx.map fun (item, index) => { item := item, extras := [Builtin.size index] })
  return { result := s.result met, receiver := some (.array (s.left met ++ items.drop met.length)) }

def select (hand : Handout → Eval (Value × Value)) (s : Selection) (entries : List (String × Value)) :
    Eval Reply := do
  let met ← handAll hand (fun _ => false)
    (entries.map fun (key, v) => { item := v, args := [.str key], place := 1 })
  let answered := entries.zipWith (fun (key, _) (v, answer) => ((key, v), answer)) met
  return { result := .map (Selection.pick s.takes answered)
           receiver := some (.map (Selection.pick s.leaves answered)) }

/-- Combines numbered items with what they came to so far. Gives that and the items as they are
afterwards. -/
def reduce (hand : Handout → Eval (Value × Value)) (soFar : Value) :
    List (Value × Nat) → Eval (Value × List Value)
  | [] => pure (soFar, [])
  | (item, index) :: rest => do
    let (soFar, item) ←
      hand { item := item, args := [soFar], place := 1, extras := [Builtin.size index] }
    let (result, items) ← reduce hand soFar rest
    return (result, item :: items)

def reduceForward (hand : Handout → Eval (Value × Value)) (initial : Value) (items : List Value) :
    Eval Reply := do
  let (result, after) ← reduce hand initial items.zipIdx
  return { result := result, receiver := some (.array after) }

def reduceBackward (hand : Handout → Eval (Value × Value)) (initial : Value) (items : List Value) :
    Eval Reply := do
  let (result, after) ← reduce hand initial items.zipIdx.reverse
  return { result := result, receiver := some (.array after.reverse) }

/-- The first value goes before the second, if a comparison comes to a number that says so. -/
def precedes (compare : Value → Value → Eval Value) (a b : Value) : Eval Bool := do
  match ← Eval.discarding (compare a b) with
  | some (.int n) => return n < 0
  | _ => return false

def agree (compare : Value → Value → Eval Value) (a b : Value) : Eval Bool := do
  match ← Eval.discarding (compare a b) with
  | some v => return v.isTrue
  | none => return false

/-- Puts a value among others that are in order, the last one first: behind the first that it does not
precede. -/
def insert (compare : Value → Value → Eval Value) (v : Value) : List Value → Eval (List Value)
  | [] => pure [v]
  | w :: rest => do
    if ← precedes compare v w then return w :: (← insert compare v rest) else return v :: w :: rest

/-- Puts values in order; `sorted` holds those that are in order already, the last one first. -/
def sort (compare : Value → Value → Eval Value) : List Value → List Value → Eval (List Value)
  | sorted, [] => pure sorted.reverse
  | sorted, v :: rest => do sort compare (← insert compare v sorted) rest

def dedup (compare : Value → Value → Eval Value) (last : Value) : List Value → Eval (List Value)
  | [] => pure [last]
  | v :: rest => do
    if ← agree compare last v then dedup compare last rest
    else return last :: (← dedup compare v rest)

variable (env : Environment)

/-- What a function of the library does with its arguments, if there is one of that name that calls
back. -/
def library? (name : String) (args : List Value) : Option (Eval Reply) :=
  let changed (items : List Value) : Reply := { result := .unit, receiver := some (.array items) }
  match name, args with
  | "reduce", [.array items, .fn f carried] => some (reduceForward (env.hand f carried) .unit items)
  | "reduce", [.array items, .fn f carried, v] => some (reduceForward (env.hand f carried) v items)
  | "reduce_rev", [.array items, .fn f carried] =>
    some (reduceBackward (env.hand f carried) .unit items)
  | "reduce_rev", [.array items, .fn f carried, v] =>
    some (reduceBackward (env.hand f carried) v items)
  | "sort", [.array items, .fn f carried] => some (changed <$> sort (env.compare f carried) [] items)
  | "dedup", [.array [], .fn _ _] => some (pure (changed []))
  | "dedup", [.array (v :: rest), .fn f carried] =>
    some (changed <$> dedup (env.compare f carried) v rest)
  | name, [.array items, .fn f carried] =>
    (Sweep.ofName? name).map fun s => sweep (env.hand f carried) s items
  | name, [.map entries, .fn f carried] =>
    (Selection.ofName? name).map fun s => select (env.hand f carried) s entries
  | _, _ => none

end Environment

end Script

end GuildSandbox
