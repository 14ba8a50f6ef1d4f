import GuildSandbox.Script.Library

set_option autoImplicit false
set_option relaxedAutoImplicit false

namespace GuildSandbox.Script

inductive Step where
  | property (name : String)
  | method (name : String) (args : List Value)
  | index (position : Value)
  | optional

/-- A new value for a place: an operand, combined with the old value where there is an operator. -/
structure Assignment where
  op : Option BinaryOp
  operand : Value

namespace Assignment

def result (a : Assignment) (old : Value) : Except Fault Value :=
  match a.op with
  | some op => op.update old a.operand
  | none => .ok a.operand

end Assignment

/-- The place of an index in something of a size; negative indices count from the end. -/
def position? (size : Nat) (index : Int) : Option Nat :=
  let place := if index < 0 then index + size else index
  if 0 ≤ place ∧ place < size then some place.toNat else none

structure Item where
  value : Value
  put : Value → Except Fault Value

namespace Item

def ofArray (items : List Value) (index : Int) : Except Fault Item :=
  match position? items.length index with
  | some place =>
    .ok { value := items.getD place .unit, put := fun v => .ok (.array (items.set place v)) }
  | none => .error (.arrayIndex items.length index)

def ofText (s : String) (index : Int) : Except Fault Item :=
  match position? s.length index with
  | some place =>
    .ok { value := .char (s.toList.getD place ' ')
          put := fun v => match v with
            | .char c => .ok (.str (String.ofList (s.toList.set place c)))
            | v => .error (.typeMismatch "char" v.scriptTypeName) }
  | none => .error (.stringIndex s.length index)

def ofBits (n : Int64) (index : Int) : Except Fault Item :=
  match position? 64 index with
  | some place =>
    let mask : UInt64 := (1 : UInt64) <<< UInt64.ofNat place
    let word := n.toUInt64
    .ok { value := .bool (word &&& mask != 0)
          put := fun v => match v with
            | .bool b =>
              .ok (.int (if b then word ||| mask else word &&& ~~~mask).toInt64)
            | v => .error (.typeMismatch "bool" v.scriptTypeName) }
  | none => .error (.bitIndex index)

def ofMap (entries : List (String × Value)) (key : String) : Item :=
  { value := (Dict.find? key entries).getD .unit
    put := fun v => .ok (.map (Dict.insert key v entries)) }

def at? (v index : Value) : Except Fault Item :=
  match v, index with
  | .array items, .int n => ofArray items n.toInt
  | .str s, .int n => ofText s n.toInt
  | .int word, .int n => ofBits word n.toInt
  | .map entries, .str key => .ok (ofMap entries key)
  | .array _, i | .str _, i | .int _, i => .error (.typeMismatch "i64" i.scriptTypeName)
  | .map _, i => .error (.typeMismatch "string" i.scriptTypeName)
  | v, i => .error (.noIndexer (v.scriptTypeName ++ " [" ++ i.scriptTypeName ++ "]"))

def isPresent (v index : Value) : Bool :=
  match v, index with
  | .map entries, .str key => Dict.contains key entries
  | _, _ => true

end Item

namespace Environment

variable (env : Environment)

/-- A function of the library on its arguments, if there is one of that name for them. -/
def standard? (name : String) (args : List Value) : Option (Eval Reply) :=
  match env.library? name args with
  | some action => some action
  | none => (Builtin.call? name args).map Eval.ofFault

/-- A call of a function that the script does not define. What it gives back must not be too
large. -/
def callNative (isConstant : Bool) (name : String) (args : List Value) : Eval Reply := do
  match env.standard? name args with
  | some action =>
    if isConstant && Builtin.isMutator name then Eval.fault (.methodOnConstant name)
    let reply ← action
    if let some receiver := reply.receiver then let _ ← Eval.sized env.limits receiver
    let _ ← Eval.sized env.limits reply.result
    return reply
  | none => match env.capabilities.function? name args with
    | some action =>
      let result ← Eval.host action
      return { result := ← Eval.sized env.limits result }
    | none => Eval.fault (notFound name args)

def callNamed (isConstant : Bool) (name : String) (args : List Value) : Eval Reply := do
  match Program.function? env.functions name args.length with
  | some f => return { result := (← env.invoke f none [] args).1 }
  | none => env.callNative isConstant name args

def callValue (name : String) (carried : List Carried) (args : List Value) : Eval Reply := do
  let cells := Carried.cells carried
  match Program.function? env.functions name (cells.length + args.length) with
  | some f => return { result := (← env.invoke f none cells args).1 }
  | none => env.callNative false name ((← Eval.contents cells) ++ args)

/-- A call as it stands in a script. The script may leave here, or call a function value, held by a
variable or given as an argument. -/
def call (isConstant : Bool) (name : String) (args : List Value) : Eval Reply := do
  match Program.function? env.functions name args.length, name, args with
  | some f, _, _ => return { result := (← env.invoke f none [] args).1 }
  | none, "exit", [] | none, "exit", [_] => throw Halt.exited
  | none, "call", .fn target carried :: rest => env.callValue target carried rest
  | none, name, args => match ← Eval.lookup? name with
    | some { content := { value := .fn target carried, .. }, .. } => env.callValue target carried args
    | _ => env.callNative isConstant name args

/-- A method call by name. A function of the script runs on the receiver, and may change it. -/
def callMethodNamed (isConstant : Bool) (name : String) (receiver : Value) (args : List Value) :
    Eval Reply := do
  match Program.function? env.functions name args.length with
  | some f =>
    let (result, receiver) ← env.invoke f (some receiver) [] args
    return { result := result, receiver := receiver }
  | none => env.callNative isConstant name (receiver :: args)

def callMethod (isConstant : Bool) (name : String) (receiver : Value) (args : List Value) :
    Eval Reply :=
  match name, receiver with
  | "call", .fn target carried => env.callValue target carried args
  | name, receiver => env.callMethodNamed isConstant name receiver args

def property (v : Value) (name : String) : Eval Value :=
  match v, name with
  | .view w, name => match env.capabilities.property? w name with
    | some action => Eval.host action
    | none => Eval.fault (.unknownProperty name v.scriptTypeName)
  | .str s, "len" => pure (Builtin.size s.length)
  | .array items, "len" => pure (Builtin.size items.length)
  | v, name => Eval.fault (.unknownProperty name v.scriptTypeName)

/-- Goes along a chain from a value. Gives what lies at its end, and the value as it is
afterwards. -/
def follow (isConstant : Bool) : List Step → Value → Eval (Value × Value)
  | [], v => pure (v, v)
  | .property name :: rest, v => do
    Eval.tick
    match v with
    | .map entries =>
      let item := Item.ofMap entries name
      let (result, inner) ← follow isConstant rest item.value
      return (result, if Dict.contains name entries then .map (Dict.insert name inner entries) else v)
    | v =>
      let (result, _) ← follow false rest (← env.property v name)
      return (result, v)
  | .index position :: rest, v => do
    Eval.tick
    let item ← Eval.ofFault (Item.at? v position)
    let (result, inner) ← follow isConstant rest item.value
    if !rest.isEmpty && Item.isPresent v position then
      return (result, ← Eval.ofFault (item.put inner))
    else return (result, v)
  | .method name args :: rest, v => do
    Eval.tick
    let reply ← env.callMethod isConstant name v args
    let (result, _) ← follow false rest reply.result
    return (result, reply.receiver.getD v)
  | .optional :: _, .unit => pure (.unit, .unit)
  | .optional :: rest, v => follow isConstant rest v

/-- Gives the place at the end of a chain a new value. Gives the value that the chain began with as
it is afterwards. -/
def store (a : Assignment) : List Step → Value → Eval Value
  | [], v => Eval.ofFault (a.result v)
  | [.property name], v => do
    match v with
    | .map entries =>
      let item := Item.ofMap entries name
      Eval.ofFault (a.result item.value >>= item.put)
    | v =>
      let new ← match a.op with
        | some _ => Eval.ofFault (a.result (← env.property v name))
        | none => pure a.operand
      Eval.fault (.unknownSetter name v.scriptTypeName new.scriptTypeName)
  | [.index position], v => do
    let item ← Eval.ofFault (Item.at? v position)
    Eval.ofFault (a.result item.value >>= item.put)
  | .property name :: rest, v => do
    Eval.tick
    match v with
    | .map entries =>
      let item := Item.ofMap entries name
      let inner ← store a rest item.value
      Eval.ofFault (item.put inner)
    | v =>
      let _ ← store a rest (← env.property v name)
      return v
  | .index position :: rest, v => do
    Eval.tick
    let item ← Eval.ofFault (Item.at? v position)
    let inner ← store a rest item.value
    Eval.ofFault (item.put inner)
  | .method _ _ :: _, v => pure v
  | .optional :: _, .unit => pure .unit
  | .optional :: rest, v => store a rest v

end Environment

end GuildSandbox.Script
