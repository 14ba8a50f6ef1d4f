import GuildSandbox.Script.Place

/-!
Evaluating scripts.

The meaning of an expression or statement is a computation built from those of its parts, by
recursion on the tree. Calls of functions go through the environment, which allows one level less
inside every call. The arguments of a chain are evaluated before its root, and the operand of an
assignment before its target.
-/

set_option autoImplicit false
set_option relaxedAutoImplicit false

namespace GuildSandbox.Script

namespace Environment

variable (env : Environment)

def valueOf (name : String) : Eval Value := do
  match ← Eval.lookup? name with
  | some x => return x.content.value
  | none =>
    if name = "this" then Eval.fault .unboundThis
    else if env.functions.any (fun f => f.name = name) then return .fn name [.definition]
    else Eval.fault (.variableNotFound name)

/-- A chain that begins with a variable, which sees what becomes of its value. -/
def followVariable (name : String) (steps : List Step) : Eval Value := do
  let v ← env.valueOf name
  let isConstant := (← Eval.lookup? name).any fun x => x.content.isConstant
  let (result, after) ← env.follow isConstant steps v
  Eval.assign name after
  return result

def assignVariable (name : String) (steps : List Step) (a : Assignment) : Eval Unit := do
  let v ← env.valueOf name
  if (← Eval.lookup? name).any fun x => x.content.isConstant then Eval.fault (.constant name)
  else Eval.assign name (← Eval.sized env.limits (← env.store a steps v))

/-- A call whose first argument is a variable, which sees what becomes of its value. Constants and
shared variables are copied. -/
def callOnVariable (name first : String) (args : List Value) : Eval Value := do
  let isCopied := (← Eval.lookup? first).any fun x => x.isShared || x.content.isConstant
  let reply ← env.call false name args
  if let some v := reply.receiver then
    if !isCopied then Eval.assign first v
  return reply.result

end Environment

namespace Pattern

def isExactly (v : Value) : Pattern → Bool
  | .value w => Value.identical w v
  | .integers low stop => match v with
    | .int n => low ≤ n.toInt && n.toInt < stop
    | _ => false
  | .span _ _ _ => false

def spans (v : Value) : Pattern → Bool
  | .span low high inclusive => match v with
    | .int n => low ≤ n.toInt && (n.toInt < high || (inclusive && n.toInt = high))
    | .float f =>
      let high := Number.Binary64.ofInt high
      Number.Binary64.ofInt low ≤ f && (f < high || (inclusive && f == high))
    | _ => false
  | _ => false

end Pattern

mutual

def Expr.eval (env : Environment) : Expr → Eval Value
  | .literal v => do
    Eval.tick
    return v
  | .variable name => do
    Eval.tick
    env.valueOf name
  | .template parts => do
    Eval.tick
    return .str (← Expr.evalTemplate env "" parts)
  | .array items => do
    Eval.tick
    Eval.sized env.limits (.array (← Expr.evalAll env items))
  | .map entries => do
    Eval.tick
    Eval.sized env.limits (.map (Dict.ofPairs (← MapEntry.evalAll env entries)))
  | .call name args => do
    Eval.tick
    let values ← Expr.evalAll env args
    match args with
    | .variable first :: _ => env.callOnVariable name first values
    | _ => return (← env.call false name values).result
  | .chain root links => do
    Eval.tick
    let steps ← Link.evalAll env links
    match root with
    | .variable name => env.followVariable name steps
    | root =>
      let v ← Expr.eval env root
      return (← env.follow false steps v).1
  | .unary op operand => do
    Eval.tick
    let v ← Expr.eval env operand
    Eval.ofFault (op.apply v)
  | .binary op left right => do
    Eval.tick
    let a ← Expr.eval env left
    let b ← Expr.eval env right
    Eval.sized env.limits (← Eval.ofFault (op.apply a b))
  | .both left right => do
    Eval.tick
    if ← Eval.truth (← Expr.eval env left) then
      return .bool (← Eval.truth (← Expr.eval env right))
    else return .bool false
  | .either left right => do
    Eval.tick
    if ← Eval.truth (← Expr.eval env left) then return .bool true
    else return .bool (← Eval.truth (← Expr.eval env right))
  | .orElse left right => do
    Eval.tick
    match ← Expr.eval env left with
    | .unit => Expr.eval env right
    | v => return v
  | .lambda name captured => do
    Eval.tick
    return .fn name (.definition :: (← Eval.cellsOf captured).map Carried.cell)
  | .imported path _ => Eval.fault (.functionNotFound ("::".intercalate path))
  | .statement s => Stmt.run env s

def Expr.evalAll (env : Environment) : List Expr → Eval (List Value)
  | [] => pure []
  | e :: rest => do
    let v ← Expr.eval env e
    return v :: (← Expr.evalAll env rest)

def Expr.evalTemplate (env : Environment) (text : String) : List Expr → Eval String
  | [] => pure text
  | e :: rest => do
    let text := text ++ (← Expr.eval env e).display
    let _ ← Eval.sized env.limits (.str text)
    Expr.evalTemplate env text rest

def MapEntry.evalAll (env : Environment) : List MapEntry → Eval (List (String × Value))
  | [] => pure []
  | .mk key e :: rest => do
    let v ← Expr.eval env e
    return (key, v) :: (← MapEntry.evalAll env rest)

def Link.evalAll (env : Environment) : List Link → Eval (List Step)
  | [] => pure []
  | .property name :: rest => do return .property name :: (← Link.evalAll env rest)
  | .method name args :: rest => do
    let values ← Expr.evalAll env args
    return .method name values :: (← Link.evalAll env rest)
  | .index e :: rest => do
    let v ← Expr.eval env e
    return .index v :: (← Link.evalAll env rest)
  | .optional :: rest => do return .optional :: (← Link.evalAll env rest)

def Stmt.run (env : Environment) : Stmt → Eval Value
  | .noop => pure .unit
  | .eval e => do
    Eval.tick
    Expr.eval env e
  | .declare name isConstant e => do
    Eval.tick
    let v ← Expr.eval env e
    Eval.bind name v isConstant
    return .unit
  | .assign name links op e => do
    Eval.tick
    let operand ← Expr.eval env e
    let steps ← Link.evalAll env links
    env.assignVariable name steps ⟨op, operand⟩
    return .unit
  | .choose condition onTrue onFalse => do
    Eval.tick
    if ← Eval.truth (← Expr.eval env condition) then Eval.enclosed (Stmt.runAll env onTrue)
    else Eval.enclosed (Stmt.runAll env onFalse)
  | .switch subject cases fallback => do
    Eval.tick
    let v ← Expr.eval env subject
    match ← Case.select env (Pattern.isExactly v) cases with
    | some result => return result
    | none => match ← Case.select env (Pattern.spans v) cases with
      | some result => return result
      | none => Eval.enclosed (Stmt.run env fallback)
  | .forEach item counter source body => do
    Eval.tick
    let v ← Expr.eval env source
    Eval.enclosed do
      if let some name := counter then Eval.bind name .unit false
      Eval.bind item .unit false
      Eval.each v fun index v => Eval.enclosed do
        Eval.tick
        if let some name := counter then Eval.assign name (Builtin.size index)
        Eval.assign item v
        let _ ← Stmt.runAll env body
  | .block body => do
    Eval.tick
    Eval.enclosed (Stmt.runAll env body)
  | .breakWith e => do
    Eval.tick
    throw (Halt.broke (← Expr.eval env e))
  | .continueLoop => do
    Eval.tick
    throw Halt.continued
  | .returnWith e => do
    Eval.tick
    throw (Halt.returned (← Expr.eval env e))
  | .throwWith e => do
    Eval.tick
    Eval.fault (.thrown (← Expr.eval env e))
  | .attempt body caught handler => do
    Eval.tick
    Eval.attempt (do let _ ← Eval.enclosed (Stmt.runAll env body)) fun v => Eval.enclosed do
      if let some name := caught then Eval.bind name v false
      let _ ← Stmt.runAll env handler
    return .unit
  | .importModule _ _ => do
    Eval.interrupt (.ofRunError (.moduleLoading ""))

def Stmt.runAll (env : Environment) : List Stmt → Eval Value
  | [] => pure .unit
  | [s] => Stmt.run env s
  | s :: rest => do
    let _ ← Stmt.run env s
    Stmt.runAll env rest

/-- The value of the first case with a pattern of a kind and a guard that holds. -/
def Case.select (env : Environment) (isMatch : Pattern → Bool) :
    List Case → Eval (Option Value)
  | [] => pure none
  | .mk patterns guard action :: rest => do
    if patterns.any isMatch then
      if ← Eval.truth (← Expr.eval env guard) then
        return some (← Eval.enclosed (Stmt.run env action))
      else Case.select env isMatch rest
    else Case.select env isMatch rest

end

def FunctionDef.scope (f : FunctionDef) (receiver : Option Value) (cells : List Nat)
    (args : List Value) : List Binding :=
  let slots := cells.map Slot.shared ++ args.map fun v => .own { value := v }
  let params := (f.params.zip slots).map fun (name, slot) => (⟨name, slot⟩ : Binding)
  params.reverse ++ (receiver.map fun v => (⟨"this", .own { value := v }⟩ : Binding)).toList

def FunctionDef.run (env : Environment) (f : FunctionDef) (receiver : Option Value)
    (cells : List Nat) (args : List Value) : Eval (Value × Option Value) := do
  Eval.tick
  Eval.asFunction (f.scope receiver cells args) (Stmt.runAll env f.body)

def Program.environmentAt (p : Program) (limits : Limits) (capabilities : Capabilities) :
    Nat → Environment
  | 0 =>
    { limits := limits, capabilities := capabilities, functions := p.functions
      invoke := fun _ _ _ _ => Eval.fault .stackOverflow
      callBack := fun _ _ _ => Eval.fault .stackOverflow }
  | levels + 1 =>
    let inner := p.environmentAt limits capabilities levels
    { limits := limits, capabilities := capabilities, functions := p.functions
      invoke := FunctionDef.run inner
      callBack := fun name receiver args => match receiver with
        | some v => inner.callMethodNamed false name v args
        | none => inner.callNamed false name args }

def Program.environment (p : Program) (limits : Limits) (capabilities : Capabilities) :
    Environment :=
  p.environmentAt limits capabilities limits.maxCallLevels

def Program.run (p : Program) (limits : Limits) (capabilities : Capabilities) (m : Machine) :
    Except Interruption Unit × Machine :=
  match (Stmt.runAll (p.environment limits capabilities) p.body).runOn m with
  | (.error (.interrupted i), m) => (.error i, m)
  | (_, m) => (.ok (), m)

end GuildSandbox.Script
