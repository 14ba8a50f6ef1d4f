import GuildSandbox.Script.Operator

set_option autoImplicit false
set_option relaxedAutoImplicit false

namespace GuildSandbox.Script

mutual

def Expr.isPure : Expr → Bool
  | .literal _ | .variable _ => true
  | .template parts => Expr.arePure parts
  | .array items => Expr.arePure items
  | .map entries => MapEntry.arePure entries
  | .both a b => a.isPure && b.isPure
  | .either a b => a.isPure && b.isPure
  | .orElse a b => a.isPure && b.isPure
  | .lambda _ captured => captured.isEmpty
  | .statement s => s.isPure
  | .call _ _ | .chain _ _ | .unary _ _ | .binary _ _ _ | .imported _ _ => false

def Expr.arePure : List Expr → Bool
  | [] => true
  | e :: rest => e.isPure && Expr.arePure rest

def MapEntry.arePure : List MapEntry → Bool
  | [] => true
  | .mk _ e :: rest => e.isPure && MapEntry.arePure rest

def Stmt.isPure : Stmt → Bool
  | .noop => true
  | .eval e => e.isPure
  | .choose c onTrue onFalse => c.isPure && Stmt.arePure onTrue && Stmt.arePure onFalse
  | .switch subject cases fallback => subject.isPure && Case.arePure cases && fallback.isPure
  | .forEach _ _ source body => source.isPure && Stmt.arePure body
  | .block body => Stmt.arePure body
  | .attempt body _ handler => Stmt.arePure body && Stmt.arePure handler
  | .declare _ _ _ | .assign _ _ _ _ | .breakWith _ | .continueLoop | .returnWith _
  | .throwWith _ | .importModule _ _ => false

def Stmt.arePure : List Stmt → Bool
  | [] => true
  | s :: rest => s.isPure && Stmt.arePure rest

def Case.arePure : List Case → Bool
  | [] => true
  | .mk _ guard action :: rest => guard.isPure && action.isPure && Case.arePure rest

end

namespace Stmt

def isDeclaration : Stmt → Bool
  | .declare _ _ _ | .importModule _ _ => true
  | _ => false

def leaves : Stmt → Bool
  | .breakWith _ | .continueLoop | .returnWith _ | .throwWith _ => true
  | _ => false

def hasValue : Stmt → Bool
  | .eval _ | .choose _ _ _ | .switch _ _ _ | .forEach _ _ _ _ | .block _ => true
  | _ => false

/-- The statements of a block that declares nothing, or the statement itself. -/
def opened : Stmt → List Stmt
  | .block body => if body.any isDeclaration then [.block body] else body
  | s => [s]

def reached : List Stmt → List Stmt
  | [] => []
  | s :: rest => if s.leaves then [s] else s :: reached rest

def keepLast : List Stmt → List Stmt
  | [] => []
  | [s] => [s]
  | s :: rest => if s.isPure then keepLast rest else s :: keepLast rest

/-- Drops statements without effect and value from the end of a body, last one first, while the value
of the body stays the same. -/
def settle : List Stmt → List Stmt
  | [] => []
  | [s] => if !s.hasValue && s.isPure then [] else [s]
  | s :: t :: rest =>
    if !s.hasValue && s.isPure then
      if t.hasValue then .noop :: t :: rest else settle (t :: rest)
    else s :: t :: rest

/-- The statements of a body that matter; the value of the last one counts where `valued`. -/
def tidy (valued : Bool) (body : List Stmt) : List Stmt :=
  let body := reached (body.flatMap opened)
  if valued then (settle (keepLast body).reverse).reverse
  else body.filter fun s => !s.isPure

end Stmt

namespace Expr

def foldBinary (op : BinaryOp) (a b : Expr) : Expr :=
  match a, b with
  | .literal x, .literal y => match op.apply x y with
    | .ok v => .literal v
    | .error _ => .binary op a b
  | a, b => .binary op a b

def foldUnary (op : UnaryOp) (a : Expr) : Expr :=
  match a with
  | .literal x => match op.apply x with
    | .ok v => .literal v
    | .error _ => .unary op a
  | a => .unary op a

def foldBoth (a b : Expr) : Expr :=
  match a, b with
  | .literal (.bool true), b => b
  | .literal (.bool false), _ => .literal (.bool false)
  | a, .literal (.bool true) => a
  | a, b => .both a b

def foldEither (a b : Expr) : Expr :=
  match a, b with
  | .literal (.bool false), b => b
  | .literal (.bool true), _ => .literal (.bool true)
  | a, .literal (.bool false) => a
  | a, b => .either a b

def foldOrElse (a b : Expr) : Expr :=
  match a with
  | .literal .unit => b
  | .literal v => .literal v
  | a => .orElse a b

def ofStmt : Stmt → Expr
  | .eval e => e
  | .block [] => .literal .unit
  | .block [.eval e] => e
  | s => .statement s

end Expr

namespace Stmt

def ofExpr : Expr → Stmt
  | .statement s => s
  | e => .eval e

/-- A condition with branches; without branches the condition need not be one. -/
def foldChoose (valued : Bool) (c : Expr) (onTrue onFalse : List Stmt) : Stmt :=
  if onTrue.isEmpty && onFalse.isEmpty then
    if valued then .block (if c.isPure then [.noop] else [.eval c, .noop]) else .eval c
  else .choose c onTrue onFalse

def foldAttempt (body : List Stmt) (caught : Option String) (handler : List Stmt) : Stmt :=
  if Stmt.arePure body then .block [] else .attempt body caught handler

end Stmt

mutual

def Expr.simplify : Expr → Expr
  | .literal v => .literal v
  | .variable name => .variable name
  | .lambda name captured => .lambda name captured
  | .imported path args => .imported path args
  | .template parts => .template (Expr.simplifyAll parts)
  | .array items => .array (Expr.simplifyAll items)
  | .map entries => .map (MapEntry.simplifyAll entries)
  | .call name args => .call name (Expr.simplifyAll args)
  | .chain root links => .chain root.simplify (Link.simplifyAll links)
  | .unary op e => .foldUnary op e.simplify
  | .binary op a b => .foldBinary op a.simplify b.simplify
  | .both a b => .foldBoth a.simplify b.simplify
  | .either a b => .foldEither a.simplify b.simplify
  | .orElse a b => .foldOrElse a.simplify b.simplify
  | .statement s => .ofStmt (s.simplify true)

def Expr.simplifyAll : List Expr → List Expr
  | [] => []
  | e :: rest => e.simplify :: Expr.simplifyAll rest

def MapEntry.simplifyAll : List MapEntry → List MapEntry
  | [] => []
  | .mk key e :: rest => .mk key e.simplify :: MapEntry.simplifyAll rest

def Link.simplifyAll : List Link → List Link
  | [] => []
  | .property name :: rest => .property name :: Link.simplifyAll rest
  | .method name args :: rest => .method name (Expr.simplifyAll args) :: Link.simplifyAll rest
  | .index e :: rest => .index e.simplify :: Link.simplifyAll rest
  | .optional :: rest => .optional :: Link.simplifyAll rest

def Stmt.simplify (valued : Bool) : Stmt → Stmt
  | .noop => .noop
  | .continueLoop => .continueLoop
  | .eval e => .ofExpr e.simplify
  | .declare name isConstant e => .declare name isConstant e.simplify
  | .assign name links op e => .assign name (Link.simplifyAll links) op e.simplify
  | .choose c onTrue onFalse =>
    .foldChoose valued c.simplify (Stmt.tidy valued (Stmt.simplifyAll valued onTrue))
      (Stmt.tidy valued (Stmt.simplifyAll valued onFalse))
  | .switch subject cases fallback =>
    .switch subject.simplify (Case.simplifyAll cases) (fallback.simplify true)
  | .forEach item counter source body =>
    .forEach item counter source.simplify (Stmt.tidy false (Stmt.simplifyAll false body))
  | .block body => .block (Stmt.tidy valued (Stmt.simplifyAll valued body))
  | .breakWith e => .breakWith e.simplify
  | .returnWith e => .returnWith e.simplify
  | .throwWith e => .throwWith e.simplify
  | .attempt body caught handler =>
    .foldAttempt (Stmt.tidy false (Stmt.simplifyAll false body)) caught
      (Stmt.tidy false (Stmt.simplifyAll false handler))
  | .importModule path shortName => .importModule path.simplify shortName

def Stmt.simplifyAll (valued : Bool) : List Stmt → List Stmt
  | [] => []
  | s :: rest => s.simplify valued :: Stmt.simplifyAll valued rest

def Case.simplifyAll : List Case → List Case
  | [] => []
  | .mk patterns guard action :: rest =>
    .mk patterns guard.simplify (action.simplify true) :: Case.simplifyAll rest

end

def Stmt.simplifyBody (body : List Stmt) : List Stmt := Stmt.tidy true (Stmt.simplifyAll true body)

def FunctionDef.simplify (f : FunctionDef) : FunctionDef :=
  { f with body := Stmt.simplifyBody f.body }

def Program.simplify (p : Program) : Program :=
  { p with functions := p.functions.map FunctionDef.simplify, body := Stmt.simplifyBody p.body }

end GuildSandbox.Script
