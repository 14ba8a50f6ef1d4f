import GuildSandbox.Value.Basic

set_option autoImplicit false
set_option relaxedAutoImplicit false

namespace GuildSandbox.Script

inductive UnaryOp where
  | negate | plus | invert
  deriving DecidableEq, Repr, Inhabited

inductive BinaryOp where
  | add | sub | mul | div | rem | power
  | bitAnd | bitOr | bitXor | shiftLeft | shiftRight
  | eq | ne | lt | le | gt | ge
  /-- The left operand is in the right one. -/
  | within
  | range (inclusive : Bool)
  deriving DecidableEq, Repr, Inhabited

inductive Pattern where
  /-- One value, of the same type. -/
  | value (v : Value)
  | integers (low stop : Int)
  /-- The integers and floats from `low` on and below `high`, or up to it when inclusive. -/
  | span (low high : Int) (inclusive : Bool)

mutual

inductive Expr where
  | literal (v : Value)
  | template (parts : List Expr)
  | array (items : List Expr)
  | map (entries : List MapEntry)
  | variable (name : String)
  | call (name : String) (args : List Expr)
  | chain (root : Expr) (links : List Link)
  | unary (op : UnaryOp) (operand : Expr)
  | binary (op : BinaryOp) (left right : Expr)
  | both (left right : Expr)
  | either (left right : Expr)
  /-- The left operand, or the right one where the left one is unit. -/
  | orElse (left right : Expr)
  /-- A function without a name of its own, and the variables that it takes along. -/
  | lambda (name : String) (captured : List String)
  /-- Something in a module. -/
  | imported (path : List String) (args : List Expr)
  | statement (s : Stmt)

inductive MapEntry where
  | mk (key : String) (value : Expr)

inductive Link where
  | property (name : String)
  | method (name : String) (args : List Expr)
  | index (position : Expr)
  /-- The chain ends here where there is nothing but unit to go on from. -/
  | optional

inductive Stmt where
  | noop
  | eval (e : Expr)
  | declare (name : String) (isConstant : Bool) (value : Expr)
  /-- Assigns to a variable, or to a place inside it when there are links; the operator combines
  the old value with the new one. -/
  | assign (name : String) (links : List Link) (op : Option BinaryOp) (value : Expr)
  | choose (condition : Expr) (onTrue onFalse : List Stmt)
  | switch (subject : Expr) (cases : List Case) (fallback : Stmt)
  | forEach (item : String) (counter : Option String) (source : Expr) (body : List Stmt)
  | block (body : List Stmt)
  | breakWith (value : Expr)
  | continueLoop
  | returnWith (value : Expr)
  | throwWith (value : Expr)
  | attempt (body : List Stmt) (caught : Option String) (handler : List Stmt)
  | importModule (path : Expr) (shortName : Option String)

inductive Case where
  | mk (patterns : List Pattern) (guard : Expr) (action : Stmt)

end

instance : Inhabited Expr := ⟨.literal .unit⟩
instance : Inhabited Stmt := ⟨.noop⟩

structure FunctionDef where
  name : String
  params : List String
  body : List Stmt
  deriving Inhabited

namespace FunctionDef

def arity (f : FunctionDef) : Nat := f.params.length

end FunctionDef

structure Program where
  functions : List FunctionDef
  body : List Stmt
  importsModule : Bool := false
  deriving Inhabited

namespace Program

def function? (functions : List FunctionDef) (name : String) (arity : Nat) : Option FunctionDef :=
  functions.find? fun f => f.name = name && f.arity = arity

end Program

end GuildSandbox.Script
