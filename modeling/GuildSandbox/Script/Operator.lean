import GuildSandbox.Dict
import GuildSandbox.Script.Fault
import GuildSandbox.Script.Program
import GuildSandbox.Value.Equality

set_option autoImplicit false
set_option relaxedAutoImplicit false

namespace GuildSandbox.Script

def argumentType : Value → String
  | .str _ => "&str | ImmutableString | String"
  | v => v.scriptTypeName

def signature (name : String) (args : List Value) : String :=
  name ++ " (" ++ ", ".intercalate (args.map argumentType) ++ ")"

def notFound (name : String) (args : List Value) : Fault :=
  .functionNotFound (signature name args)

/-- The characters with every occurrence of others taken out; `skip` counts those to drop first. -/
def removeAll (needle : List Char) : Nat → List Char → List Char
  | _, [] => []
  | skip + 1, _ :: cs => removeAll needle skip cs
  | 0, c :: cs =>
    if !needle.isEmpty && needle.isPrefixOf (c :: cs) then
      removeAll needle (needle.length - 1) cs
    else c :: removeAll needle 0 cs

def occursIn (needle : List Char) : List Char → Bool
  | [] => needle.isEmpty
  | c :: cs => needle.isPrefixOf (c :: cs) || occursIn needle cs

namespace BinaryOp

def symbol : BinaryOp → String
  | .add => "+"
  | .sub => "-"
  | .mul => "*"
  | .div => "/"
  | .rem => "%"
  | .power => "**"
  | .bitAnd => "&"
  | .bitOr => "|"
  | .bitXor => "^"
  | .shiftLeft => "<<"
  | .shiftRight => ">>"
  | .eq => "=="
  | .ne => "!="
  | .lt => "<"
  | .le => "<="
  | .gt => ">"
  | .ge => ">="
  | .within => "in"
  | .range inclusive => if inclusive then "..=" else ".."

def unknown (op : BinaryOp) (a b : Value) : Except Fault Value :=
  .error (notFound op.symbol [a, b])

def checked (n : Int) (what : String) (op : BinaryOp) (a b : Int64) : Except Fault Value :=
  match Number.Binary64.int64? n with
  | some i => .ok (.int i)
  | none => .error (.arithmetic
      (what ++ " overflow: " ++ Value.intText a ++ " " ++ op.symbol ++ " " ++ Value.intText b))

/-- The bits of an integer moved up by so many places, or down where that is negative. Zeros come in
from below and the sign from above. -/
def shifted (a : Int64) (places : Int) : Int64 :=
  if 64 ≤ places then 0
  else if 0 ≤ places then a <<< Int64.ofInt places
  else if places ≤ -64 then if a < 0 then -1 else 0
  else a >>> Int64.ofInt (-places)

/-- A power to an exponent that is not negative, as far as it can matter: from the 64th on, powers of
all but 1, 0 and -1 are out of range. -/
def powerOf (x : Int) (y : Nat) : Int := Int.pow x (if 64 ≤ y then 64 + y % 2 else y)

/-- Arithmetic on integers. Division cuts off, and a remainder has the sign of the dividend. -/
def onInts (op : BinaryOp) (a b : Int64) : Except Fault Value :=
  let x := a.toInt
  let y := b.toInt
  let byZero (what : String) : Except Fault Value := .error (.arithmetic
    (what ++ " by zero: " ++ Value.intText a ++ " " ++ op.symbol ++ " " ++ Value.intText b))
  match op with
  | .add => checked (x + y) "Addition" op a b
  | .sub => checked (x - y) "Subtraction" op a b
  | .mul => checked (x * y) "Multiplication" op a b
  | .div => if y = 0 then byZero "Division" else checked (x.tdiv y) "Division" op a b
  | .rem =>
    if y = 0 then byZero "Modulo division"
    else if y = -1 && x = Number.Binary64.minInt64 then
      checked Number.Binary64.endInt64 "Modulo division" op a b
    else checked (x.tmod y) "Modulo division" op a b
  | .power =>
    if y < 0 then .error (.arithmetic ("Integer raised to a negative power: " ++ Value.intText a ++
      " ** " ++ Value.intText b))
    else checked (powerOf x y.toNat) "Exponential" op a b
  | .bitAnd => .ok (.int (a &&& b))
  | .bitOr => .ok (.int (a ||| b))
  | .bitXor => .ok (.int (a ^^^ b))
  | .shiftLeft => .ok (.int (shifted a y))
  | .shiftRight => .ok (.int (shifted a (-y)))
  | op => op.unknown (.int a) (.int b)

def onFloats (op : BinaryOp) (a b : Float) : Except Fault Value :=
  match op with
  | .add => .ok (.float (a + b))
  | .sub => .ok (.float (a - b))
  | .mul => .ok (.float (a * b))
  | .div => .ok (.float (a / b))
  | .rem => .ok (.float (Number.Binary64.remainder a b))
  | op => op.unknown (.float a) (.float b)

def floatOf (n : Int64) : Float := Number.Binary64.ofInt n.toInt

/-- Operators on values that are not both numbers. Text takes everything in. -/
def onOthers (op : BinaryOp) (a b : Value) : Except Fault Value :=
  match op, a, b with
  | .add, .str s, v => .ok (.str (s ++ v.display))
  | .add, v, .str s => .ok (.str (v.display ++ s))
  | .add, .char c, .char d => .ok (.str (String.ofList [c, d]))
  | .add, .array xs, .array ys => .ok (.array (xs ++ ys))
  | .add, .map xs, .map ys => .ok (.map (ys.foldl (fun m (k, v) => Dict.insert k v m) xs))
  | .bitAnd, .bool p, .bool q => .ok (.bool (p && q))
  | .bitOr, .bool p, .bool q => .ok (.bool (p || q))
  | .bitXor, .bool p, .bool q => .ok (.bool (p != q))
  | .sub, .str s, .str t => .ok (.str (String.ofList (removeAll t.toList 0 s.toList)))
  | .sub, .str s, .char c => .ok (.str (String.ofList (removeAll [c] 0 s.toList)))
  | op, a, b => op.unknown a b

def arithmetic (op : BinaryOp) : Value → Value → Except Fault Value
  | .int a, .int b => op.onInts a b
  | .int a, .float b => op.onFloats (floatOf a) b
  | .float a, .int b => op.onFloats a (floatOf b)
  | .float a, .float b => op.onFloats a b
  | a, b => op.onOthers a b

/-- What a comparison says, given whether the left operand is less, equal or greater. -/
def holds (op : BinaryOp) (less equal greater : Bool) : Bool :=
  match op with
  | .eq => equal
  | .ne => !equal
  | .lt => less
  | .le => less || equal
  | .gt => greater
  | .ge => greater || equal
  | _ => false

def compareFloats (op : BinaryOp) (a b : Float) : Value := .bool (op.holds (a < b) (a == b) (b < a))

def compareTexts (op : BinaryOp) (a b : String) : Value := .bool (op.holds (a < b) (a == b) (b < a))

def isEquality (op : BinaryOp) : Bool := op = .eq || op = .ne

def compareUnordered (op : BinaryOp) (a b : Value) : Except Fault Value :=
  if op.isEquality then .ok (.bool (op.holds false (Value.equal a b) false)) else op.unknown a b

def comparison (op : BinaryOp) (a b : Value) : Except Fault Value :=
  match a, b with
  | .int a, .int b => .ok (.bool (op.holds (a < b) (a == b) (b < a)))
  | .int a, .float b => .ok (op.compareFloats (floatOf a) b)
  | .float a, .int b => .ok (op.compareFloats a (floatOf b))
  | .float a, .float b => .ok (op.compareFloats a b)
  | .str a, .str b => .ok (op.compareTexts a b)
  | .str a, .char b => .ok (op.compareTexts a b.toString)
  | .char a, .str b => .ok (op.compareTexts a.toString b)
  | .char a, .char b => .ok (op.compareTexts a.toString b.toString)
  | .unit, .unit => .ok (.bool (op = .eq))
  | .bool _, .bool _ | .array _, .array _ | .map _, .map _ => op.compareUnordered a b
  | .range _ _ i, .range _ _ j =>
    if i = j then op.compareUnordered a b else .ok (.bool (op = .ne))
  | .view v, .view w =>
    if v.typeName = w.typeName then op.unknown a b else .ok (.bool (op = .ne))
  | .fn _ _, .fn _ _ | .blob _, .blob _ => op.unknown a b
  | _, _ => .ok (.bool (op = .ne))

def contains (container item : Value) : Except Fault Value :=
  match container, item with
  | .array xs, v => .ok (.bool (xs.any fun x => Value.equal x v))
  | .map es, .str key => .ok (.bool (Dict.contains key es))
  | .str s, .str t => .ok (.bool (occursIn t.toList s.toList))
  | .str s, .char c => .ok (.bool (s.toList.contains c))
  | .range low high inclusive, .int n =>
    .ok (.bool (decide (low ≤ n) && (n < high || (inclusive && n = high))))
  | container, item => .error (notFound "contains" [container, item])

def apply (op : BinaryOp) (a b : Value) : Except Fault Value :=
  match op with
  | .within => contains b a
  | .range inclusive => match a, b with
    | .int low, .int high => .ok (.range low high inclusive)
    | a, b => op.unknown a b
  | .eq | .ne | .lt | .le | .gt | .ge => op.comparison a b
  | op => op.arithmetic a b

/-- The value that takes the place of an old one; adding to an array appends to it. -/
def update (op : BinaryOp) (old operand : Value) : Except Fault Value :=
  match op, old, operand with
  | .add, .array xs, .array ys => .ok (.array (xs ++ ys))
  | .add, .array xs, v => .ok (.array (xs ++ [v]))
  | op, old, operand => op.apply old operand

end BinaryOp

namespace UnaryOp

def symbol : UnaryOp → String
  | .negate => "-"
  | .plus => "+"
  | .invert => "!"

def apply (op : UnaryOp) (v : Value) : Except Fault Value :=
  match op, v with
  | .negate, .int n => match Number.Binary64.int64? (-n.toInt) with
    | some m => .ok (.int m)
    | none => .error (.arithmetic ("Negation overflow: -" ++ Value.intText n))
  | .negate, .float f => .ok (.float (-f))
  | .plus, .int n => .ok (.int n)
  | .plus, .float f => .ok (.float f)
  | .invert, .bool b => .ok (.bool !b)
  | op, v => .error (notFound op.symbol [v])

end UnaryOp

end GuildSandbox.Script
