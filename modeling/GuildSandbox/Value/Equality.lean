import GuildSandbox.Number.Binary64
import GuildSandbox.Value.Basic

set_option autoImplicit false
set_option relaxedAutoImplicit false

namespace GuildSandbox

namespace Value

mutual

def equal : Value → Value → Bool
  | .unit, .unit => true
  | .bool a, .bool b => a == b
  | .int a, .int b => a == b
  | .int a, .float b => Number.Binary64.ofInt a.toInt == b
  | .float a, .int b => a == Number.Binary64.ofInt b.toInt
  | .float a, .float b => a == b
  | .str a, .str b => a == b
  | .str a, .char b => a == b.toString
  | .char a, .str b => a.toString == b
  | .char a, .char b => a == b
  | .array xs, .array ys => equalItems xs ys
  | .map xs, .map ys => equalEntries xs ys
  | .range a b i, .range c d j => a == c && b == d && i == j
  | _, _ => false

def equalItems : List Value → List Value → Bool
  | [], [] => true
  | x :: xs, y :: ys => equal x y && equalItems xs ys
  | _, _ => false

def equalEntries : List (String × Value) → List (String × Value) → Bool
  | [], [] => true
  | (k, x) :: xs, (l, y) :: ys => k == l && equal x y && equalEntries xs ys
  | _, _ => false

end

mutual

def identical : Value → Value → Bool
  | .unit, .unit => true
  | .bool a, .bool b => a == b
  | .int a, .int b => a == b
  | .float a, .float b => a.toBits == b.toBits
  | .str a, .str b => a == b
  | .char a, .char b => a == b
  | .array xs, .array ys => identicalItems xs ys
  | .map xs, .map ys => identicalEntries xs ys
  | _, _ => false

def identicalItems : List Value → List Value → Bool
  | [], [] => true
  | x :: xs, y :: ys => identical x y && identicalItems xs ys
  | _, _ => false

def identicalEntries : List (String × Value) → List (String × Value) → Bool
  | [], [] => true
  | (k, x) :: xs, (l, y) :: ys => k == l && identical x y && identicalEntries xs ys
  | _, _ => false

end

end Value

end GuildSandbox
