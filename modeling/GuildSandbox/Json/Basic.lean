import GuildSandbox.Number.Binary64
import GuildSandbox.Dict

set_option autoImplicit false
set_option relaxedAutoImplicit false

namespace GuildSandbox

/-- A JSON number. Integers keep apart from binary64 numbers of equal value. -/
inductive JsonNumber where
  | int (n : Int) (fits : -9223372036854775808 ≤ n ∧ n < 18446744073709551616)
  | float (f : Float) (finite : Number.Binary64.isFinite f = true)
  deriving DecidableEq

inductive Json where
  | null
  | bool (b : Bool)
  | num (n : JsonNumber)
  | str (s : String)
  | arr (items : List Json)
  | obj (fields : List (String × Json))

namespace JsonNumber

def ofInt? (n : Int) : Option JsonNumber :=
  if h : -9223372036854775808 ≤ n ∧ n < 18446744073709551616 then some (.int n h) else none

def ofFloat? (f : Float) : Option JsonNumber :=
  if h : Number.Binary64.isFinite f = true then some (.float f h) else none

def ofInt64 (n : Int64) : JsonNumber :=
  .int n.toInt ⟨n.le_toInt, Int.lt_trans n.toInt_lt (by decide)⟩

def ofUInt64 (n : UInt64) : JsonNumber :=
  .int n.toNat ⟨by omega, by have := n.toNat_lt; omega⟩

/-- The integer, when the number is written as one and is below two to the 63. -/
def toInt64? : JsonNumber → Option Int64
  | .int n _ => Number.Binary64.int64? n
  | .float _ _ => none

def toInt? : JsonNumber → Option Int
  | .int n _ => some n
  | .float _ _ => none

def toFloat : JsonNumber → Float
  | .int n _ => Number.Binary64.ofInt n
  | .float f _ => f

end JsonNumber

namespace Json

def int64 (n : Int64) : Json := .num (.ofInt64 n)

/-- A natural number as a tree; numbers of 64 bits and more are written as the nearest
binary64 number, or not at all when that is infinite. -/
def nat (n : Nat) : Json :=
  match JsonNumber.ofInt? n with
  | some m => .num m
  | none => match JsonNumber.ofFloat? (Number.Binary64.ofInt n) with
    | some m => .num m
    | none => .null

def toStr? : Json → Option String
  | .str s => some s
  | _ => none

def toBool? : Json → Option Bool
  | .bool b => some b
  | _ => none

def toInt64? : Json → Option Int64
  | .num n => n.toInt64?
  | _ => none

def toFloat? : Json → Option Float
  | .num n => some n.toFloat
  | _ => none

def field? (name : String) : Json → Option Json
  | .obj fields => Dict.find? name fields
  | _ => none

mutual

def height : Json → Nat
  | .arr items => heightItems items + 1
  | .obj fields => heightFields fields + 1
  | _ => 1

def heightItems : List Json → Nat
  | [] => 0
  | item :: rest => max (height item) (heightItems rest)

def heightFields : List (String × Json) → Nat
  | [] => 0
  | (_, value) :: rest => max (height value) (heightFields rest)

end

mutual

/-- The tree with the fields of every object in key order; the last of several fields of one name
stands. -/
def canonical : Json → Json
  | .null => .null
  | .bool b => .bool b
  | .num n => .num n
  | .str s => .str s
  | .arr items => .arr (canonicalItems items)
  | .obj fields => .obj (Dict.ofPairs (canonicalFields fields))

def canonicalItems : List Json → List Json
  | [] => []
  | item :: rest => canonical item :: canonicalItems rest

def canonicalFields : List (String × Json) → List (String × Json)
  | [] => []
  | (name, value) :: rest => (name, canonical value) :: canonicalFields rest

end

mutual

def decEq : (a b : Json) → Decidable (a = b)
  | .null, .null => isTrue rfl
  | .bool a, .bool b => if h : a = b then isTrue (h ▸ rfl) else isFalse (by simp [h])
  | .num a, .num b => if h : a = b then isTrue (h ▸ rfl) else isFalse (by simp [h])
  | .str a, .str b => if h : a = b then isTrue (h ▸ rfl) else isFalse (by simp [h])
  | .arr a, .arr b =>
    match decEqItems a b with
    | isTrue h => isTrue (h ▸ rfl)
    | isFalse h => isFalse (by simp [h])
  | .obj a, .obj b =>
    match decEqFields a b with
    | isTrue h => isTrue (h ▸ rfl)
    | isFalse h => isFalse (by simp [h])
  | .null, .bool _ | .null, .num _ | .null, .str _ | .null, .arr _ | .null, .obj _
  | .bool _, .null | .bool _, .num _ | .bool _, .str _ | .bool _, .arr _ | .bool _, .obj _
  | .num _, .null | .num _, .bool _ | .num _, .str _ | .num _, .arr _ | .num _, .obj _
  | .str _, .null | .str _, .bool _ | .str _, .num _ | .str _, .arr _ | .str _, .obj _
  | .arr _, .null | .arr _, .bool _ | .arr _, .num _ | .arr _, .str _ | .arr _, .obj _
  | .obj _, .null | .obj _, .bool _ | .obj _, .num _ | .obj _, .str _ | .obj _, .arr _ =>
    isFalse (by simp)

def decEqItems : (a b : List Json) → Decidable (a = b)
  | [], [] => isTrue rfl
  | [], _ :: _ => isFalse (by simp)
  | _ :: _, [] => isFalse (by simp)
  | a :: as, b :: bs =>
    match decEq a b, decEqItems as bs with
    | isTrue h, isTrue hs => isTrue (by rw [h, hs])
    | isFalse h, _ => isFalse (by simp [h])
    | _, isFalse hs => isFalse (by simp [hs])

def decEqFields : (a b : List (String × Json)) → Decidable (a = b)
  | [], [] => isTrue rfl
  | [], _ :: _ => isFalse (by simp)
  | _ :: _, [] => isFalse (by simp)
  | (k, a) :: as, (l, b) :: bs =>
    if hk : k = l then
      match decEq a b, decEqFields as bs with
      | isTrue h, isTrue hs => isTrue (by rw [hk, h, hs])
      | isFalse h, _ => isFalse (by simp [h])
      | _, isFalse hs => isFalse (by simp [hs])
    else isFalse (by simp [hk])

end

instance : DecidableEq Json := decEq

instance : Inhabited Json := ⟨.null⟩

end Json

end GuildSandbox
