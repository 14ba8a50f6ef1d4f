import GuildSandbox.Value.Tagged

/-!
The plain encoding of values, for data exchanged with the outside.

Writing drops the difference between units and `null`, and nothing else. Reading takes every whole
number within 64 bits as an integer. Both refuse parts that lie inside more than
`ValueError.maxDepth` containers.
-/

set_option autoImplicit false
set_option relaxedAutoImplicit false

namespace GuildSandbox.Value

mutual

def toPlainAt (depth : Nat) (value : Value) : Except ValueError Json :=
  if ValueError.maxDepth < depth then .error .tooDeep
  else match value with
    | .unit => .ok .null
    | .bool b => .ok (.bool b)
    | .int n => .ok (.int64 n)
    | .float f => finiteNumber f
    | .str s => .ok (.str s)
    | .array items => (toPlainItems (depth + 1) items).map .arr
    | .map entries => (toPlainEntries (depth + 1) entries).map .obj
    | .char c => .error (.unsupportedType (Value.char c).typeName)
    | .blob bytes => .error (.unsupportedType (Value.blob bytes).typeName)
    | .fn name carried => .error (.unsupportedType (Value.fn name carried).typeName)
    | .range low high inclusive =>
      .error (.unsupportedType (Value.range low high inclusive).typeName)
    | .view v => .error (.unsupportedType (Value.view v).typeName)

def toPlainItems (depth : Nat) : List Value → Except ValueError (List Json)
  | [] => .ok []
  | item :: rest => do
    let first ← toPlainAt depth item
    return first :: (← toPlainItems depth rest)

def toPlainEntries (depth : Nat) : List (String × Value) → Except ValueError (List (String × Json))
  | [] => .ok []
  | (key, item) :: rest => do
    let first ← toPlainAt depth item
    return (key, first) :: (← toPlainEntries depth rest)

end

def toPlainJson (value : Value) : Except ValueError Json := toPlainAt 0 value

def ofNumber (n : JsonNumber) : Value :=
  match wholeNumber? (.num n) with
  | some i => .int i
  | none => .float n.toFloat

mutual

def ofPlainAt (depth : Nat) (j : Json) : Except ValueError Value :=
  if ValueError.maxDepth < depth then .error .tooDeep
  else match j with
    | .null => .ok .unit
    | .bool b => .ok (.bool b)
    | .num n => .ok (ofNumber n)
    | .str s => .ok (.str s)
    | .arr items => (ofPlainItems (depth + 1) items).map .array
    | .obj fields =>
      (ofPlainFields (depth + 1) fields).map fun entries => .map (Dict.ofPairs entries)

def ofPlainItems (depth : Nat) : List Json → Except ValueError (List Value)
  | [] => .ok []
  | item :: rest => do
    let first ← ofPlainAt depth item
    return first :: (← ofPlainItems depth rest)

def ofPlainFields (depth : Nat) : List (String × Json) → Except ValueError (List (String × Value))
  | [] => .ok []
  | (key, item) :: rest => do
    let first ← ofPlainAt depth item
    return (key, first) :: (← ofPlainFields depth rest)

end

def ofPlainJson (j : Json) : Except ValueError Value := ofPlainAt 0 j

end GuildSandbox.Value
