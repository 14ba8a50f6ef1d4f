import GuildSandbox.Json.Printer
import GuildSandbox.Json.Reader
import GuildSandbox.Json.Record
import GuildSandbox.Value.Basic
import GuildSandbox.Value.Error

/-!
The tagged encoding of values, in which they are stored.

Every value is a record of a tag and data, so that an integer and a float of equal value stay
apart. Encoding refuses values without a JSON form; decoding also accepts integers written as whole
floats. Both refuse parts that lie inside more than `ValueError.maxDepth` containers.
-/

set_option autoImplicit false
set_option relaxedAutoImplicit false

namespace GuildSandbox

structure TaggedValue where
  tag : String
  data : Json := .null
  deriving DecidableEq, Inhabited

namespace TaggedValue

def toJson (t : TaggedValue) : Json := .obj [("type", .str t.tag), ("data", t.data)]

def toSortedJson (t : TaggedValue) : Json := .obj [("data", t.data), ("type", .str t.tag)]

def ofJson? (j : Json) : Option TaggedValue := do
  match ← j.recordFields? ["type", "data"] with
  | [tag, data] =>
    return {
      tag := ← Json.required Json.toStr? tag
      data := ← Json.withDefault .null Json.anything data }
  | _ => none

end TaggedValue

namespace Value

def nonFiniteName (f : Float) : String :=
  if Number.Binary64.isNaN f then "NaN"
  else if Number.Binary64.isNegative f then "-inf"
  else "inf"

def finiteNumber (f : Float) : Except ValueError Json :=
  match JsonNumber.ofFloat? f with
  | some n => .ok (.num n)
  | none => .error (.unsupportedType ("non-finite float " ++ nonFiniteName f))

mutual

/-- The tagged form of a part of a value that lies inside `depth` containers. -/
def encodeAt (depth : Nat) (value : Value) : Except ValueError TaggedValue :=
  if ValueError.maxDepth < depth then .error .tooDeep
  else match value with
    | .unit => .ok { tag := "NoneType" }
    | .bool b => .ok { tag := "bool", data := .bool b }
    | .int n => .ok { tag := "int", data := .int64 n }
    | .float f => do return { tag := "float", data := ← finiteNumber f }
    | .str s => .ok { tag := "string", data := .str s }
    | .array items => do return { tag := "list", data := .arr (← encodeItems (depth + 1) items) }
    | .map entries => do
      return { tag := "dict", data := .obj (← encodeEntries (depth + 1) entries) }
    | .char c => .error (.unsupportedType (Value.char c).typeName)
    | .blob bytes => .error (.unsupportedType (Value.blob bytes).typeName)
    | .fn name carried => .error (.unsupportedType (Value.fn name carried).typeName)
    | .range low high inclusive =>
      .error (.unsupportedType (Value.range low high inclusive).typeName)
    | .view v => .error (.unsupportedType (Value.view v).typeName)

def encodeItems (depth : Nat) : List Value → Except ValueError (List Json)
  | [] => .ok []
  | item :: rest => do
    let first ← encodeAt depth item
    return first.toSortedJson :: (← encodeItems depth rest)

def encodeEntries (depth : Nat) : List (String × Value) → Except ValueError (List (String × Json))
  | [] => .ok []
  | (key, item) :: rest => do
    let first ← encodeAt depth item
    return (key, first.toSortedJson) :: (← encodeEntries depth rest)

end

def encode (value : Value) : Except ValueError Json :=
  (encodeAt 0 value).map TaggedValue.toSortedJson

def toJsonText (value : Value) : Except ValueError String :=
  (encodeAt 0 value).map fun t => t.toJson.compact

def mismatch (t : TaggedValue) : ValueError :=
  .malformed ("data " ++ t.data.compact ++ " does not match type tag '" ++ t.tag ++ "'")

def wholeNumber? : Json → Option Int64
  | .num n => n.toInt64?.or (Number.Binary64.toInt64? n.toFloat)
  | _ => none

def orFail {α : Type} (e : ValueError) : Option α → Except ValueError α
  | some a => .ok a
  | none => .error e

def decodeItems (nested : Json → Except ValueError Value) :
    List Json → Except ValueError (List Value)
  | [] => .ok []
  | item :: rest => do
    let first ← nested item
    return first :: (← decodeItems nested rest)

def decodeFields (nested : Json → Except ValueError Value) :
    List (String × Json) → Except ValueError (List (String × Value))
  | [] => .ok []
  | (key, item) :: rest => do
    let first ← nested item
    return (key, first) :: (← decodeFields nested rest)

def decodeData (nested : Json → Except ValueError Value) (t : TaggedValue) :
    Except ValueError Value :=
  match t.tag with
  | "NoneType" => .ok .unit
  | "string" => (orFail (mismatch t) t.data.toStr?).map .str
  | "bool" => (orFail (mismatch t) t.data.toBool?).map .bool
  | "int" => (orFail (mismatch t) (wholeNumber? t.data)).map .int
  | "float" => (orFail (mismatch t) t.data.toFloat?).map .float
  | "list" => match t.data with
    | .arr items => (decodeItems nested items).map .array
    | _ => .error (mismatch t)
  | "dict" => match t.data with
    | .obj fields => (decodeFields nested fields).map fun entries => .map (Dict.ofPairs entries)
    | _ => .error (mismatch t)
  | tag => .error (.malformed ("unknown type tag '" ++ tag ++ "'"))

def decodeWithin : (levels : Nat) → Json → Except ValueError Value
  | 0, _ => .error .tooDeep
  | levels + 1, j =>
    match TaggedValue.ofJson? j with
    | some t => decodeData (decodeWithin levels) t
    | none => .error .json

def decode (j : Json) : Except ValueError Value := decodeWithin (ValueError.maxDepth + 1) j

def ofJsonText (text : String) : Except ValueError Value :=
  match Json.parseCanonical? text with
  | some j => decode j
  | none => .error .json

end Value

end GuildSandbox
