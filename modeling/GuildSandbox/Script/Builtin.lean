import GuildSandbox.Script.Operator
import GuildSandbox.Text.Uppercase

set_option autoImplicit false
set_option relaxedAutoImplicit false

namespace GuildSandbox.Script

/-- What a function leaves behind: its result, and the new value of its first argument if it has
one. -/
structure Reply where
  result : Value
  receiver : Option Value := none

namespace Builtin

def size (n : Nat) : Value := .int (Int64.ofNat n)

def isMutator (name : String) : Bool :=
  ["push", "pop", "shift", "clear", "reverse", "remove", "for_each", "drain", "retain", "sort",
    "dedup"].contains name

def indexOf (items : List Value) (v : Value) : Value :=
  match items.findIdx? fun item => Value.equal item v with
  | some index => size index
  | none => .int (-1)

/-- What a function does with its arguments, if there is one of that name for these types. -/
def call? (name : String) (args : List Value) : Option (Except Fault Reply) :=
  let reply (v : Value) : Option (Except Fault Reply) := some (.ok { result := v })
  let leave (v result : Value) : Option (Except Fault Reply) :=
    some (.ok { result := result, receiver := some v })
  match name, args with
  | "len", [.str s] => reply (size s.length)
  | "len", [.array items] => reply (size items.length)
  | "len", [.map entries] => reply (size entries.length)
  | "len", [.blob bytes] => reply (size bytes.length)
  | "is_empty", [.str s] => reply (.bool s.isEmpty)
  | "is_empty", [.array items] => reply (.bool items.isEmpty)
  | "is_empty", [.map entries] => reply (.bool entries.isEmpty)
  | "push", [.array items, v] => leave (.array (items ++ [v])) .unit
  | "pop", [.array items] => leave (.array items.dropLast) (items.getLastD .unit)
  | "shift", [.array items] => leave (.array items.tail) (items.headD .unit)
  | "clear", [.array _] => leave (.array []) .unit
  | "clear", [.map _] => leave (.map []) .unit
  | "reverse", [.array items] => leave (.array items.reverse) .unit
  | "index_of", [.array items, v] => reply (indexOf items v)
  | "remove", [.map entries, .str key] =>
    leave (.map (Dict.erase key entries)) ((Dict.find? key entries).getD .unit)
  | "contains", [container, item] =>
    some ((BinaryOp.contains container item).map fun v => { result := v })
  | "keys", [.map entries] => reply (.array (entries.map fun e => .str e.1))
  | "values", [.map entries] => reply (.array (entries.map Prod.snd))
  | "to_string", [v] => reply (.str v.display)
  | "to_upper", [.str s] => reply (.str (String.ofList (Text.uppercase s.toList)))
  | "to_upper", [.char c] => reply (.char (Text.uppercaseChar c))
  | "type_of", [v] => reply (.str v.scriptTypeName)
  | "print", [] | "print", [_] | "debug", [] | "debug", [_] => reply .unit
  | "Fn", [.str s] => reply (.fn s [])
  | _, _ => none

end Builtin

end GuildSandbox.Script
