import GuildSandbox.Value.Basic

set_option autoImplicit false
set_option relaxedAutoImplicit false

namespace GuildSandbox

/-- The items of arrays, the entries of maps and the bytes of texts in a value. -/
structure Sizes where
  items : Nat := 0
  entries : Nat := 0
  bytes : Nat := 0
  deriving DecidableEq, Repr, Inhabited

def Sizes.add (a b : Sizes) : Sizes :=
  { items := a.items + b.items, entries := a.entries + b.entries, bytes := a.bytes + b.bytes }

namespace Value

mutual

def sizes : Value → Sizes
  | .str s => { bytes := s.utf8ByteSize }
  | .array items => sizesOfItems items
  | .map entries => sizesOfEntries entries
  | .blob bytes => { items := bytes.length }
  | _ => {}

def sizesOfItems : List Value → Sizes
  | [] => {}
  | v :: rest => Sizes.add { items := 1 } (Sizes.add (sizes v) (sizesOfItems rest))

def sizesOfEntries : List (String × Value) → Sizes
  | [] => {}
  | (_, v) :: rest => Sizes.add { entries := 1 } (Sizes.add (sizes v) (sizesOfEntries rest))

end

end Value

end GuildSandbox
