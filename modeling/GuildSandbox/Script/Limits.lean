set_option autoImplicit false
set_option relaxedAutoImplicit false

namespace GuildSandbox.Script

/-- Limits on the nesting and the sizes of scripts. A limit of zero on a nesting or a size means
that there is none; a limit of zero on calls allows no call. -/
structure Limits where
  /-- The greatest number of function calls under way at a time. -/
  maxCallLevels : Nat := 32
  /-- The deepest nesting outside of functions. -/
  maxDepth : Nat := 64
  /-- The deepest nesting inside of functions. -/
  maxFunctionDepth : Nat := 32
  /-- The greatest number of bytes in a text. -/
  maxStringSize : Nat := 65536
  /-- The greatest number of items in an array. -/
  maxArraySize : Nat := 10000
  /-- The greatest number of entries in a map. -/
  maxMapSize : Nat := 10000
  deriving DecidableEq, Repr, Inhabited

namespace Limits

def exceeds (size limit : Nat) : Bool := limit ≠ 0 && limit < size

/-- Nesting units: entering an expression or a block takes up two levels of depth. -/
def nestingUnits (depth : Nat) : Option Nat := if depth = 0 then none else some (depth / 2)

end Limits

end GuildSandbox.Script
