set_option autoImplicit false
set_option relaxedAutoImplicit false

namespace GuildSandbox

/-- Limits on keys, value texts and the number of keys. Lengths count UTF-8 bytes. -/
structure StoreLimits where
  maxKeyLength : Nat := 256
  maxValueLength : Nat := 16384
  maxKeys : Nat := 0
  deriving DecidableEq, Repr, Inhabited

namespace StoreLimits

def withMaxKeys (n : Nat) : StoreLimits := { maxKeys := n }

end StoreLimits

/-- A guild whose store is open to a script, and the limits that hold for it. -/
structure StoreHandle where
  guild : String
  limits : StoreLimits
  deriving DecidableEq, Repr, Inhabited

end GuildSandbox
