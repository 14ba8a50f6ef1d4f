set_option autoImplicit false
set_option relaxedAutoImplicit false

namespace GuildSandbox

inductive ValueError where
  /-- The type of the value has no JSON form. -/
  | unsupportedType (name : String)
  /-- A stored value does not have the form its tag calls for. -/
  | malformed (detail : String)
  /-- More containers lie around a part of the value than are allowed. -/
  | tooDeep
  /-- The text is no JSON, or the tree is no tagged value. -/
  | json
  deriving DecidableEq, Repr, Inhabited

namespace ValueError

def maxDepth : Nat := 32

def message : ValueError → String
  | .unsupportedType name => "unsupported value type: " ++ name
  | .malformed detail => "malformed stored value: " ++ detail
  | .tooDeep => "value nesting exceeds " ++ toString maxDepth ++ " levels"
  | .json => "JSON error"

end ValueError

end GuildSandbox
