set_option autoImplicit false
set_option relaxedAutoImplicit false

namespace GuildSandbox.Script

inductive Refusal where
  | malformedToken
  /-- A token stands where the grammar has no place for it. -/
  | unexpectedToken
  | tooDeep
  | literalTooLarge
  | duplicate (name : String)
  | undeclared (name : String)
  | constantAssigned (name : String)
  | outsideLoop
  | nestedFunction
  deriving DecidableEq, Repr, Inhabited

namespace Refusal

def message : Refusal → String
  | .malformedToken => "malformed token"
  | .unexpectedToken => "unexpected token"
  | .tooDeep => "expression exceeds maximum complexity"
  | .literalTooLarge => "literal exceeds the maximum size"
  | .duplicate name => "duplicate name: " ++ name
  | .undeclared name => "undeclared variable: " ++ name
  | .constantAssigned name => "cannot assign to constant: " ++ name
  | .outsideLoop => "break or continue outside of a loop"
  | .nestedFunction => "functions can only be defined at the top level"

end Refusal

end GuildSandbox.Script
