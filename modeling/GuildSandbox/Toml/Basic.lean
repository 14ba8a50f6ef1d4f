import GuildSandbox.Dict

set_option autoImplicit false
set_option relaxedAutoImplicit false

namespace GuildSandbox

namespace Toml

inductive Origin where
  /-- It is written in braces, and complete. -/
  | braces
  /-- It has a header of its own. -/
  | header
  /-- It stands on the way to the table of a header. -/
  | way
  /-- It stands on the way of a dotted key. -/
  | dots
  deriving DecidableEq, Repr, Inhabited

end Toml

inductive Toml where
  | string (s : String)
  | integer (n : Int64)
  | float (f : Float)
  | boolean (b : Bool)
  | array (items : List Toml)
  | table (origin : Toml.Origin) (entries : List (String × Toml))
  /-- The tables of a repeated header. -/
  | tables (elements : List (List (String × Toml)))
  deriving Inhabited

end GuildSandbox
