import GuildSandbox.File.Error
import GuildSandbox.Value.Error

set_option autoImplicit false
set_option relaxedAutoImplicit false

namespace GuildSandbox

inductive StoreError where
  | keyTooLong (max : Nat)
  | valueTooLong (max : Nat)
  | quotaExceeded (max : Nat)
  | typeMismatch (key found : String)
  | overflow (key : String)
  | invalidGuild (guild : String)
  | value (e : ValueError)
  | backend (detail : String)
  | io (cause : FileError)
  deriving DecidableEq, Repr, Inhabited

namespace StoreError

def message : StoreError → String
  | .keyTooLong max => "key exceeds maximum length of " ++ toString max
  | .valueTooLong max => "value exceeds maximum length of " ++ toString max
  | .quotaExceeded max => "maximum number of keys reached: " ++ toString max
  | .typeMismatch key found =>
    "value stored at '" ++ key ++ "' is not numeric (found " ++ found ++ ")"
  | .overflow key => "increasing '" ++ key ++ "' overflows"
  | .invalidGuild guild => "invalid guild id: " ++ guild
  | .value e => e.message
  | .backend detail => "KV backend error: " ++ detail
  | .io cause => "IO error: " ++ cause.message

end StoreError

end GuildSandbox
