set_option autoImplicit false
set_option relaxedAutoImplicit false

namespace GuildSandbox

inductive FileError where
  /-- Nothing stands at the path. -/
  | missing
  /-- A file stands where a directory is to be made. -/
  | occupied
  /-- The path leads through a file. -/
  | notDirectory
  /-- A directory stands at the path. -/
  | directory
  /-- The bytes of the file are no text. -/
  | notText
  /-- Anything else, in the words of the system. -/
  | other (detail : String)
  deriving DecidableEq, Repr, Inhabited

namespace FileError

def message : FileError → String
  | .missing => "No such file or directory (os error 2)"
  | .occupied => "File exists (os error 17)"
  | .notDirectory => "Not a directory (os error 20)"
  | .directory => "Is a directory (os error 21)"
  | .notText => "stream did not contain valid UTF-8"
  | .other detail => detail

end FileError

end GuildSandbox
