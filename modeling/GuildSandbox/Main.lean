import GuildSandbox.CommandLine.Program

set_option autoImplicit false
set_option relaxedAutoImplicit false

namespace GuildSandbox.CommandLine

def fileErrorOf : IO.Error → FileError
  | .noFileOrDirectory .. => .missing
  | .alreadyExists .. => .occupied
  | .inappropriateType _ code _ => if code = 21 then .directory else .notDirectory
  | .userError _ => .notText
  | e => .other (toString e)

def attempt {α : Type} (action : IO α) : IO (Except FileError α) := do
  match ← action.toBaseIO with
  | .ok a => return .ok a
  | .error e => return .error (fileErrorOf e)

def currentTime : IO Time.Instant := do
  let (_, path) ← IO.FS.createTempFile
  let modified := (← path.metadata).modified
  IO.FS.removeFile path
  return { seconds := modified.sec, nanos := modified.nsec.toNat }

def systemShell : Shell IO where
  readText path := attempt (IO.FS.readFile path)
  makeDirectories path := attempt (if path = "" then pure () else IO.FS.createDirAll path)
  writeText path content := attempt (IO.FS.writeFile path content)
  environment name := IO.getEnv name
  now := currentTime

end GuildSandbox.CommandLine

open GuildSandbox.CommandLine in
def main (arguments : List String) : IO UInt32 := do
  let result ← program systemShell arguments
  (← IO.getStdout).putStr (Result.text result.output)
  (← IO.getStderr).putStr (Result.text result.errors)
  return result.code
