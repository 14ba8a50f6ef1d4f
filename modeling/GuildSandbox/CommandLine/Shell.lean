import GuildSandbox.File.Tree
import GuildSandbox.Time.Instant

set_option autoImplicit false
set_option relaxedAutoImplicit false

namespace GuildSandbox.CommandLine

structure Shell (m : Type → Type) where
  readText : String → m (Except FileError String)
  makeDirectories : String → m (Except FileError Unit)
  writeText : String → String → m (Except FileError Unit)
  environment : String → m (Option String)
  now : m Time.Instant

namespace Shell

def change (step : FileTree → Except FileError FileTree) :
    StateM FileTree (Except FileError Unit) := do
  match step (← get) with
  | .ok t =>
    set t
    return .ok ()
  | .error e => return .error e

/-- A system that consists of a tree of files and a fixed environment and time. -/
def ofTree (environment : String → Option String) (now : Time.Instant) :
    Shell (StateM FileTree) where
  readText path := do return (← get).readText path
  makeDirectories path := change fun t => t.makeDirectories path
  writeText path content := change fun t => t.put path (.text content)
  environment name := return environment name
  now := return now

end Shell

end GuildSandbox.CommandLine
