import GuildSandbox.CommandLine.Arguments
import GuildSandbox.CommandLine.Fixture
import GuildSandbox.CommandLine.Notice
import GuildSandbox.CommandLine.Shell
import GuildSandbox.Config.Basic
import GuildSandbox.Json.Printer

set_option autoImplicit false
set_option relaxedAutoImplicit false

namespace GuildSandbox.CommandLine

inductive Failure where
  | usage (e : UsageError)
  /-- The file of the configuration cannot be read. -/
  | configFile (e : FileError)
  | config (e : ConfigError)
  /-- The file of a script or a fixture cannot be read. -/
  | reading (path : String) (e : FileError)
  /-- The text of a file is no fixture. -/
  | parsing (path : String)
  | script (e : RunError)
  /-- The store cannot be opened. -/
  | store (e : StoreError)
  deriving DecidableEq, Repr, Inhabited

namespace Failure

def message : Failure → String
  | .usage e => e.message
  | .configFile e => e.message
  | .config e => e.message
  | .reading path _ => "reading " ++ path
  | .parsing path => "parsing " ++ path
  | .script e => e.message
  | .store e => e.message

def cause? : Failure → Option String
  | .reading _ e => some e.message
  | _ => none

def lines (f : Failure) : List String :=
  ("Error: " ++ f.message) :: match f.cause? with
    | some cause => ["", "Caused by:", "    " ++ cause]
    | none => []

end Failure

structure Result where
  code : UInt32 := 0
  /-- The lines of the standard output. -/
  output : List String := []
  /-- The lines of the standard error. -/
  errors : List String := []
  deriving DecidableEq, Repr, Inhabited

namespace Result

def ofFailure (f : Failure) : Result := { code := 1, errors := f.lines }

def text (lines : List String) : String := String.join (lines.map (· ++ "\n"))

end Result

def millisText (nanos : Nat) : String := toString (nanos / nanosPerMilli) ++ "ms"

def reportLines (report : RunReport) : List String :=
  ["script:    " ++ report.scriptId,
   "outcome:   " ++ report.outcome.message,
   "steps:     " ++ toString report.steps,
   "execution: " ++ millisText report.execution,
   "idle:      " ++ millisText report.idle,
   "total:     " ++ millisText report.total]

section Steps

variable {m : Type → Type} [Monad m] (shell : Shell m)

abbrev Step (m : Type → Type) := ExceptT Failure m

def orFail {α ε : Type} (failure : ε → Failure) (result : m (Except ε α)) : Step m α :=
  ExceptT.mk do return (← result).mapError failure

def environmentValues (names : List String) : m (List (String × String)) := do
  let found ← names.mapM fun name => do return (name, ← shell.environment name)
  return found.filterMap fun (name, value) => value.map (name, ·)

def loadConfig : Option String → Step m Config
  | none => return {}
  | some path => do
    let text ← orFail .configFile (shell.readText path)
    let values ← ExceptT.lift (environmentValues shell (Config.references text))
    orFail .config (return Config.load (values.lookup ·) text)

def compileFile (config : Config) (path : String) : Step m CompiledScript := do
  let text ← orFail (.reading path) (shell.readText path)
  let source : Source := { id := Path.stem path, text := text }
  orFail .script (return source.compile config.scriptLimits)

def readFixture (path : String) : Step m Fixture := do
  let text ← orFail (.reading path) (shell.readText path)
  match Fixture.parse? text with
  | some fixture => return fixture
  | none => throw (.parsing path)

def openStore (config : Config) (guild : String) : Step m Store :=
  match config.backend with
  | .memory => return .memory {}
  | .files => do
    orFail (fun e => .store (.io e)) (shell.makeDirectories config.storePath)
    if LineFileStore.isGuildName guild then
      let read ← ExceptT.lift (shell.readText (LineFileStore.path config.storePath guild))
      return .files { files := [(guild, .ofRead read)] }
    else return .files {}

def saveStore (config : Config) (guild : String) (before after : Store) : m Unit :=
  match before, after with
  | .files old, .files new =>
    match new.file guild with
    | .text content =>
      if old.file guild = .text content then pure ()
      else do
        let _ ← shell.makeDirectories (LineFileStore.directory config.storePath guild)
        let _ ← shell.writeText (LineFileStore.path config.storePath guild) content
    | _ => pure ()
  | _, _ => pure ()

def runFile (config : Config) (script : CompiledScript) (path : String) : Step m Result := do
  let fixture ← readFixture shell path
  let inv := fixture.invocation
  let store ← openStore shell config inv.guildId
  let dispatcher : Dispatcher :=
    { budget := config.budget, storeLimits := config.storeLimits
      errorMessage := config.errorMessage }
  let world : World :=
    { epoch := ← ExceptT.lift shell.now, account := .new config.budget 0
      cache := fixture.cache, store := store }
  let (report, world) := dispatcher.dispatch script inv world
  ExceptT.lift (saveStore shell config inv.guildId store world.store)
  return {
    code := if report.outcome.isSuccess then 0 else 1
    output := world.rest.calls.map (fun call => call.toJson.pretty) ++ reportLines report }

def perform (arguments : List String) : Step m Result := do
  let arguments ← orFail .usage (return Arguments.parse arguments)
  let config ← loadConfig shell arguments.config
  match arguments.command with
  | .check path =>
    let script ← compileFile shell config path
    return { output := [script.id ++ ": ok"] }
  | .run path fixture =>
    let script ← compileFile shell config path
    runFile shell config script fixture

def program (arguments : List String) : m Result := do
  match arguments.findSome? notice? with
  | some notice => return { output := [notice] }
  | none =>
    match ← (perform shell arguments).run with
    | .ok result => return result
    | .error failure => return .ofFailure failure

end Steps

end GuildSandbox.CommandLine
