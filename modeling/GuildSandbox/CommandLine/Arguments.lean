set_option autoImplicit false
set_option relaxedAutoImplicit false

namespace GuildSandbox.CommandLine

inductive Command where
  | check (script : String)
  /-- Run a script for a recorded interaction. -/
  | run (script fixture : String)
  deriving DecidableEq, Repr, Inhabited

structure Arguments where
  command : Command
  config : Option String := none
  deriving DecidableEq, Repr, Inhabited

inductive UsageError where
  | noConfigPath
  | unknownOption (option : String)
  | noCommand
  | noScript (command : String)
  | noFixture (command : String)
  | unknownCommand (command : String)
  | unexpectedArgument (argument : String)
  deriving DecidableEq, Repr, Inhabited

namespace UsageError

def message : UsageError → String
  | .noConfigPath => "--config needs a path"
  | .unknownOption option => "unknown option: " ++ option
  | .noCommand => "missing command, see --help"
  | .noScript command => command ++ " needs <SCRIPT>"
  | .noFixture command => command ++ " needs <FIXTURE>"
  | .unknownCommand command => "unknown command: " ++ command
  | .unexpectedArgument argument => "unexpected argument: " ++ argument

end UsageError

def isConfigOption (argument : String) : Bool := argument = "--config" || argument = "-c"

def isOption (argument : String) : Bool := argument.toList.head? = some '-'

structure Sorted where
  positional : List String := []
  config : Option String := none
  deriving DecidableEq, Repr, Inhabited

def sort : List String → Except UsageError Sorted
  | [] => .ok {}
  | [argument] =>
    if isConfigOption argument then .error .noConfigPath
    else if isOption argument then .error (.unknownOption argument)
    else .ok { positional := [argument] }
  | argument :: next :: rest =>
    if isConfigOption argument then do
      let sorted ← sort rest
      return { sorted with config := sorted.config.or (some next) }
    else if isOption argument then .error (.unknownOption argument)
    else do
      let sorted ← sort (next :: rest)
      return { sorted with positional := argument :: sorted.positional }

def Command.ofPositional : List String → Except UsageError Command
  | [] => .error .noCommand
  | "check" :: rest =>
    match rest with
    | [] => .error (.noScript "check")
    | [script] => .ok (.check script)
    | _ :: extra :: _ => .error (.unexpectedArgument extra)
  | "run" :: rest =>
    match rest with
    | [] => .error (.noScript "run")
    | [_] => .error (.noFixture "run")
    | [script, fixture] => .ok (.run script fixture)
    | _ :: _ :: extra :: _ => .error (.unexpectedArgument extra)
  | other :: _ => .error (.unknownCommand other)

def Arguments.parse (arguments : List String) : Except UsageError Arguments := do
  let sorted ← sort arguments
  return { command := ← Command.ofPositional sorted.positional, config := sorted.config }

end GuildSandbox.CommandLine
