import GuildSandbox.Config.Reference
import GuildSandbox.Run.Account
import GuildSandbox.Script.Limits
import GuildSandbox.Store.Limits
import GuildSandbox.Toml.Reader
import GuildSandbox.Toml.Record

set_option autoImplicit false
set_option relaxedAutoImplicit false

namespace GuildSandbox

inductive Backend where
  | memory
  | files
  deriving DecidableEq, Repr, Inhabited

structure Config where
  /-- What a run may use up. -/
  budget : Budget := {}
  scriptLimits : Script.Limits := {}
  backend : Backend := .memory
  /-- The directory of a store in files. -/
  storePath : String := "./data/kv"
  /-- The greatest number of keys of a guild. -/
  maxKeys : Nat := 1000
  /-- What the user of a run that failed is told. -/
  errorMessage : String := "Something went wrong while running this script."
  deriving DecidableEq, Repr, Inhabited

inductive ConfigError where
  /-- A variable that the text refers to is unset. -/
  | unset (name : String)
  /-- The text is no document, or a value in it has the wrong type. -/
  | malformed
  /-- Runs may take no step. -/
  | noSteps
  /-- Runs have less time in all than for computing. -/
  | totalTooShort
  deriving DecidableEq, Repr, Inhabited

namespace ConfigError

def message : ConfigError → String
  | .unset name => "error looking key '" ++ name ++ "' up: environment variable not found"
  | .malformed => "TOML parse error"
  | .noSteps => "sandbox.max_execution_steps must be greater than zero"
  | .totalTooShort =>
    "sandbox.max_total_duration_ms must not be lower than max_execution_duration_ms"

end ConfigError

namespace Config

def storeLimits (c : Config) : StoreLimits := .withMaxKeys c.maxKeys

def storeDescription (c : Config) : String :=
  match c.backend with
  | .memory => "memory"
  | .files => "file (" ++ c.storePath ++ ")"

def duration? (t : Toml) : Option Nat := t.toNat?.map (· * nanosPerMilli)

def withSandbox? (c : Config) (t : Toml) : Option Config := do
  let [steps, execution, total, calls, text, items] ← t.recordFields?
    ["max_execution_steps", "max_execution_duration_ms", "max_total_duration_ms",
      "max_call_levels", "max_string_size", "max_collection_size"] | none
  let steps ← Toml.withDefault? c.budget.maxSteps Toml.toNat? steps
  let execution ← Toml.withDefault? c.budget.maxExecution duration? execution
  let total ← Toml.withDefault? c.budget.maxTotal duration? total
  let calls ← Toml.withDefault? c.scriptLimits.maxCallLevels Toml.toNat? calls
  let text ← Toml.withDefault? c.scriptLimits.maxStringSize Toml.toNat? text
  let items ← Toml.withDefault? c.scriptLimits.maxArraySize Toml.toNat? items
  return { c with
    budget := { maxSteps := steps, maxExecution := execution, maxTotal := total }
    scriptLimits := { c.scriptLimits with
      maxCallLevels := calls, maxStringSize := text, maxArraySize := items, maxMapSize := items } }

def backends : List (String × Backend) := [("memory", .memory), ("file", .files)]

def withStore? (c : Config) (t : Toml) : Option Config := do
  let [backend, path, maxKeys] ← t.recordFields? ["backend", "path", "max_keys"] | none
  let backend ← Toml.withDefault? c.backend (Toml.oneOf? backends) backend
  let path ← Toml.withDefault? c.storePath Toml.toString? path
  let maxKeys ← Toml.withDefault? c.maxKeys Toml.toNat? maxKeys
  return { c with backend := backend, storePath := path, maxKeys := maxKeys }

def withResponses? (c : Config) (t : Toml) : Option Config := do
  let [message] ← t.recordFields? ["error_message"] | none
  let message ← Toml.withDefault? c.errorMessage Toml.toString? message
  return { c with errorMessage := message }

def ofDocument? (document : Dict Toml) : Option Config := do
  let read (c : Config) (name : String) (step : Config → Toml → Option Config) :=
    Toml.withDefault? c (step c) (Dict.find? name document)
  let c ← read {} "sandbox" withSandbox?
  let c ← read c "kv" withStore?
  read c "responses" withResponses?

def validate (c : Config) : Except ConfigError Config :=
  if c.budget.maxSteps = 0 then .error .noSteps
  else if c.budget.maxTotal < c.budget.maxExecution then .error .totalTooShort
  else .ok c

def parse (text : String) : Except ConfigError Config :=
  match Toml.parse? text >>= ofDocument? with
  | some c => c.validate
  | none => .error .malformed

def load (environment : String → Option String) (text : String) : Except ConfigError Config := do
  parse (← (expand environment text).mapError .unset)

end Config

end GuildSandbox
