import GuildSandbox.Toml.Basic

/-!
Building a document from its lines.

A key may be given once, and so may a header. Dotted keys only add to tables that dotted keys
made, and pass only through those and through tables on the way to a header. A header may take over
a table that stood on the way to another one. Where headers are repeated, what follows belongs to
the last table of the array.
-/

set_option autoImplicit false
set_option relaxedAutoImplicit false

namespace GuildSandbox.Toml

inductive Line where
  /-- A table, or one more table of an array, that the lines below belong to. -/
  | header (path : List String) (repeated : Bool)
  /-- A value at a dotted key. -/
  | entry (path : List String) (value : Toml)
  deriving Inhabited

def mapLast? (change : Dict Toml → Option (Dict Toml)) :
    List (Dict Toml) → Option (List (Dict Toml))
  | [] => none
  | [last] => (change last).map ([·])
  | first :: rest => (mapLast? change rest).map (first :: ·)

def assign? (value : Toml) : List String → Dict Toml → Option (Dict Toml)
  | [], _ => none
  | [key], entries =>
    if Dict.contains key entries then none else some (Dict.insert key value entries)
  | key :: next :: rest, entries => do
    let inner ← match Dict.find? key entries with
      | none => (assign? value (next :: rest) []).map (.table .dots)
      | some (.table .dots t) => (assign? value (next :: rest) t).map (.table .dots)
      | some (.table .way t) =>
        if rest.isEmpty then none else (assign? value (next :: rest) t).map (.table .way)
      | some (.tables elements) =>
        if rest.isEmpty then none
        else (mapLast? (assign? value (next :: rest)) elements).map .tables
      | some _ => none
    return Dict.insert key inner entries

def assignAll? (lines : List (List String × Toml)) (entries : Dict Toml) : Option (Dict Toml) :=
  lines.foldlM (fun t line => assign? line.2 line.1 t) entries

def place? (change : Option Toml → Option Toml) : List String → Dict Toml → Option (Dict Toml)
  | [], _ => none
  | [key], entries => do
    let value ← change (Dict.find? key entries)
    return Dict.insert key value entries
  | key :: next :: rest, entries => do
    let inner ← match Dict.find? key entries with
      | none => (place? change (next :: rest) []).map (.table .way)
      | some (.table .braces _) => none
      | some (.table origin t) => (place? change (next :: rest) t).map (.table origin)
      | some (.tables elements) => (mapLast? (place? change (next :: rest)) elements).map .tables
      | some _ => none
    return Dict.insert key inner entries

def headed? (lines : List (List String × Toml)) : Option Toml → Option Toml
  | none => (assignAll? lines []).map (.table .header)
  | some (.table .way t) => (assignAll? lines t).map (.table .header)
  | some _ => none

/-- The array of tables that a repeated header with lines below it makes of what is there. -/
def appended? (lines : List (List String × Toml)) : Option Toml → Option Toml
  | none => (assignAll? lines []).map fun t => .tables [t]
  | some (.tables elements) => (assignAll? lines []).map fun t => .tables (elements ++ [t])
  | some _ => none

structure Section where
  path : List String
  repeated : Bool
  lines : List (List String × Toml) := []

def sections : List Line → List (List String × Toml) × List Section
  | [] => ([], [])
  | .entry path value :: rest =>
    let (top, below) := sections rest
    ((path, value) :: top, below)
  | .header path repeated :: rest =>
    let (top, below) := sections rest
    ([], { path := path, repeated := repeated, lines := top } :: below)

def addSection? (document : Dict Toml) (s : Section) : Option (Dict Toml) :=
  place? (if s.repeated then appended? s.lines else headed? s.lines) s.path document

def ofLines? (lines : List Line) : Option (Dict Toml) := do
  let (top, below) := sections lines
  below.foldlM addSection? (← assignAll? top [])

end GuildSandbox.Toml
