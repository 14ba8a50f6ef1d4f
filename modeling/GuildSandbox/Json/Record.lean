import GuildSandbox.Json.Basic

/-!
Records as JSON.

A record is written as an object with its fields in a fixed order. It is read from an object, whose
unknown fields are skipped and whose known fields appear at most once, or from an array that holds
the field values in that order and may end early. What an absent field means is decided per field:
an error, a default, or nothing.
-/

set_option autoImplicit false
set_option relaxedAutoImplicit false

namespace GuildSandbox.Json

universe u

/-- The values of the named fields of an object; fails when one of them occurs twice. -/
def namedFields? (fields : List (String × Json)) : List String → Option (List (Option Json))
  | [] => some []
  | name :: names =>
    match fields.filter fun p => p.1 = name with
    | [] => (namedFields? fields names).map (none :: ·)
    | [(_, value)] => (namedFields? fields names).map (some value :: ·)
    | _ => none

/-- The field values of an array in order; fails when there are more of them than fields. -/
def positionalFields? : List Json → List String → Option (List (Option Json))
  | [], names => some (names.map fun _ => none)
  | _ :: _, [] => none
  | item :: items, _ :: names => (positionalFields? items names).map (some item :: ·)

/-- The values of the fields of a record, one for each name, absent ones as `none`. -/
def recordFields? (names : List String) : Json → Option (List (Option Json))
  | .obj fields => namedFields? fields names
  | .arr items => positionalFields? items names
  | _ => none

variable {α : Type u}

def required (read : Json → Option α) : Option Json → Option α
  | some j => read j
  | none => none

def withDefault (default : α) (read : Json → Option α) : Option Json → Option α
  | some j => read j
  | none => some default

def nullable (read : Json → Option α) : Json → Option (Option α)
  | .null => some none
  | j => (read j).map some

def optional (read : Json → Option α) : Option Json → Option (Option α) :=
  withDefault none (nullable read)

def readAll (read : Json → Option α) : List Json → Option (List α)
  | [] => some []
  | item :: items => do
    let a ← read item
    let as ← readAll read items
    return a :: as

def list (read : Json → Option α) : Json → Option (List α)
  | .arr items => readAll read items
  | _ => none

def readEntries (read : Json → Option α) : List (String × Json) → Option (List (String × α))
  | [] => some []
  | (key, value) :: rest => do
    let a ← read value
    let as ← readEntries read rest
    return (key, a) :: as

def table (read : Json → Option α) : Json → Option (Dict α)
  | .obj fields => (readEntries read fields).map Dict.ofPairs
  | _ => none

def intWithin (low high : Int) : Json → Option Int
  | .num (.int n _) => if low ≤ n ∧ n ≤ high then some n else none
  | _ => none

def uint64 : Json → Option UInt64
  | .num (.int n _) => if 0 ≤ n then some (UInt64.ofNat n.toNat) else none
  | _ => none

def anything (j : Json) : Option Json := some j.canonical

/-- One of a fixed set of names: a string, or an object that maps the name to `null`. -/
def oneOf (choices : List (String × α)) : Json → Option α
  | .str s => Dict.find? s choices
  | .obj [(name, .null)] => Dict.find? name choices
  | _ => none

def always (name : String) (value : Json) : List (String × Json) := [(name, value)]

def whenPresent (name : String) (write : α → Json) : Option α → List (String × Json)
  | some a => [(name, write a)]
  | none => []

def ofTable (write : α → Json) (d : Dict α) : Json := .obj (d.map fun p => (p.1, write p.2))

def ofUInt64 (n : UInt64) : Json := .num (.ofUInt64 n)

end GuildSandbox.Json
