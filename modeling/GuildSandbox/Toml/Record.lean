import GuildSandbox.Toml.Basic

set_option autoImplicit false
set_option relaxedAutoImplicit false

namespace GuildSandbox.Toml

universe u

variable {α : Type u}

def inOrder (values : List Toml) (names : List String) : List (Option Toml) :=
  names.zipIdx.map fun (_, i) => values[i]?

/-- The values of the fields of a record, one for each name, absent ones as `none`. -/
def recordFields? (names : List String) : Toml → Option (List (Option Toml))
  | .table _ entries => some (names.map fun name => Dict.find? name entries)
  | .array items => some (inOrder items names)
  | .tables elements => some (inOrder (elements.map (.table .header)) names)
  | _ => none

def withDefault? (default : α) (read? : Toml → Option α) : Option Toml → Option α
  | some t => read? t
  | none => some default

def toString? : Toml → Option String
  | .string s => some s
  | _ => none

def toNat? : Toml → Option Nat
  | .integer n => n.toInt.toNat?
  | _ => none

def isEmpty : Toml → Bool
  | .array items => items.isEmpty
  | .tables elements => elements.isEmpty
  | .table _ entries => entries.isEmpty
  | _ => false

/-- One of a fixed set of names: a string, or a table whose only key is the name and whose only
value is empty. -/
def oneOf? (choices : List (String × α)) : Toml → Option α
  | .string s => choices.lookup s
  | .table _ [(name, value)] => if value.isEmpty then choices.lookup name else none
  | _ => none

end GuildSandbox.Toml
