import GuildSandbox.Store.Basic
import GuildSandbox.Value.Tagged

set_option autoImplicit false
set_option relaxedAutoImplicit false

namespace GuildSandbox

open Time (Instant)

/-- A request to the store: refused before the store is contacted, or an action on it. -/
abbrev StoreRequest (α : Type) := Except StoreError (StoreAction α)

namespace StoreRequest

def toAction {α : Type} : StoreRequest α → StoreAction α
  | .ok action => action
  | .error e => throw e

end StoreRequest

namespace StoreHandle

def checkKey (h : StoreHandle) (key : String) : Except StoreError Unit :=
  if h.limits.maxKeyLength < key.utf8ByteSize then .error (.keyTooLong h.limits.maxKeyLength)
  else .ok ()

def valueText (value : Value) : Except StoreError String := value.toJsonText.mapError .value

def valueOf (entry : Entry) : Except StoreError Value :=
  (Value.ofJsonText entry.value).mapError .value

def valueOf? : Option Entry → Except StoreError Value
  | some entry => valueOf entry
  | none => .ok .unit

/-- When an entry written now expires, given its lifetime in milliseconds. -/
def expiry (now : Instant) (lifetime : Option Nat) : Option Instant := lifetime >>= now.addMillis?

def set (h : StoreHandle) (key : String) (value : Value) (lifetime : Option Nat)
    (now : Instant) : Except StoreError (StoreAction Unit) := do
  h.checkKey key
  let text ← valueText value
  if h.limits.maxValueLength < text.utf8ByteSize then
    .error (.valueTooLong h.limits.maxValueLength)
  else
    return Store.set
      { guild := h.guild, key := key, value := text, expiresAt := expiry now lifetime
        createdAt := now, updatedAt := now }
      h.limits.maxKeys

def get (h : StoreHandle) (key : String) : StoreRequest Value :=
  .ok do valueOf? (← Store.get h.guild key)

/-- Takes the stored value out; the entry is gone even when its text cannot be read. -/
def delete (h : StoreHandle) (key : String) : StoreRequest Value :=
  .ok do valueOf? (← Store.delete h.guild key)

/-- The sum of a stored number and a difference; an absent one counts as zero. -/
def increased (key : String) (delta : Int64) : Option Entry → Except StoreError Value
  | none => .ok (.int delta)
  | some entry => do
    match ← valueOf entry with
    | .int n =>
      match Number.Binary64.int64? (n.toInt + delta.toInt) with
      | some sum => .ok (.int sum)
      | none => .error (.overflow key)
    | .float f => .ok (.float (f + Number.Binary64.ofInt delta.toInt))
    | value => .error (.typeMismatch key value.typeName)

def increase (h : StoreHandle) (key : String) (delta : Int64) :
    Except StoreError (StoreAction Value) := do
  h.checkKey key
  return do
    let entry ← Store.update h.guild key h.limits.maxKeys fun current => do
      valueText (← increased key delta current)
    valueOf entry

def valuesOf : List Entry → Except StoreError (List (String × Value))
  | [] => .ok []
  | entry :: rest => do
    let value ← valueOf entry
    return (entry.key, value) :: (← valuesOf rest)

def search (h : StoreHandle) (pattern : String) : StoreRequest (List (String × Value)) :=
  .ok do valuesOf (← Store.search h.guild pattern)

def count (h : StoreHandle) : StoreRequest Nat := .ok (Store.count h.guild)

end StoreHandle

end GuildSandbox
