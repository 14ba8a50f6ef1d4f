import GuildSandbox.Store.LineFile
import GuildSandbox.Store.Memory

/-!
Stores: entries of many guilds, in memory or in files.

Both kinds work alike: find the keyspace of the guild, apply an operation to it, keep the result.
Memory keeps what the operation left of the keyspace in any case; a file is written only by an
operation that succeeded and changed something, and expired entries stay in it until then.
-/

set_option autoImplicit false
set_option relaxedAutoImplicit false

namespace GuildSandbox

open Time (Instant)

inductive Store where
  | memory (store : MemoryStore)
  | files (store : LineFileStore)
  deriving DecidableEq, Repr, Inhabited

/-- What is done to a store at an instant. It may change the store even when it fails. -/
abbrev StoreAction := ReaderT Instant (ExceptT StoreError (StateM Store))

namespace Store

def load (s : Store) (guild : String) : Except StoreError Keyspace :=
  match s with
  | .memory m => .ok (m.keyspace guild)
  | .files f => f.load guild

/-- The store after an operation on the keyspace of a guild. A file is written only when the
operation changed it. -/
def keep (s : Store) (guild : String) (space : Keyspace) (changed : Bool) :
    Except StoreError Store :=
  match s with
  | .memory m => .ok (.memory (m.withKeyspace guild space))
  | .files f => if changed then (f.save guild space).map .files else .ok (.files f)

def look {α : Type} (guild : String) (ask : Keyspace → Instant → α) : StoreAction α := do
  let space ← (← getThe Store).load guild
  return ask space (← read)

/-- An operation changed something when it succeeded with a result that counts as a change. -/
def isChange {α : Type} (counts : α → Bool) : Except StoreError α → Bool
  | .ok a => counts a
  | .error _ => false

def change {α : Type} (guild : String) (counts : α → Bool)
    (operation : Keyspace → Instant → Except StoreError α × Keyspace) : StoreAction α := do
  let store ← getThe Store
  let (result, space) := operation (← store.load guild) (← read)
  MonadStateOf.set (← store.keep guild space (isChange counts result))
  result

def get (guild key : String) : StoreAction (Option Entry) :=
  look guild fun space now => space.get? key now

def set (entry : Entry) (maxKeys : Nat) : StoreAction Unit :=
  change entry.guild (fun _ => true) fun space now => space.set entry maxKeys now

/-- Replaces the value at a key by the result of `next` on the current entry. -/
def update (guild key : String) (maxKeys : Nat)
    (next : Option Entry → Except StoreError String) : StoreAction Entry :=
  change guild (fun _ => true) fun space now => space.update guild key maxKeys next now

/-- Takes the live entry at a key out. No file is written when there is none. -/
def delete (guild key : String) : StoreAction (Option Entry) :=
  change guild Option.isSome fun space now =>
    let (removed, space) := space.delete key now
    (.ok removed, space)

def count (guild : String) : StoreAction Nat := look guild Keyspace.count

def search (guild pattern : String) : StoreAction (List Entry) :=
  look guild fun space now => space.search pattern now

def run {α : Type} (s : Store) (now : Instant) (action : StoreAction α) :
    Except StoreError α × Store :=
  (action now).run s

end Store

end GuildSandbox
