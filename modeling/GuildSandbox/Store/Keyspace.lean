import GuildSandbox.Store.Entry
import GuildSandbox.Store.Error
import GuildSandbox.Store.Pattern

/-!
The entries of one guild.

Every operation is given the current instant and treats expired entries as absent. Operations that
write drop them first, so that the number of keys is a number of live entries. A new key is refused
once there are as many keys as allowed; an existing one can always be written and keeps the time of
its creation.
-/

set_option autoImplicit false
set_option relaxedAutoImplicit false

namespace GuildSandbox

open Time (Instant)

abbrev Keyspace := Dict Entry

namespace Keyspace

/-- The entries under their own keys; of several with one key the last stays. -/
def ofEntries (entries : List Entry) : Keyspace := Dict.ofPairs (entries.map fun e => (e.key, e))

def entries (space : Keyspace) : List Entry := space.map Prod.snd

def purge (space : Keyspace) (now : Instant) : Keyspace := space.filter fun p => p.2.isLive now

def get? (space : Keyspace) (key : String) (now : Instant) : Option Entry :=
  (Dict.find? key space).filter fun e => e.isLive now

def count (space : Keyspace) (now : Instant) : Nat := (space.purge now).length

/-- Writes an entry. An existing one passes on the time of its creation. The expired entries are gone
also when the new one is refused. -/
def set (space : Keyspace) (entry : Entry) (maxKeys : Nat) (now : Instant) :
    Except StoreError Unit × Keyspace :=
  let space := space.purge now
  match Dict.find? entry.key space with
  | some old => (.ok (), Dict.insert entry.key { entry with createdAt := old.createdAt } space)
  | none =>
    if maxKeys ≤ space.length then (.error (.quotaExceeded maxKeys), space)
    else (.ok (), Dict.insert entry.key entry space)

/-- The entry with the result of `next` on the current entry as its value. A new one never expires. -/
def updated (space : Keyspace) (guild key : String) (maxKeys : Nat)
    (next : Option Entry → Except StoreError String) (now : Instant) : Except StoreError Entry :=
  match Dict.find? key space with
  | some old => do return { old with value := ← next (some old), updatedAt := now }
  | none =>
    if maxKeys ≤ space.length then .error (.quotaExceeded maxKeys)
    else do
      return {
        guild := guild, key := key, value := ← next none, createdAt := now, updatedAt := now }

/-- Replaces the value at a key by the result of `next` on the current entry, and gives the entry
written. The expired entries are gone also when nothing is written. -/
def update (space : Keyspace) (guild key : String) (maxKeys : Nat)
    (next : Option Entry → Except StoreError String) (now : Instant) :
    Except StoreError Entry × Keyspace :=
  let space := space.purge now
  match space.updated guild key maxKeys next now with
  | .ok entry => (.ok entry, Dict.insert key entry space)
  | .error e => (.error e, space)

def delete (space : Keyspace) (key : String) (now : Instant) : Option Entry × Keyspace :=
  let space := space.purge now
  (Dict.find? key space, Dict.erase key space)

def search (space : Keyspace) (pattern : String) (now : Instant) : List Entry :=
  (space.purge now).entries.filter fun e => Pattern.isMatch pattern e.key

end Keyspace

end GuildSandbox
