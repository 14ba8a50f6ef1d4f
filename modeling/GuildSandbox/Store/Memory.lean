import GuildSandbox.Store.Keyspace

set_option autoImplicit false
set_option relaxedAutoImplicit false

namespace GuildSandbox

open Time (Instant)

structure MemoryStore where
  guilds : Dict Keyspace := []
  deriving DecidableEq, Repr, Inhabited

namespace MemoryStore

def keyspace (s : MemoryStore) (guild : String) : Keyspace := (Dict.find? guild s.guilds).getD []

def withKeyspace (s : MemoryStore) (guild : String) (space : Keyspace) : MemoryStore :=
  { s with guilds := Dict.insert guild space s.guilds }

end MemoryStore

end GuildSandbox
