import GuildSandbox.File.Tree
import GuildSandbox.Store.LineFile

set_option autoImplicit false
set_option relaxedAutoImplicit false

namespace GuildSandbox.LineFileStore

def fileIn (t : FileTree) (guild : String) : GuildFile := .ofRead (t.readText (path "" guild))

def ofTree (t : FileTree) : LineFileStore :=
  { files := Dict.ofPairs ((Dict.keys t).map fun guild => (guild, fileIn t guild)) }

end GuildSandbox.LineFileStore
