import GuildSandbox.File.Path
import GuildSandbox.Json.Printer
import GuildSandbox.Store.Keyspace

/-!
Stores in files of lines.

Each guild has a directory, named by its id, with one file in it. The file holds one entry a line
as JSON. Blank lines and lines that hold no entry are skipped when it is read. Every write replaces
the whole file.
-/

set_option autoImplicit false
set_option relaxedAutoImplicit false

namespace GuildSandbox

open Time (Instant)

inductive GuildFile where
  /-- Nothing yet; it can be created. -/
  | missing
  | text (content : String)
  /-- Something that cannot be read as a text. -/
  | unreadable (cause : FileError)
  /-- A file, where the directory of the guild belongs. -/
  | blocked
  deriving DecidableEq, Repr, Inhabited

namespace GuildFile

/-- The lines of a text. A line feed ends a line, with a carriage return before it. -/
def lines (content : String) : List (List Char) :=
  let pieces := Text.splitOn '\n' content.toList
  let pieces := if pieces.getLast? = some [] then pieces.dropLast else pieces
  pieces.map fun line => if line.getLast? = some '\r' then line.dropLast else line

def entryOfLine? (line : List Char) : Option Entry :=
  let line := Text.trim line
  if line.isEmpty then none else Entry.ofText? (String.ofList line)

def entriesOfText (content : String) : List Entry := (lines content).filterMap entryOfLine?

def textOfEntries (entries : List Entry) : String :=
  String.join (entries.map fun e => e.toJson.compact ++ "\n")

def load : GuildFile → Except StoreError Keyspace
  | .missing | .blocked => .ok []
  | .text content => .ok (Keyspace.ofEntries (entriesOfText content))
  | .unreadable cause => .error (.io cause)

def save (space : Keyspace) : GuildFile → Except StoreError GuildFile
  | .missing | .text _ => .ok (.text (textOfEntries space.entries))
  | .unreadable cause => .error (.io cause)
  | .blocked => .error (.io .occupied)

def ofRead : Except FileError String → GuildFile
  | .ok content => .text content
  | .error .missing => .missing
  | .error .notDirectory => .blocked
  | .error cause => .unreadable cause

end GuildFile

structure LineFileStore where
  files : Dict GuildFile := []
  deriving DecidableEq, Repr, Inhabited

namespace LineFileStore

def isGuildName (guild : String) : Bool :=
  !guild.toList.isEmpty &&
    guild.toList.all fun c => Text.isAlphanumeric c || c = '-' || c = '_'

def directory (base guild : String) : String := Path.join base guild

def path (base guild : String) : String := Path.join (directory base guild) "kv.jsonl"

def file (s : LineFileStore) (guild : String) : GuildFile :=
  (Dict.find? guild s.files).getD .missing

def load (s : LineFileStore) (guild : String) : Except StoreError Keyspace :=
  if isGuildName guild then (s.file guild).load else .error (.invalidGuild guild)

def save (s : LineFileStore) (guild : String) (space : Keyspace) :
    Except StoreError LineFileStore := do
  let file ← (s.file guild).save space
  return { s with files := Dict.insert guild file s.files }

end LineFileStore

end GuildSandbox
