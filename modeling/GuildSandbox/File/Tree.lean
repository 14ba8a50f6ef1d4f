import GuildSandbox.Dict
import GuildSandbox.File.Error
import GuildSandbox.File.Path

set_option autoImplicit false
set_option relaxedAutoImplicit false

namespace GuildSandbox

inductive FileNode where
  | text (content : String)
  /-- A file whose bytes are no text. -/
  | binary
  | directory
  deriving DecidableEq, Repr, Inhabited

abbrev FileTree := Dict FileNode

namespace FileTree

def key (place : List String) : String := "/".intercalate place

def node? (t : FileTree) (place : List String) : Option FileNode :=
  if place.isEmpty then some .directory else Dict.find? (key place) t

/-- The place that names lead to. Only directories are passed through; the last name may be new. -/
def walk (t : FileTree) (place : List String) : List String → Except FileError (List String)
  | [] => .ok place
  | name :: rest =>
    match t.node? place with
    | none => .error .missing
    | some .directory =>
      if Path.isHere name then walk t place rest
      else if name = ".." then walk t place.dropLast rest
      else walk t (place ++ [name]) rest
    | some _ => .error .notDirectory

def resolve (t : FileTree) (path : String) : Except FileError (List String) :=
  if path = "" then .error .missing else t.walk [] (Path.names path)

def holds (t : FileTree) (path : String) : Bool :=
  match t.resolve path with
  | .ok place => (t.node? place).isSome
  | .error _ => false

def readText (t : FileTree) (path : String) : Except FileError String := do
  match t.node? (← t.resolve path) with
  | some (.text content) => return content
  | some .binary => throw .notText
  | some .directory => throw .directory
  | none => throw .missing

def put (t : FileTree) (path : String) (node : FileNode) : Except FileError FileTree := do
  let place ← t.resolve path
  if t.node? place = some .directory then throw .directory
  return Dict.insert (key place) node t

def extend (t : FileTree) (place : List String) : List String → Except FileError FileTree
  | [] => .ok t
  | name :: rest =>
    if Path.isHere name then extend t place rest
    else if name = ".." then extend t place.dropLast rest
    else
      let inner := place ++ [name]
      match t.node? inner with
      | none => extend (Dict.insert (key inner) .directory t) inner rest
      | some .directory => extend t inner rest
      | some _ => .error (if rest.all Path.isHere then .occupied else .notDirectory)

def makeDirectories (t : FileTree) (path : String) : Except FileError FileTree :=
  t.extend [] (Path.names path)

/-- A tree with a node put at a path, with the directories on the way to it. -/
def grow (t : FileTree) (path : String) (node : FileNode) : Except FileError FileTree := do
  (← t.extend [] (Path.names path).dropLast).put path node

end FileTree

end GuildSandbox
