import GuildSandbox.Text.Blank

set_option autoImplicit false
set_option relaxedAutoImplicit false

namespace GuildSandbox.Path

def names (path : String) : List String := (Text.splitOn '/' path.toList).map String.ofList

def isHere (name : String) : Bool := name = "" || name = "."

def join (path name : String) : String :=
  if path = "" || path.toList.getLast? = some '/' then path ++ name else path ++ "/" ++ name

def withoutExtension (name : List Char) : List Char :=
  match (name.reverse.dropWhile (· ≠ '.')).drop 1 with
  | [] => name
  | base => base.reverse

/-- The last name of a path without its extension. A path that does not end in a name is given back
whole. -/
def stem (path : String) : String :=
  match ((names path).filter fun name => !isHere name).getLast? with
  | none => path
  | some name => if name = ".." then path else String.ofList (withoutExtension name.toList)

end GuildSandbox.Path
