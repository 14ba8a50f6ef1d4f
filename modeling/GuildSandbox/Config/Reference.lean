import GuildSandbox.Text.Blank

set_option autoImplicit false
set_option relaxedAutoImplicit false

namespace GuildSandbox.Config

inductive Part where
  /-- A character that stands for itself. -/
  | char (c : Char)
  /-- The value of a variable, or the default when the variable is unset. -/
  | reference (name : String) (default : Option String)
  deriving DecidableEq, Repr, Inhabited

def isNameChar (c : Char) : Bool := Text.isAlphanumeric c || c = '_'

def splitDefault? : List Char → Option (List Char × List Char)
  | [] => none
  | ':' :: '-' :: rest => some ([], rest)
  | c :: rest => (splitDefault? rest).map fun (before, behind) => (c :: before, behind)

/-- The reference that stands in braces. A default needs a name before it. -/
def inBraces (inside : List Char) : Part :=
  match splitDefault? inside with
  | some (c :: name, default) =>
    .reference (String.ofList (c :: name)) (some (String.ofList default))
  | _ => .reference (String.ofList inside) none

def parts : List Char → List Part
  | [] => []
  | '$' :: '$' :: rest => .char '$' :: parts rest
  | '$' :: '\x7b' :: rest =>
    match h : rest.dropWhile (· ≠ '\x7d') with
    | [] => .char '$' :: .char '\x7b' :: parts rest
    | _ :: behind =>
      have : behind.length < rest.length := by
        have := (List.dropWhile_sublist (l := rest) (· ≠ '\x7d')).length_le
        rw [h] at this
        exact this
      inBraces (rest.takeWhile (· ≠ '\x7d')) :: parts behind
  | '$' :: c :: rest =>
    if isNameChar c then
      have : (rest.dropWhile isNameChar).length ≤ rest.length :=
        (List.dropWhile_sublist _).length_le
      .reference (String.ofList (c :: rest.takeWhile isNameChar)) none ::
        parts (rest.dropWhile isNameChar)
    else .char '$' :: parts (c :: rest)
  | c :: rest => .char c :: parts rest
termination_by cs => cs.length

def Part.name? : Part → Option String
  | .char _ => none
  | .reference name _ => some name

def references (text : String) : List String := (parts text.toList).filterMap Part.name?

/-- What a part stands for; a variable that is unset and has no default is an error. -/
def Part.expand (environment : String → Option String) : Part → Except String (List Char)
  | .char c => .ok [c]
  | .reference name default =>
    match (environment name).or default with
    | some value => .ok value.toList
    | none => .error name

/-- A text with its references replaced, or the first variable that has no value. -/
def expand (environment : String → Option String) (text : String) : Except String String := do
  let pieces ← (parts text.toList).mapM (Part.expand environment)
  return String.ofList pieces.flatten

end GuildSandbox.Config
