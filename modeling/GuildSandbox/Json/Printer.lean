import GuildSandbox.Json.Basic
import GuildSandbox.Number.Shortest

set_option autoImplicit false
set_option relaxedAutoImplicit false

namespace GuildSandbox.Json

def floatLayout : Number.FloatLayout := ⟨-5, 15, true⟩

def renderInt (n : Int) : List Char :=
  if n < 0 then '-' :: Nat.toDigits 10 n.natAbs else Nat.toDigits 10 n.natAbs

def renderNumber : JsonNumber → List Char
  | .int n _ => renderInt n
  | .float f _ => Number.writeFloat floatLayout f

def escapeChar (c : Char) : List Char :=
  if c = '"' then ['\\', '"']
  else if c = '\\' then ['\\', '\\']
  else if c = '\n' then ['\\', 'n']
  else if c = '\r' then ['\\', 'r']
  else if c = '\t' then ['\\', 't']
  else if c = '\x08' then ['\\', 'b']
  else if c = '\x0c' then ['\\', 'f']
  else if c.toNat < 32 then
    ['\\', 'u', '0', '0', Text.hexDigit (c.toNat / 16), Text.hexDigit (c.toNat % 16)]
  else [c]

def renderString (s : String) : List Char :=
  '"' :: (s.toList.flatMap escapeChar ++ ['"'])

mutual

def render : Json → List Char
  | .null => ['n', 'u', 'l', 'l']
  | .bool true => ['t', 'r', 'u', 'e']
  | .bool false => ['f', 'a', 'l', 's', 'e']
  | .num n => renderNumber n
  | .str s => renderString s
  | .arr [] => ['[', ']']
  | .arr (item :: rest) => '[' :: (render item ++ renderItems rest)
  | .obj [] => ['\x7b', '\x7d']
  | .obj ((name, value) :: rest) =>
    '\x7b' :: (renderString name ++ ':' :: (render value ++ renderFields rest))

def renderItems : List Json → List Char
  | [] => [']']
  | item :: rest => ',' :: (render item ++ renderItems rest)

def renderFields : List (String × Json) → List Char
  | [] => ['\x7d']
  | (name, value) :: rest =>
    ',' :: (renderString name ++ ':' :: (render value ++ renderFields rest))

end

def compact (j : Json) : String := String.ofList (render j)

def lineBreak (level : Nat) : List Char := '\n' :: List.replicate (2 * level) ' '

mutual

/-- The text of a tree with one item or field a line, at an indentation level. -/
def renderPretty (level : Nat) : Json → List Char
  | .arr [] => ['[', ']']
  | .arr (item :: rest) =>
    '[' :: (lineBreak (level + 1) ++ renderPretty (level + 1) item
      ++ renderPrettyItems level rest)
  | .obj [] => ['\x7b', '\x7d']
  | .obj ((name, value) :: rest) =>
    '\x7b' :: (lineBreak (level + 1) ++ renderString name ++ [':', ' ']
      ++ renderPretty (level + 1) value ++ renderPrettyFields level rest)
  | .null => render .null
  | .bool b => render (.bool b)
  | .num n => render (.num n)
  | .str s => render (.str s)

/-- The items after the first one, each on its line, and the closing bracket. -/
def renderPrettyItems (level : Nat) : List Json → List Char
  | [] => lineBreak level ++ [']']
  | item :: rest =>
    ',' :: (lineBreak (level + 1) ++ renderPretty (level + 1) item
      ++ renderPrettyItems level rest)

/-- The fields after the first one, each on its line, and the closing brace. -/
def renderPrettyFields (level : Nat) : List (String × Json) → List Char
  | [] => lineBreak level ++ ['\x7d']
  | (name, value) :: rest =>
    ',' :: (lineBreak (level + 1) ++ renderString name ++ [':', ' ']
      ++ renderPretty (level + 1) value ++ renderPrettyFields level rest)

end

def pretty (j : Json) : String := String.ofList (renderPretty 0 j)

end GuildSandbox.Json
