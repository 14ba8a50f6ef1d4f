import GuildSandbox.Toml.Document
import GuildSandbox.Toml.Number
import GuildSandbox.Toml.Quoted

set_option autoImplicit false
set_option relaxedAutoImplicit false

namespace GuildSandbox.Toml

def maxNesting : Nat := 79

def skipSpace (cs : List Char) : List Char := cs.dropWhile isSpace

def skipComment : List Char → List Char
  | '#' :: rest => rest.dropWhile isPlain
  | cs => cs

/-- What follows the end of a line, which blanks and a comment may come before. -/
def lineEnd? (cs : List Char) : Option (List Char) :=
  match skipComment (skipSpace cs) with
  | [] => some []
  | rest => lineBreak? rest

/-- The text behind blanks, comments and line breaks. The fuel bounds the number of lines. -/
def skipLines : Nat → List Char → Option (List Char)
  | 0, _ => none
  | fuel + 1, cs =>
    match skipSpace cs with
    | '#' :: rest => do skipLines fuel (← lineBreak? (rest.dropWhile isPlain))
    | '\n' :: rest => skipLines fuel rest
    | '\r' :: rest => do skipLines fuel (← lineBreak? ('\r' :: rest))
    | rest => some rest

def skipGap? (cs : List Char) : Option (List Char) := skipLines (cs.length + 1) cs

def isBare (c : Char) : Bool := Text.isAlphanumeric c || c = '_' || c = '-'

def readPart? (cs : List Char) : Option (String × List Char) :=
  match cs.span isBare with
  | ([], rest) => readLineString? rest
  | (name, rest) => some (String.ofList name, rest)

/-- The parts of a dotted key, with the blanks around them. The fuel bounds their number. -/
def readParts : Nat → List Char → Option (List String × List Char)
  | 0, _ => none
  | fuel + 1, cs => do
    let (part, rest) ← readPart? (skipSpace cs)
    match skipSpace rest with
    | '.' :: rest =>
      let (parts, rest) ← readParts fuel rest
      return (part :: parts, rest)
    | rest => return ([part], rest)

def readKey? (cs : List Char) : Option (List String × List Char) := readParts maxNesting cs

/-- The items of an array after its opening bracket. The fuel bounds their number. -/
def readItems (value? : List Char → Option (Toml × List Char)) :
    Nat → List Toml → List Char → Option (List Toml × List Char)
  | 0, _, _ => none
  | fuel + 1, acc, cs => do
    match ← skipGap? cs with
    | ']' :: rest => return (acc.reverse, rest)
    | cs =>
      let (item, rest) ← value? cs
      match ← skipGap? rest with
      | ',' :: rest => readItems value? fuel (item :: acc) rest
      | ']' :: rest => return ((item :: acc).reverse, rest)
      | _ => none

def readEntry? (value? : List Char → Option (Toml × List Char)) (cs : List Char) :
    Option ((List String × Toml) × List Char) := do
  match ← readKey? cs with
  | (path, '=' :: rest) =>
    let (value, rest) ← value? (skipSpace rest)
    return ((path, value), rest)
  | _ => none

/-- The entries of a table after its opening brace. The fuel bounds their number. -/
def readEntries (value? : List Char → Option (Toml × List Char)) :
    Nat → List (List String × Toml) → List Char →
      Option (List (List String × Toml) × List Char)
  | 0, _, _ => none
  | fuel + 1, acc, cs => do
    let (entry, rest) ← readEntry? value? cs
    match skipSpace rest with
    | ',' :: rest => readEntries value? fuel (entry :: acc) rest
    | '\x7d' :: rest => return ((entry :: acc).reverse, rest)
    | _ => none

def readValue? (depth : Nat) (cs : List Char) : Option (Toml × List Char) :=
  match cs with
  | '"' :: _ => (readString? cs).map fun (s, rest) => (.string s, rest)
  | '\'' :: _ => (readString? cs).map fun (s, rest) => (.string s, rest)
  | 't' :: 'r' :: 'u' :: 'e' :: rest => some (.boolean true, rest)
  | 'f' :: 'a' :: 'l' :: 's' :: 'e' :: rest => some (.boolean false, rest)
  | '[' :: rest =>
    match depth with
    | 0 => none
    | inner + 1 =>
      (readItems (readValue? inner) (rest.length + 1) [] rest).map
        fun (items, rest) => (.array items, rest)
  | '\x7b' :: rest =>
    match depth with
    | 0 => none
    | inner + 1 =>
      match skipSpace rest with
      | '\x7d' :: rest => some (.table .braces [], rest)
      | cs => do
        let (entries, rest) ← readEntries (readValue? inner) (cs.length + 1) [] cs
        return (.table .braces (← assignAll? entries []), rest)
  | cs => readNumber? cs

def readHeader? (repeated : Bool) (cs : List Char) : Option (Line × List Char) := do
  let (path, rest) ← readKey? cs
  let rest ← match repeated, rest with
    | true, ']' :: ']' :: rest => some rest
    | false, ']' :: rest => some rest
    | _, _ => none
  return (.header path repeated, ← lineEnd? rest)

def readLine? : List Char → Option (Line × List Char)
  | '[' :: '[' :: rest => readHeader? true rest
  | '[' :: rest => readHeader? false rest
  | cs => do
    let ((path, value), rest) ← readEntry? (readValue? maxNesting) cs
    return (.entry path value, ← lineEnd? rest)

/-- The lines of a text; `acc` holds those so far, last one first. The fuel bounds their number. -/
def readLines : Nat → List Line → List Char → Option (List Line)
  | 0, _, _ => none
  | fuel + 1, acc, cs => do
    match skipSpace cs with
    | [] => return acc.reverse
    | '#' :: rest => readLines fuel acc (← lineEnd? ('#' :: rest))
    | '\n' :: rest => readLines fuel acc rest
    | '\r' :: rest => readLines fuel acc (← lineBreak? ('\r' :: rest))
    | cs =>
      let (line, rest) ← readLine? cs
      readLines fuel (line :: acc) rest

def dropMark : List Char → List Char
  | '\ufeff' :: rest => rest
  | cs => cs

def parse? (text : String) : Option (Dict Toml) := do
  let cs := dropMark text.toList
  ofLines? (← readLines (cs.length + 1) [] cs)

end GuildSandbox.Toml
