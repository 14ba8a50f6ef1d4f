import GuildSandbox.Json.Reader

/-!
Reading some fields of an object and skipping the others.

What is skipped has to be spelled like a value, and no more is asked of it: its numbers may be out of
range, its surrogates unpaired, and it may nest as deep as it likes.
-/

set_option autoImplicit false
set_option relaxedAutoImplicit false

namespace GuildSandbox.Json

def skipString : List Char → Option (List Char)
  | [] => none
  | '"' :: rest => some rest
  | '\\' :: 'u' :: a :: b :: c :: d :: rest =>
    if (hexUnit? a b c d).isSome then skipString rest else none
  | '\\' :: c :: rest => if (shortEscape? c).isSome then skipString rest else none
  | c :: rest => if c = '\\' || c.toNat < 32 then none else skipString rest

def skipNumber (cs : List Char) : Option (List Char) := do
  let (digits, rest) := takeDigits cs
  if isWhole digits then
    let (_, rest) ← readFraction rest
    let (_, rest) ← readExponent rest
    return rest
  else none

/-- What follows the items of an array after its opening bracket. The fuel bounds their number. -/
def skipItems (skip : List Char → Option (List Char)) : Nat → List Char → Option (List Char)
  | 0, _ => none
  | fuel + 1, cs => do
    match skipSpace (← skip cs) with
    | ',' :: rest => skipItems skip fuel rest
    | ']' :: rest => some rest
    | _ => none

/-- What follows the fields of an object after its opening brace. The fuel bounds their number. -/
def skipFields (skip : List Char → Option (List Char)) : Nat → List Char → Option (List Char)
  | 0, _ => none
  | fuel + 1, cs => do
    match skipSpace cs with
    | '"' :: rest =>
      match skipSpace (← skipString rest) with
      | ':' :: rest =>
        match skipSpace (← skip rest) with
        | ',' :: rest => skipFields skip fuel rest
        | '\x7d' :: rest => some rest
        | _ => none
      | _ => none
    | _ => none

/-- What follows a value, in which arrays and objects may nest `depth` deep. -/
def skipValue (depth : Nat) (cs : List Char) : Option (List Char) :=
  match skipSpace cs with
  | 'n' :: 'u' :: 'l' :: 'l' :: rest => some rest
  | 't' :: 'r' :: 'u' :: 'e' :: rest => some rest
  | 'f' :: 'a' :: 'l' :: 's' :: 'e' :: rest => some rest
  | '"' :: rest => skipString rest
  | '-' :: rest => skipNumber rest
  | '[' :: rest =>
    match depth with
    | 0 => none
    | inner + 1 =>
      match skipSpace rest with
      | ']' :: rest => some rest
      | rest => skipItems (skipValue inner) (rest.length + 1) rest
  | '\x7b' :: rest =>
    match depth with
    | 0 => none
    | inner + 1 =>
      match skipSpace rest with
      | '\x7d' :: rest => some rest
      | rest => skipFields (skipValue inner) (rest.length + 1) rest
  | rest => skipNumber rest

/-- The fields of an object that have one of some names; the others are skipped. No value nests deeper
than it has characters. -/
def readKnown (names : List String) :
    Nat → List (String × Json) → List Char → Option (List (String × Json) × List Char)
  | 0, _, _ => none
  | fuel + 1, acc, cs => do
    match skipSpace cs with
    | '"' :: rest =>
      let (name, rest) ← readString [] rest
      match skipSpace rest with
      | ':' :: rest =>
        let (acc, rest) ←
          if names.contains name then
            (readValue (maxNesting - 1) rest).map fun (item, rest) => ((name, item) :: acc, rest)
          else (skipValue rest.length rest).map fun rest => (acc, rest)
        match skipSpace rest with
        | ',' :: rest => readKnown names fuel acc rest
        | '\x7d' :: rest => some (acc.reverse, rest)
        | _ => none
      | _ => none
    | _ => none

/-- The tree of a text as a record with fields of some names sees it: an object without its other
fields, or any other tree. -/
def parseRecord? (names : List String) (text : String) : Option Json :=
  match skipSpace text.toList with
  | '\x7b' :: rest =>
    match skipSpace rest with
    | '\x7d' :: rest => if (skipSpace rest).isEmpty then some (.obj []) else none
    | rest => do
      let (fields, rest) ← readKnown names (rest.length + 1) [] rest
      if (skipSpace rest).isEmpty then some (.obj fields) else none
  | _ => parse? text

end GuildSandbox.Json
