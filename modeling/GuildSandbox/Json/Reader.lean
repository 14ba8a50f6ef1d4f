import GuildSandbox.Json.Basic
import GuildSandbox.Number.Literal

/-!
Reading JSON text.

A text holds one value with blanks around it. Arrays and objects nest at most 127 deep. Integer
literals that fit in 64 bits stay integers, all others become binary64 numbers, and a literal too
large for one is an error, as are unpaired surrogates. Fields are kept in the order of the text,
repeated names included.
-/

set_option autoImplicit false
set_option relaxedAutoImplicit false

namespace GuildSandbox.Json

def isSpace (c : Char) : Bool := c = ' ' || c = '\n' || c = '\t' || c = '\r'

def skipSpace (cs : List Char) : List Char := cs.dropWhile isSpace

def hexUnit? (a b c d : Char) : Option Nat := do
  let a ← Text.hexValue? a
  let b ← Text.hexValue? b
  let c ← Text.hexValue? c
  let d ← Text.hexValue? d
  return ((a * 16 + b) * 16 + c) * 16 + d

def isLeadSurrogate (n : Nat) : Bool := 0xd800 ≤ n && n < 0xdc00

def isTrailSurrogate (n : Nat) : Bool := 0xdc00 ≤ n && n < 0xe000

def joinSurrogates (lead trail : Nat) : Char :=
  Char.ofNat (0x10000 + (lead - 0xd800) * 0x400 + (trail - 0xdc00))

def shortEscape? : Char → Option Char
  | '"' => some '"'
  | '\\' => some '\\'
  | '/' => some '/'
  | 'b' => some '\x08'
  | 'f' => some '\x0c'
  | 'n' => some '\n'
  | 'r' => some '\r'
  | 't' => some '\t'
  | _ => none

/-- The rest of a string after its opening quotation mark; `acc` holds the characters read so far,
last one first. -/
def readString (acc : List Char) : List Char → Option (String × List Char)
  | [] => none
  | '"' :: rest => some (String.ofList acc.reverse, rest)
  | '\\' :: 'u' :: a :: b :: c :: d :: rest =>
    match hexUnit? a b c d with
    | none => none
    | some unit =>
      if isTrailSurrogate unit then none
      else if isLeadSurrogate unit then
        match rest with
        | '\\' :: 'u' :: e :: f :: g :: h :: rest =>
          match hexUnit? e f g h with
          | none => none
          | some trail =>
            if isTrailSurrogate trail then readString (joinSurrogates unit trail :: acc) rest
            else none
        | _ => none
      else readString (Char.ofNat unit :: acc) rest
  | '\\' :: c :: rest =>
    match shortEscape? c with
    | none => none
    | some e => readString (e :: acc) rest
  | c :: rest => if c = '\\' || c.toNat < 32 then none else readString (c :: acc) rest

def takeDigits (cs : List Char) : List Char × List Char := cs.span Text.isDigit

def floatNumber? (negative : Bool) (digits fraction : List Char) (exponent : Int) :
    Option JsonNumber :=
  let f := Number.nearest digits fraction exponent
  JsonNumber.ofFloat? (if negative then -f else f)

def integerNumber? (negative : Bool) (digits : List Char) : Option JsonNumber :=
  let n := Text.digitsValue digits
  if negative then
    if n = 0 then floatNumber? true digits [] 0
    else if n ≤ 9223372036854775808 then JsonNumber.ofInt? (-(n : Int))
    else floatNumber? true digits [] 0
  else (JsonNumber.ofInt? n).or (floatNumber? false digits [] 0)

def readFraction (cs : List Char) : Option (Option (List Char) × List Char) :=
  match cs with
  | '.' :: rest =>
    let (fraction, rest) := takeDigits rest
    if fraction.isEmpty then none else some (some fraction, rest)
  | _ => some (none, cs)

def readSign : List Char → Bool × List Char
  | '+' :: rest => (false, rest)
  | '-' :: rest => (true, rest)
  | rest => (false, rest)

def readExponent (cs : List Char) : Option (Option Int × List Char) :=
  match cs with
  | c :: rest =>
    if c = 'e' || c = 'E' then
      let (negative, rest) := readSign rest
      let (digits, rest) := takeDigits rest
      if digits.isEmpty then none
      else
        let n : Int := Text.digitsValue digits
        some (some (if negative then -n else n), rest)
    else some (none, cs)
  | [] => some (none, cs)

/-- The number of a literal: an integer when it has neither fraction nor exponent. -/
def literalNumber? (negative : Bool) (digits : List Char) :
    Option (List Char) → Option Int → Option JsonNumber
  | none, none => integerNumber? negative digits
  | fraction, exponent => floatNumber? negative digits (fraction.getD []) (exponent.getD 0)

/-- The digits before the point of a number are not empty and have no needless zero in front. -/
def isWhole (digits : List Char) : Bool :=
  !digits.isEmpty && (digits.head? ≠ some '0' || digits.length ≤ 1)

def readNumber (negative : Bool) (cs : List Char) : Option (JsonNumber × List Char) :=
  let (digits, rest) := takeDigits cs
  if isWhole digits then do
    let (fraction, rest) ← readFraction rest
    let (exponent, rest) ← readExponent rest
    let n ← literalNumber? negative digits fraction exponent
    return (n, rest)
  else none

/-- The items of an array after its opening bracket. The fuel bounds their number. -/
def readItems (value : List Char → Option (Json × List Char)) :
    Nat → List Json → List Char → Option (List Json × List Char)
  | 0, _, _ => none
  | fuel + 1, acc, cs => do
    let (item, rest) ← value cs
    match skipSpace rest with
    | ',' :: rest => readItems value fuel (item :: acc) rest
    | ']' :: rest => some ((item :: acc).reverse, rest)
    | _ => none

/-- The fields of an object after its opening brace. The fuel bounds their number. -/
def readFields (value : List Char → Option (Json × List Char)) :
    Nat → List (String × Json) → List Char → Option (List (String × Json) × List Char)
  | 0, _, _ => none
  | fuel + 1, acc, cs => do
    match skipSpace cs with
    | '"' :: rest =>
      let (name, rest) ← readString [] rest
      match skipSpace rest with
      | ':' :: rest =>
        let (item, rest) ← value rest
        match skipSpace rest with
        | ',' :: rest => readFields value fuel ((name, item) :: acc) rest
        | '\x7d' :: rest => some (((name, item) :: acc).reverse, rest)
        | _ => none
      | _ => none
    | _ => none

def readValue (depth : Nat) (cs : List Char) : Option (Json × List Char) :=
  match skipSpace cs with
  | 'n' :: 'u' :: 'l' :: 'l' :: rest => some (.null, rest)
  | 't' :: 'r' :: 'u' :: 'e' :: rest => some (.bool true, rest)
  | 'f' :: 'a' :: 'l' :: 's' :: 'e' :: rest => some (.bool false, rest)
  | '"' :: rest => (readString [] rest).map fun (s, rest) => (.str s, rest)
  | '-' :: rest => (readNumber true rest).map fun (n, rest) => (.num n, rest)
  | '[' :: rest =>
    match depth with
    | 0 => none
    | inner + 1 =>
      match skipSpace rest with
      | ']' :: rest => some (.arr [], rest)
      | rest =>
        (readItems (readValue inner) (rest.length + 1) [] rest).map
          fun (items, rest) => (.arr items, rest)
  | '\x7b' :: rest =>
    match depth with
    | 0 => none
    | inner + 1 =>
      match skipSpace rest with
      | '\x7d' :: rest => some (.obj [], rest)
      | rest =>
        (readFields (readValue inner) (rest.length + 1) [] rest).map
          fun (fields, rest) => (.obj fields, rest)
  | rest => (readNumber false rest).map fun (n, rest) => (.num n, rest)

theorem readValue_string (depth : Nat) (cs : List Char) :
    readValue depth ('"' :: cs) = (readString [] cs).map fun (s, rest) => (.str s, rest) := by
  have here : skipSpace ('"' :: cs) = '"' :: cs := rfl
  unfold readValue
  simp [here]

theorem readValue_minus (depth : Nat) (cs : List Char) :
    readValue depth ('-' :: cs) = (readNumber true cs).map fun (n, rest) => (.num n, rest) := by
  have here : skipSpace ('-' :: cs) = '-' :: cs := rfl
  unfold readValue
  simp [here]

def maxNesting : Nat := 127

def parse? (text : String) : Option Json := do
  let (value, rest) ← readValue maxNesting text.toList
  if (skipSpace rest).isEmpty then some value else none

/-- The canonical tree of a text: sorted fields, the last of several of one name. -/
def parseCanonical? (text : String) : Option Json := (parse? text).map canonical

end GuildSandbox.Json
