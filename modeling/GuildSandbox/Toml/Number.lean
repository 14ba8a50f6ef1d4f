import GuildSandbox.Number.Literal
import GuildSandbox.Toml.Basic

set_option autoImplicit false
set_option relaxedAutoImplicit false

namespace GuildSandbox.Toml

def isGrouped (isDigit : Char → Bool) : List Char → Bool
  | [] => false
  | [c] => isDigit c
  | c :: '_' :: rest => isDigit c && isGrouped isDigit rest
  | c :: rest => isDigit c && isGrouped isDigit rest

def takeGrouped? (isDigit : Char → Bool) (cs : List Char) : Option (List Char × List Char) :=
  let (run, rest) := cs.span fun c => isDigit c || c = '_'
  if isGrouped isDigit run then some (run.filter (· ≠ '_'), rest) else none

/-- The digits of a whole decimal number: no zero in front of another digit. -/
def takeWhole? (cs : List Char) : Option (List Char × List Char) := do
  let (digits, rest) ← takeGrouped? Text.isDigit cs
  if digits.head? = some '0' && digits.length > 1 then none else some (digits, rest)

def digitIn? (base : Nat) (c : Char) : Option Nat :=
  (Text.hexValue? c).filter (· < base)

def readBased? (base : Nat) (cs : List Char) : Option (Toml × List Char) := do
  let (digits, rest) ← takeGrouped? (fun c => (digitIn? base c).isSome) cs
  let value := digits.foldl (fun n c => n * base + (digitIn? base c).getD 0) 0
  return (.integer (← Number.Binary64.int64? value), rest)

def readExponent? (cs : List Char) : Option (Option Int × List Char) :=
  match cs with
  | c :: rest =>
    if c = 'e' || c = 'E' then do
      let (negative, rest) := match rest with
        | '-' :: r => (true, r)
        | '+' :: r => (false, r)
        | r => (false, r)
      let (digits, rest) ← takeGrouped? Text.isDigit rest
      let n : Int := Text.digitsValue digits
      return (some (if negative then -n else n), rest)
    else some (none, cs)
  | [] => some (none, cs)

def readFraction? : List Char → Option (Option (List Char) × List Char)
  | '.' :: rest => (takeGrouped? Text.isDigit rest).map fun (digits, rest) => (some digits, rest)
  | cs => some (none, cs)

def readDecimal? (negative : Bool) (cs : List Char) : Option (Toml × List Char) := do
  let (whole, rest) ← takeWhole? cs
  let (fraction, rest) ← readFraction? rest
  let (exponent, rest) ← readExponent? rest
  match fraction, exponent with
  | none, none =>
    let n : Int := Text.digitsValue whole
    return (.integer (← Number.Binary64.int64? (if negative then -n else n)), rest)
  | _, _ =>
    let f := Number.nearest whole (fraction.getD []) (exponent.getD 0)
    if negative then return (.float (-f), rest)
    else if Number.Binary64.isFinite f then return (.float f, rest)
    else none

def readSigned? (negative : Bool) : List Char → Option (Toml × List Char)
  | 'i' :: 'n' :: 'f' :: rest => some (.float (if negative then -1.0 / 0.0 else 1.0 / 0.0), rest)
  | 'n' :: 'a' :: 'n' :: rest => some (.float (0.0 / 0.0), rest)
  | cs => readDecimal? negative cs

def readNumber? : List Char → Option (Toml × List Char)
  | '0' :: 'x' :: rest => readBased? 16 rest
  | '0' :: 'o' :: rest => readBased? 8 rest
  | '0' :: 'b' :: rest => readBased? 2 rest
  | '+' :: rest => readSigned? false rest
  | '-' :: rest => readSigned? true rest
  | cs => readSigned? false cs

end GuildSandbox.Toml
