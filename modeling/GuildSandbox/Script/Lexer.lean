import GuildSandbox.Number.Literal
import GuildSandbox.Script.Limits
import GuildSandbox.Script.Refusal
import GuildSandbox.Script.Token

set_option autoImplicit false
set_option relaxedAutoImplicit false

namespace GuildSandbox.Script.Lexer

def isLetter (c : Char) : Bool := Text.isAlphanumeric c && !Text.isDigit c

def isWordChar (c : Char) : Bool := Text.isAlphanumeric c || c = '_'

/-- What follows a comment between marks; such comments nest, and an open one ends the text. -/
def skipComment : Nat → List Char → List Char
  | _, [] => []
  | level, '*' :: '/' :: rest => if level ≤ 1 then rest else skipComment (level - 1) rest
  | level, '/' :: '*' :: rest => skipComment (level + 1) rest
  | level, _ :: rest => skipComment level rest

def isProperName (word : List Char) : Bool :=
  match word.dropWhile (· = '_') with
  | c :: _ => isLetter c
  | [] => false

def wordToken? (word : List Char) : Option Token :=
  let s := String.ofList word
  if word = ['_'] then some (.mark .underscore)
  else match Keyword.ofText? s with
    | some k => some (.keyword k)
    | none =>
      if Token.reservedWords.contains s then some (.reserved s)
      else if isProperName word then some (.name s)
      else none

def spanDigits (isDigit : Char → Bool) (cs : List Char) : List Char × List Char :=
  let (taken, rest) := cs.span fun c => isDigit c || c = '_'
  (taken.filter (· ≠ '_'), rest)

/-- The fraction at the front. A point that begins a range or a property is none. -/
def spanFraction (cs : List Char) : Option (List Char) × List Char :=
  match cs with
  | '.' :: rest =>
    match rest with
    | [] => (some [], [])
    | c :: _ =>
      if c = '_' || c = '.' || isLetter c then (none, cs)
      else
        let (digits, rest) := spanDigits Text.isDigit rest
        (some digits, rest)
  | _ => (none, cs)

structure ExponentPart where
  negative : Bool
  digits : List Char

def spanExponent (cs : List Char) : Option ExponentPart × List Char :=
  match cs with
  | 'e' :: c :: rest =>
    if c = '+' || c = '-' then
      let (digits, rest) := spanDigits Text.isDigit rest
      (some ⟨c = '-', digits⟩, rest)
    else if Text.isDigit c then
      let (digits, rest) := spanDigits Text.isDigit (c :: rest)
      (some ⟨false, digits⟩, rest)
    else (none, cs)
  | _ => (none, cs)

def ExponentPart.value (e : ExponentPart) : Int :=
  let n : Int := Text.digitsValue e.digits
  if e.negative then -n else n

/-- The token of a decimal number. An integer that does not fit in 64 bits becomes a float. -/
def decimalToken? (negative : Bool) (whole : List Char) (fraction : Option (List Char))
    (exponent : Option ExponentPart) : Option Token :=
  let float (fraction : List Char) (exponent : Int) : Token :=
    let f := Number.nearest whole fraction exponent
    .float (if negative then -f else f)
  match fraction, exponent with
  | none, none =>
    let n : Int := Text.digitsValue whole
    match Number.Binary64.int64? (if negative then -n else n) with
    | some i => some (.int i)
    | none => some (float [] 0)
  | fraction, some e => if e.digits.isEmpty then none else some (float (fraction.getD []) e.value)
  | some fraction, none => some (float fraction 0)

def radixValue? (base : Nat) (digits : List Char) : Option Nat :=
  if digits.isEmpty then none
  else digits.foldlM (fun n c => do
    let d ← Text.hexValue? c
    if d < base then some (n * base + d) else none) 0

def radixToken? (negative : Bool) (base : Nat) (digits : List Char) : Option Token := do
  let n ← radixValue? base digits
  if n < Nat.pow 2 64 then
    let i := Int64.ofNat n
    some (.int (if negative then -i else i))
  else none

def radixOf? (c : Char) : Option Nat :=
  match c with
  | 'x' | 'X' => some 16
  | 'o' | 'O' => some 8
  | 'b' | 'B' => some 2
  | _ => none

def readNumber (negative : Bool) (cs : List Char) : Option (Token × List Char) := do
  let (whole, rest) := spanDigits Text.isDigit cs
  let base := match whole, rest with
    | ['0'], c :: _ => radixOf? c
    | _, _ => none
  match base with
  | some base =>
    let (digits, rest) :=
      spanDigits (fun c => if base = 16 then (Text.hexValue? c).isSome else Text.isDigit c)
        (rest.drop 1)
    return (← radixToken? negative base digits, rest)
  | none =>
    let (fraction, rest) := spanFraction rest
    let (exponent, rest) := spanExponent rest
    return (← decimalToken? negative whole fraction exponent, rest)

def hexChar? (digits : List Char) : Option Char := do
  let n ← radixValue? 16 digits
  if n.isValidChar then some (Char.ofNat n) else none

structure Quotation where
  mark : Char
  /-- A backslash at the end of a line continues the text on the next one, whose blanks are dropped
  up to this column. -/
  indent : Option Nat

/-- The rest of a text after its opening mark, and what follows it; `skip` is the column when blanks
are being dropped, and `acc` holds the characters so far, last one first. -/
def readText (q : Quotation) (skip : Option Nat) (acc : List Char) :
    List Char → Option (List Char × List Char)
  | [] => none
  | '\\' :: '\\' :: rest => readText q none ('\\' :: acc) rest
  | '\\' :: 't' :: rest => readText q none ('\t' :: acc) rest
  | '\\' :: 'n' :: rest => readText q none ('\n' :: acc) rest
  | '\\' :: 'r' :: rest => readText q none ('\r' :: acc) rest
  | '\\' :: 'x' :: a :: b :: rest => do
    let c ← hexChar? [a, b]
    readText q none (c :: acc) rest
  | '\\' :: 'u' :: a :: b :: c :: d :: rest => do
    let c ← hexChar? [a, b, c, d]
    readText q none (c :: acc) rest
  | '\\' :: 'U' :: a :: b :: c :: d :: e :: f :: g :: h :: rest => do
    let c ← hexChar? [a, b, c, d, e, f, g, h]
    readText q none (c :: acc) rest
  | '\\' :: '\r' :: '\n' :: rest => if q.indent.isSome then readText q (some 1) acc rest else none
  | '\\' :: '\n' :: rest => if q.indent.isSome then readText q (some 1) acc rest else none
  | '\n' :: _ => none
  | '\r' :: '\n' :: _ => none
  | c :: d :: rest =>
    if c = '\\' then
      if d = q.mark then readText q none (d :: acc) rest else none
    else if c = q.mark then
      if d = q.mark then readText q none (c :: acc) rest else some (acc.reverse, d :: rest)
    else match skip with
      | some column =>
        if Text.isBlank c && column ≤ q.indent.getD 0 then
          readText q (some (column + 1)) acc (d :: rest)
        else readText q none (c :: acc) (d :: rest)
      | none => readText q none (c :: acc) (d :: rest)
  | [c] => if c = q.mark then some (acc.reverse, []) else none

/-- The rest of a piece of a template: the text, whether a block follows, and what follows. -/
def readPiece (acc : List Char) : List Char → Option (List Char × Bool × List Char)
  | [] => none
  | '$' :: '\x7b' :: rest => some (acc.reverse, true, '\x7b' :: rest)
  | '\x60' :: '\x60' :: rest => readPiece ('\x60' :: acc) rest
  | '\x60' :: rest => some (acc.reverse, false, rest)
  | '\r' :: '\n' :: rest => readPiece ('\n' :: acc) rest
  | c :: rest => readPiece (c :: acc) rest

/-- A template that begins at the end of a line begins with the next line. -/
def dropLineEnd : List Char → List Char
  | '\r' :: '\n' :: rest => rest
  | '\r' :: rest => rest
  | '\n' :: rest => rest
  | cs => cs

def sized? (limit : Nat) (cs : List Char) : Option String :=
  let s := String.ofList cs
  if Limits.exceeds s.utf8ByteSize limit then none else some s

def single? : List Char → Option Char
  | [c] => some c
  | _ => none

def startsWith (spelling cs : List Char) : Bool := spelling.isPrefixOf cs

def readMark (cs : List Char) : Option (Mark × List Char) :=
  if let '!' :: 'i' :: 'n' :: rest := cs then
    if (rest.head?.map isWordChar).getD false then some (.bang, 'i' :: 'n' :: rest)
    else some (.notIn, rest)
  else if Mark.refused.any (startsWith · cs) then none
  else (Mark.spellings.find? fun p => startsWith p.1 cs).map fun p => (p.2, cs.drop p.1.length)

structure Place where
  /-- For every block of a template around the place, the number of braces that are open in it. -/
  blocks : List Nat := []
  /-- An operand ends right before the place. -/
  afterOperand : Bool := false

/-- The tokens that begin at the front, the place after them, and what follows; blanks and comments
give no token. `column` is that of the first character, from one on. -/
def step (limits : Limits) (p : Place) (column : Unit → Nat) (cs : List Char) :
    Option (List Token × Place × List Char) :=
  let after (t : Token) (rest : List Char) : Option (List Token × Place × List Char) :=
    some ([t], { p with afterOperand := t.endsOperand }, rest)
  match cs with
  | [] => some ([], p, [])
  | '/' :: '/' :: rest => some ([], p, rest.dropWhile (· ≠ '\n'))
  | '/' :: '*' :: rest => some ([], p, skipComment 1 rest)
  | '"' :: rest => do
    let (text, rest) ← readText ⟨'"', some (column ())⟩ none [] rest
    after (.text (← sized? limits.maxStringSize text)) rest
  | '\'' :: '\'' :: _ => none
  | '\'' :: rest => do
    let (text, rest) ← readText ⟨'\'', none⟩ none [] rest
    after (.char (← single? text)) rest
  | '\x60' :: rest => do
    let (text, more, rest) ← readPiece [] (dropLineEnd rest)
    let t := Token.piece (← sized? limits.maxStringSize text) more
    some ([t], { blocks := if more then 0 :: p.blocks else p.blocks
                 afterOperand := t.endsOperand }, rest)
  | '\x7b' :: rest =>
    let blocks := match p.blocks with
      | [] => []
      | n :: outer => (n + 1) :: outer
    some ([.mark .leftBrace], { blocks := blocks }, rest)
  | '#' :: '\x7b' :: rest =>
    let blocks := match p.blocks with
      | [] => []
      | n :: outer => (n + 1) :: outer
    some ([.mark .openMap], { blocks := blocks }, rest)
  | '\x7d' :: rest =>
    match p.blocks with
    | [] => after (.mark .rightBrace) rest
    | 0 :: _ => none
    | 1 :: outer => do
      let (text, more, rest) ← readPiece [] rest
      let t := Token.piece (← sized? limits.maxStringSize text) more
      some ([.mark .rightBrace, t], { blocks := if more then 0 :: outer else outer
                                      afterOperand := t.endsOperand }, rest)
    | (n + 2) :: outer =>
      some ([.mark .rightBrace], { blocks := (n + 1) :: outer, afterOperand := true }, rest)
  | c :: rest =>
    if Text.isBlank c then some ([], p, rest)
    else if Text.isDigit c then do
      let (t, rest) ← readNumber false cs
      after t rest
    else if c = '-' && !p.afterOperand && (rest.head?.map Text.isDigit).getD false then do
      let (t, rest) ← readNumber true rest
      after t rest
    else if isWordChar c then do
      let (word, rest) := cs.span isWordChar
      after (← wordToken? word) rest
    else do
      let (m, rest) ← readMark cs
      after (.mark m) rest

def columnOf (whole rest : List Char) : Nat :=
  ((whole.take (whole.length - rest.length)).reverse.takeWhile (· ≠ '\n')).length + 1

/-- The tokens of a text from a place on; every step takes at least one character. -/
def tokensFrom (limits : Limits) (whole : List Char) :
    Nat → Place → List Token → List Char → Option (List Token)
  | 0, _, _, _ => none
  | fuel + 1, p, acc, cs =>
    match cs with
    | [] => if p.blocks.isEmpty then some acc.reverse else none
    | c :: cs =>
      match step limits p (fun _ => columnOf whole (c :: cs)) (c :: cs) with
      | none => none
      | some (tokens, p, rest) => tokensFrom limits whole fuel p (tokens.reverse ++ acc) rest

def tokens (limits : Limits) (text : String) : Except Refusal (List Token) :=
  let cs := text.toList
  match tokensFrom limits cs (cs.length + 1) {} [] cs with
  | some ts => .ok ts
  | none => .error .malformedToken

end GuildSandbox.Script.Lexer
