import GuildSandbox.Text.Blank

set_option autoImplicit false
set_option relaxedAutoImplicit false

namespace GuildSandbox.Toml

def isSpace (c : Char) : Bool := c = ' ' || c = '\t'

/-- May stand in comments and strings: everything but controls, the tab excepted. -/
def isPlain (c : Char) : Bool := c = '\t' || (0x20 ≤ c.toNat && c.toNat ≠ 0x7f)

def lineBreak? : List Char → Option (List Char)
  | '\n' :: rest => some rest
  | '\r' :: '\n' :: rest => some rest
  | _ => none

/-- The text from the first character that is neither a blank nor part of a line break. -/
def dropGap : List Char → List Char
  | ' ' :: rest => dropGap rest
  | '\t' :: rest => dropGap rest
  | '\n' :: rest => dropGap rest
  | '\r' :: '\n' :: rest => dropGap rest
  | rest => rest

def charOfDigits? (digits : List Char) : Option Char := do
  let code ← digits.foldlM (fun n c => (Text.hexValue? c).map (n * 16 + ·)) 0
  if code.isValidChar then some (Char.ofNat code) else none

def codedEscape? (count : Nat) (cs : List Char) : Option (Char × List Char) := do
  let (digits, rest) := cs.splitAt count
  if digits.length = count then return (← charOfDigits? digits, rest) else none

def escape? : List Char → Option (Char × List Char)
  | 'b' :: rest => some ('\x08', rest)
  | 't' :: rest => some ('\t', rest)
  | 'n' :: rest => some ('\n', rest)
  | 'f' :: rest => some ('\x0c', rest)
  | 'r' :: rest => some ('\r', rest)
  | '"' :: rest => some ('"', rest)
  | '\\' :: rest => some ('\\', rest)
  | 'u' :: rest => codedEscape? 4 rest
  | 'U' :: rest => codedEscape? 8 rest
  | _ => none

inductive Piece where
  /-- Characters of the string, and the text behind what stands for them. -/
  | chars (cs rest : List Char)
  /-- The last characters of the string, and the text behind it. -/
  | last (cs rest : List Char)

def plainPiece? : List Char → Option Piece
  | c :: rest => if isPlain c then some (.chars [c] rest) else none
  | [] => none

def escapedPiece? (cs : List Char) : Option Piece :=
  (escape? cs).map fun (c, rest) => .chars [c] rest

def basicPiece? : List Char → Option Piece
  | '"' :: rest => some (.last [] rest)
  | '\\' :: rest => escapedPiece? rest
  | cs => plainPiece? cs

def literalPiece? : List Char → Option Piece
  | '\'' :: rest => some (.last [] rest)
  | cs => plainPiece? cs

def openPiece? (mark : Char) (cs : List Char) : Option Piece :=
  let marks := cs.takeWhile (· = mark)
  if marks.length ≥ 3 then
    let extra := min 2 (marks.length - 3)
    some (.last (marks.take extra) (cs.drop (extra + 3)))
  else if marks.length > 0 then some (.chars marks (cs.drop marks.length))
  else match lineBreak? cs with
    | some rest => some (.chars ['\n'] rest)
    | none => plainPiece? cs

/-- A string in double marks over several lines. A backslash at the end of a line takes the gap up
to the next visible character with it. -/
def basicLinesPiece? : List Char → Option Piece
  | '\\' :: rest =>
    match lineBreak? (rest.dropWhile isSpace) with
    | some below => some (.chars [] (dropGap below))
    | none => escapedPiece? rest
  | cs => openPiece? '"' cs

def literalLinesPiece? (cs : List Char) : Option Piece := openPiece? '\'' cs

/-- The rest of a string, piece by piece; `acc` holds the characters so far, last one first. The
fuel bounds the number of pieces. -/
def readPieces (piece? : List Char → Option Piece) :
    Nat → List Char → List Char → Option (String × List Char)
  | 0, _, _ => none
  | fuel + 1, acc, cs => do
    match ← piece? cs with
    | .chars front rest => readPieces piece? fuel (front.reverse ++ acc) rest
    | .last front rest => return (String.ofList (acc.reverse ++ front), rest)

def readRest (piece? : List Char → Option Piece) (cs : List Char) : Option (String × List Char) :=
  readPieces piece? (cs.length + 1) [] cs

def dropLineBreak (cs : List Char) : List Char := (lineBreak? cs).getD cs

def readLineString? : List Char → Option (String × List Char)
  | '"' :: rest => readRest basicPiece? rest
  | '\'' :: rest => readRest literalPiece? rest
  | _ => none

def readString? : List Char → Option (String × List Char)
  | '"' :: '"' :: '"' :: rest => readRest basicLinesPiece? (dropLineBreak rest)
  | '\'' :: '\'' :: '\'' :: rest => readRest literalLinesPiece? (dropLineBreak rest)
  | cs => readLineString? cs

end GuildSandbox.Toml
