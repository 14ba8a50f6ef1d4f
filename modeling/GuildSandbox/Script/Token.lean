set_option autoImplicit false
set_option relaxedAutoImplicit false

namespace GuildSandbox.Script

inductive Keyword where
  | letWord | constWord
  | ifWord | elseWord | switchWord
  | forWord | inWord | breakWord | continueWord
  | returnWord | throwWord | tryWord | catchWord
  | fnWord | privateWord
  | importWord | asWord
  | trueWord | falseWord
  deriving DecidableEq, Repr, Inhabited

namespace Keyword

def spellings : List (String × Keyword) :=
  [("let", letWord), ("const", constWord), ("if", ifWord), ("else", elseWord),
   ("switch", switchWord), ("for", forWord), ("in", inWord), ("break", breakWord),
   ("continue", continueWord), ("return", returnWord), ("throw", throwWord), ("try", tryWord),
   ("catch", catchWord), ("fn", fnWord), ("private", privateWord), ("import", importWord),
   ("as", asWord), ("true", trueWord), ("false", falseWord)]

def ofText? (s : String) : Option Keyword := spellings.lookup s

end Keyword

inductive Mark where
  | leftParen | rightParen | leftBracket | rightBracket | leftBrace | rightBrace
  | openMap | comma | semicolon | colon | doubleColon | dot | arrow | underscore
  | plus | minus | star | slash | percent | doubleStar
  | ampersand | bar | caret | shiftLeft | shiftRight
  | assign | plusAssign | minusAssign | starAssign | slashAssign | percentAssign | doubleStarAssign
  | ampersandAssign | barAssign | caretAssign | shiftLeftAssign | shiftRightAssign
  | equals | differs | less | lessEqual | greater | greaterEqual
  | bang | both | either | notIn
  | range | rangeInclusive
  | questionDot | questionBracket | doubleQuestion
  deriving DecidableEq, Repr, Inhabited

namespace Mark

/-- The marks that begin with a letter of punctuation, longer spellings before the shorter ones
that they begin with. -/
def spellings : List (List Char × Mark) :=
  [("..=".toList, rangeInclusive), ("..".toList, range), (".".toList, dot),
   ("==".toList, equals), ("=>".toList, arrow), ("=".toList, assign),
   ("!=".toList, differs), ("!".toList, bang),
   ("<<=".toList, shiftLeftAssign), ("<<".toList, shiftLeft), ("<=".toList, lessEqual),
   ("<".toList, less), (">>=".toList, shiftRightAssign), (">>".toList, shiftRight),
   (">=".toList, greaterEqual), (">".toList, greater),
   ("&&".toList, both), ("&=".toList, ampersandAssign), ("&".toList, ampersand),
   ("||".toList, either), ("|=".toList, barAssign), ("|".toList, bar),
   ("^=".toList, caretAssign), ("^".toList, caret),
   ("+=".toList, plusAssign), ("+".toList, plus), ("-=".toList, minusAssign),
   ("-".toList, minus), ("**=".toList, doubleStarAssign), ("**".toList, doubleStar),
   ("*=".toList, starAssign), ("*".toList, star),
   ("/=".toList, slashAssign), ("/".toList, slash), ("%=".toList, percentAssign),
   ("%".toList, percent), ("::".toList, doubleColon), (":".toList, colon),
   ("??".toList, doubleQuestion), ("?.".toList, questionDot), ("?[".toList, questionBracket),
   ("#\x7b".toList, openMap), ("(".toList, leftParen), (")".toList, rightParen),
   ("[".toList, leftBracket), ("]".toList, rightBracket), ("\x7b".toList, leftBrace),
   ("\x7d".toList, rightBrace), (",".toList, comma), (";".toList, semicolon)]

def refused : List (List Char) :=
  ["...".toList, "===".toList, "!==".toList, "!.".toList, "++".toList, "--".toList, "->".toList,
   "<-".toList, "<|".toList, "|>".toList, "*)".toList, "(*".toList, ":=".toList, ":;".toList,
   "::<".toList]

end Mark

inductive Token where
  | int (n : Int64)
  | float (f : Float)
  | char (c : Char)
  | text (s : String)
  /-- A stretch of text in a template, and whether a block follows it. -/
  | piece (s : String) (more : Bool)
  | name (s : String)
  /-- A word that is kept back and is no name. -/
  | reserved (s : String)
  | keyword (k : Keyword)
  | mark (m : Mark)
  deriving Repr, Inhabited

namespace Token

def reservedWords : List String :=
  ["var", "static", "shared", "is", "goto", "match", "case", "public", "protected", "new", "use",
   "with", "module", "package", "super", "thread", "spawn", "go", "await", "async", "sync",
   "yield", "default", "void", "null", "nil", "export", "until", "while", "loop", "do",
   "eval", "print", "debug", "type_of", "Fn", "call", "curry", "is_shared", "is_def_fn",
   "is_def_var", "this"]

def callableWords : List String :=
  ["print", "debug", "type_of", "Fn", "call", "curry", "is_shared", "is_def_fn", "is_def_var"]

def methodWords : List String := ["type_of", "call", "curry", "is_shared"]

/-- An operand can end with the token, so that a sign after it is an operator. -/
def endsOperand : Token → Bool
  | .int _ | .float _ | .char _ | .text _ | .name _ | .reserved _ => true
  | .piece _ more => !more
  | .keyword k => k = .trueWord || k = .falseWord
  | .mark m => m = .rightParen || m = .rightBracket || m = .rightBrace

def isMark (t : Token) (m : Mark) : Bool :=
  match t with
  | .mark n => n = m
  | _ => false

def isKeyword (t : Token) (k : Keyword) : Bool :=
  match t with
  | .keyword l => l = k
  | _ => false

end Token

end GuildSandbox.Script
