import GuildSandbox.Capability.Surface
import GuildSandbox.Script.Lexer
import GuildSandbox.Script.Program

/-!
Tokens as scripts.

Names are resolved while a script is read: a variable must be declared before it is used, a
constant cannot be assigned, and loops alone can be broken or continued. A function sees its
parameters and its own variables, and the names that every script may refer to. A function without
a name takes along every variable that is not its own.

A `Grammar` reads expressions and statements that nest so deep; `Grammar.within` builds the next
deeper one from it.
-/

set_option autoImplicit false
set_option relaxedAutoImplicit false

namespace GuildSandbox.Script

structure Names where
  /-- The variables, innermost first, and which of them are constants. -/
  visible : List (String × Bool) := []
  /-- The variables that the function without a name that is being read takes along. -/
  captured : List String := []
  modules : List String := []
  inFunction : Bool := false
  inLambda : Bool := false
  inLoop : Bool := false
  /-- A bar separates patterns and joins nothing. -/
  inPattern : Bool := false

structure Reading where
  tokens : List Token
  names : Names := {}
  functions : List FunctionDef := []
  /-- The number of functions without a name. -/
  lambdas : Nat := 0
  importsModule : Bool := false

abbrev Parser := StateT Reading (Except Refusal)

namespace Parser

def unexpected {α : Type} : Parser α := throw Refusal.unexpectedToken

def peek : Parser (Option Token) := do return (← get).tokens.head?

def skip : Parser Unit := modify fun r => { r with tokens := r.tokens.drop 1 }

def next : Parser Token := do
  match (← get).tokens with
  | [] => unexpected
  | t :: rest =>
    modify fun r => { r with tokens := rest }
    return t

def atMark (m : Mark) : Parser Bool := do
  match ← peek with
  | some t => return t.isMark m
  | none => return false

def eatMark (m : Mark) : Parser Bool := do
  if ← atMark m then
    skip
    return true
  else return false

def expectMark (m : Mark) : Parser Unit := do
  if ← eatMark m then pure () else unexpected

def eatKeyword (k : Keyword) : Parser Bool := do
  match ← peek with
  | some t =>
    if t.isKeyword k then
      skip
      return true
    else return false
  | none => return false

def expectKeyword (k : Keyword) : Parser Unit := do
  if ← eatKeyword k then pure () else unexpected

def expectName : Parser String := do
  match ← next with
  | .name s => return s
  | _ => unexpected

def left : Parser Nat := do return (← get).tokens.length

def modifyNames (f : Names → Names) : Parser Unit := modify fun r => { r with names := f r.names }

def declare (name : String) (isConstant : Bool) : Parser Unit :=
  modifyNames fun n => { n with visible := (name, isConstant) :: n.visible }

def enclosed {α : Type} (p : Parser α) : Parser α := do
  let before := (← get).names
  let a ← p
  modifyNames fun n =>
    { n with visible := before.visible, modules := before.modules, inLoop := before.inLoop }
  return a

/-- Notes the use of a variable. It must be declared, but a function without a name leaves that to the
place where it stands. -/
def use (name : String) : Parser Unit := do
  let r ← get
  if (r.names.visible.lookup name).isSome || r.functions.any (fun f => f.name = name) then pure ()
  else if r.names.inLambda then
    modifyNames fun n =>
      { n with captured := if n.captured.contains name then n.captured else n.captured ++ [name] }
  else if Surface.knownNames.contains name then pure ()
  else throw (.undeclared name)

/-- Notes the assignment to a variable; it must be declared and no constant. -/
def useAssigned (name : String) : Parser Unit := do
  match (← get).names.visible.lookup name with
  | some true => throw (.constantAssigned name)
  | _ => if name = "this" then pure () else use name

/-- Reads items with commas between them up to a closing mark; a comma may follow the last one.
An item is read with the items before it at hand, last one first, and `check` sees their number
before the closing mark is looked for; `fuel` bounds the items. -/
def itemsUntil {α : Type} (close : Mark) (item : List α → Parser α)
    (check : Nat → Parser Unit) : Nat → List α → Parser (List α)
  | 0, _ => unexpected
  | fuel + 1, acc => do
    check acc.length
    if ← eatMark close then return acc.reverse
    else
      let a ← item acc
      if ← eatMark .comma then itemsUntil close item check fuel (a :: acc)
      else if ← eatMark close then return (a :: acc).reverse
      else unexpected

end Parser

structure Grammar where
  expr : Parser Expr
  stmt : Parser Stmt

namespace Expr

def isNonBool : Expr → Bool
  | .literal (.bool _) => false
  | .literal _ | .template _ | .array _ | .map _ => true
  | _ => false

def isNonIterable : Expr → Bool
  | .literal _ | .template _ | .map _ => true
  | _ => false

def isNonIndex : Expr → Bool
  | .literal (.float _) | .literal (.char _) | .literal .unit | .literal (.bool _) => true
  | .both _ _ | .either _ _ => true
  | _ => false

def refusesIndex (root index : Expr) : Bool :=
  match index with
  | .literal (.int _) => match root with
    | .map _ | .literal (.float _) | .literal (.char _) | .literal .unit | .literal (.bool _) => true
    | .both _ _ | .either _ _ => true
    | _ => false
  | .literal (.str _) | .template _ => match root with
    | .map _ => false
    | .array _ | .template _ | .literal _ => true
    | .both _ _ | .either _ _ => true
    | _ => false
  | index => isNonIndex index

mutual

def constant? : Expr → Option Value
  | .literal v => some v
  | .array items => (constants? items).map .array
  | .map entries => (constantEntries? entries).map fun es => .map (Dict.ofPairs es)
  | _ => none

def constants? : List Expr → Option (List Value)
  | [] => some []
  | e :: rest => do
    let v ← constant? e
    return v :: (← constants? rest)

def constantEntries? : List MapEntry → Option (List (String × Value))
  | [] => some []
  | .mk key e :: rest => do
    let v ← constant? e
    return (key, v) :: (← constantEntries? rest)

end

end Expr

namespace Stmt

def endsItself : Stmt → Bool
  | .noop | .choose _ _ _ | .switch _ _ _ | .forEach _ _ _ _ | .block _ | .attempt _ _ _ => true
  | _ => false

end Stmt

namespace Pattern

/-- Ranges with at most so many integers are taken as the integers themselves. -/
def smallRange : Int := 16

def isSpan : Pattern → Bool
  | .span _ _ _ => true
  | _ => false

def isInteger : Pattern → Bool
  | .value (.int _) => true
  | _ => false

def ofRange (low high : Int) (inclusive afterSpan : Bool) : List Pattern :=
  let stop := if inclusive then high + 1 else high
  if stop ≤ low then []
  else if !afterSpan && stop - low ≤ smallRange then [.integers low stop]
  else [.span low high inclusive]

def ofExpr? (afterSpan : Bool) (e : Expr) : Option (List Pattern) :=
  match e with
  | .binary (.range inclusive) (.literal (.int low)) (.literal (.int high)) =>
    some (ofRange low.toInt high.toInt inclusive afterSpan)
  | e => e.constant?.map fun v => [.value v]

end Pattern

namespace Grammar

open Script.Parser

def exhausted : Grammar where
  expr := throw Refusal.tooDeep
  stmt := throw Refusal.tooDeep

def statements (g : Grammar) : Nat → List Stmt → Parser (List Stmt)
  | 0, _ => unexpected
  | fuel + 1, acc => do
    if ← eatMark .rightBrace then return acc.reverse
    else
      let s ← g.stmt
      match s with
      | .noop => statements g fuel acc
      | s =>
        if s.endsItself || (← eatMark .semicolon) || (← atMark .rightBrace) then
          statements g fuel (s :: acc)
        else unexpected

def block (g : Grammar) : Parser (List Stmt) := do
  expectMark .leftBrace
  enclosed do statements g ((← left) + 1) []

def condition (g : Grammar) : Parser Expr := do
  if ← atMark .leftBrace then unexpected
  else
    let c ← g.expr
    if c.isNonBool then unexpected else return c

def arguments (g : Grammar) : Parser (List Expr) := do
  itemsUntil .rightParen (fun _ => g.expr) (fun _ => pure ()) ((← left) + 1) []

/-- Reads the items of an array after the opening bracket. An array that is written out stays below
the limit. -/
def arrayItems (limits : Limits) (g : Grammar) : Parser (List Expr) := do
  let check (n : Nat) : Parser Unit :=
    if limits.maxArraySize ≠ 0 && limits.maxArraySize ≤ n then throw Refusal.literalTooLarge
    else pure ()
  itemsUntil .rightBracket (fun _ => g.expr) check ((← left) + 1) []

def mapEntry (limits : Limits) (g : Grammar) (before : List MapEntry) : Parser MapEntry := do
  let key ← match ← next with
    | .name s => pure s
    | .text s => pure s
    | .piece s false => pure s
    | _ => unexpected
  if before.any (fun (.mk k _) => k = key) then throw (.duplicate key)
  expectMark .colon
  if limits.maxMapSize ≠ 0 && limits.maxMapSize ≤ before.length then
    throw Refusal.literalTooLarge
  return .mk key (← g.expr)

def mapEntries (limits : Limits) (g : Grammar) : Parser (List MapEntry) := do
  itemsUntil .rightBrace (mapEntry limits g) (fun _ => pure ()) ((← left) + 1) []

def pieceOf (s : String) : List Expr := if s = "" then [] else [.literal (.str s)]

/-- Reads the rest of a template after a piece that a block follows; `fuel` bounds the pieces. -/
def templateParts (g : Grammar) : Nat → List Expr → Parser (List Expr)
  | 0, _ => unexpected
  | fuel + 1, acc => do
    let body ← block g
    let acc := acc ++ [.statement (.block body)]
    match ← next with
    | .piece s true => templateParts g fuel (acc ++ pieceOf s)
    | .piece s false => return acc ++ pieceOf s
    | _ => unexpected

def parameters (close : Mark) : Parser (List String) := do
  let param (before : List String) : Parser String := do
    let name ← expectName
    if before.contains name then throw (.duplicate name) else return name
  itemsUntil close param (fun _ => pure ()) ((← left) + 1) []

/-- Reads the body of a function without a name; what it takes along comes before its parameters. -/
def lambda (g : Grammar) (params : List String) : Parser Expr := do
  let outer := (← get).names
  modifyNames fun n =>
    { visible := params.map fun p => (p, false), modules := n.modules
      inFunction := true, inLambda := true }
  let body ← g.stmt
  let captured := (← get).names.captured
  let number := (← get).lambdas
  let name := "anon$" ++ toString number
  modify fun r =>
    { r with names := outer, lambdas := number + 1
             functions := r.functions ++ [⟨name, captured ++ params, [body]⟩] }
  for c in captured do use c
  return .lambda name captured

def modulePath : Nat → List String → Parser (List String)
  | 0, _ => unexpected
  | fuel + 1, acc => do
    let name ← expectName
    if ← eatMark .doubleColon then modulePath fuel (acc ++ [name]) else return acc ++ [name]

def named (g : Grammar) (name : String) : Parser Expr := do
  if ← eatMark .leftParen then return .call name (← arguments g)
  else if ← eatMark .doubleColon then
    if (← get).names.modules.contains name then
      let path ← modulePath ((← left) + 1) [name]
      let args ← if ← eatMark .leftParen then arguments g else pure []
      return .imported path args
    else throw (.undeclared name)
  else
    use name
    return .variable name

def operand (limits : Limits) (g : Grammar) : Parser Expr := do
  match ← peek with
  | none => unexpected
  | some t => match t with
    | .keyword .ifWord | .keyword .switchWord | .keyword .forWord | .mark .leftBrace =>
      return .statement (← g.stmt)
    | t => do
      skip
      match t with
      | .int n => return .literal (.int n)
      | .float f => return .literal (.float f)
      | .char c => return .literal (.char c)
      | .text s => return .literal (.str s)
      | .piece s false => return .literal (.str s)
      | .piece s true => return .template (← templateParts g ((← left) + 1) (pieceOf s))
      | .keyword .trueWord => return .literal (.bool true)
      | .keyword .falseWord => return .literal (.bool false)
      | .name s => named g s
      | .reserved s =>
        if s = "this" then
          if (← get).names.inFunction then return .variable s else unexpected
        else if Token.callableWords.contains s then
          expectMark .leftParen
          return .call s (← arguments g)
        else unexpected
      | .mark .leftParen =>
        if ← eatMark .rightParen then return .literal .unit
        else
          let e ← g.expr
          expectMark .rightParen
          return e
      | .mark .leftBracket => return .array (← arrayItems limits g)
      | .mark .openMap => return .map (← mapEntries limits g)
      | .mark .bar => lambda g (← parameters .bar)
      | .mark .either => lambda g []
      | _ => unexpected

def member (g : Grammar) : Parser Link := do
  let t ← next
  let hasArgs ← eatMark .leftParen
  match t with
  | .name s => if hasArgs then return .method s (← arguments g) else return .property s
  | .reserved s =>
    if hasArgs && Token.methodWords.contains s then return .method s (← arguments g)
    else unexpected
  | _ => unexpected

/-- Reads an index after the opening bracket, given what stands before it. -/
def position (g : Grammar) (root : Expr) (before : List Link) : Parser Link := do
  let e ← g.expr
  expectMark .rightBracket
  if e.isNonIndex || (before.isEmpty && root.refusesIndex e) then unexpected else return .index e

def links (g : Grammar) (root : Expr) : Nat → List Link → Parser (List Link)
  | 0, _ => unexpected
  | fuel + 1, acc => do
    if ← eatMark .dot then links g root fuel (acc ++ [← member g])
    else if ← eatMark .questionDot then links g root fuel (acc ++ [.optional, ← member g])
    else if ← eatMark .leftBracket then
      links g root fuel (acc ++ [← position g root acc])
    else if ← eatMark .questionBracket then
      links g root fuel (acc ++ [.optional, ← position g root acc])
    else return acc

def linked (limits : Limits) (g : Grammar) : Parser Expr := do
  let root ← operand limits g
  let ls ← links g root ((← left) + 1) []
  return if ls.isEmpty then root else .chain root ls

def sign? : Token → Option UnaryOp
  | .mark .minus => some .negate
  | .mark .plus => some .plus
  | .mark .bang => some .invert
  | _ => none

def signed (op : UnaryOp) (e : Expr) : Expr :=
  match op, e with
  | .negate, .literal (.int n) =>
    match Number.Binary64.int64? (-n.toInt) with
    | some m => .literal (.int m)
    | none => .literal (.float (-(Number.Binary64.ofInt n.toInt)))
  | .negate, .literal (.float f) => .literal (.float (-f))
  | .plus, .literal (.int n) => .literal (.int n)
  | .plus, .literal (.float f) => .literal (.float f)
  | op, e => .unary op e

def signedOperand (limits : Limits) (g : Grammar) : Nat → Parser Expr
  | 0 => throw Refusal.tooDeep
  | fuel + 1 => do
    match (← peek).bind sign? with
    | some op =>
      skip
      return signed op (← signedOperand limits g fuel)
    | none => linked limits g

inductive Joint where
  | plain (op : BinaryOp)
  | notWithin
  | both
  | either
  | orElse

def joint? : Token → Option (Nat × Joint)
  | .mark .either => some (30, .either)
  | .mark .caret => some (30, .plain .bitXor)
  | .mark .bar => some (30, .plain .bitOr)
  | .mark .both => some (60, .both)
  | .mark .ampersand => some (60, .plain .bitAnd)
  | .mark .equals => some (90, .plain .eq)
  | .mark .differs => some (90, .plain .ne)
  | .keyword .inWord => some (110, .plain .within)
  | .mark .notIn => some (110, .notWithin)
  | .mark .less => some (130, .plain .lt)
  | .mark .lessEqual => some (130, .plain .le)
  | .mark .greater => some (130, .plain .gt)
  | .mark .greaterEqual => some (130, .plain .ge)
  | .mark .doubleQuestion => some (135, .orElse)
  | .mark .range => some (140, .plain (.range false))
  | .mark .rangeInclusive => some (140, .plain (.range true))
  | .mark .plus => some (150, .plain .add)
  | .mark .minus => some (150, .plain .sub)
  | .mark .star => some (180, .plain .mul)
  | .mark .slash => some (180, .plain .div)
  | .mark .percent => some (180, .plain .rem)
  | .mark .doubleStar => some (190, .plain .power)
  | .mark .shiftLeft => some (210, .plain .shiftLeft)
  | .mark .shiftRight => some (210, .plain .shiftRight)
  | _ => none

def peekJoint : Parser (Option (Nat × Joint)) := do
  match ← peek with
  | some t => if t.isMark .bar && (← get).names.inPattern then return none else return joint? t
  | none => return none

/-- What the right operand has to bind by at least: powers group to the right. -/
def Joint.least (strength : Nat) : Joint → Nat
  | .plain .power => strength
  | _ => strength + 1

def join (op : Joint) (left right : Expr) : Parser Expr :=
  match op with
  | .plain op => return .binary op left right
  | .notWithin => return .unary .invert (.binary .within left right)
  | .both => if left.isNonBool || right.isNonBool then unexpected else return .both left right
  | .either => if left.isNonBool || right.isNonBool then unexpected else return .either left right
  | .orElse => return .orElse left right

/-- Reads operators that bind at least so tightly, and their right operands. `fuel` bounds the number
of operators in a row. -/
def climb (operand : Parser Expr) : Nat → Nat → Expr → Parser Expr
  | 0, _, _ => throw Refusal.tooDeep
  | fuel + 1, least, left => do
    match ← peekJoint with
    | some (strength, op) =>
      if least ≤ strength then
        skip
        let right ← operand
        let right ← climb operand fuel (op.least strength) right
        climb operand fuel least (← join op left right)
      else return left
    | none => return left

def expression (limits : Limits) (rows : Nat) (g : Grammar) : Parser Expr := do
  let one := signedOperand limits g (rows + 1)
  climb one (rows + 1) 0 (← one)

/-- Reads a condition with its branches after the first word; `fuel` bounds the branches. -/
def choice (g : Grammar) : Nat → Parser Stmt
  | 0 => unexpected
  | fuel + 1 => do
    let c ← condition g
    let onTrue ← block g
    if ← eatKeyword .elseWord then
      if ← eatKeyword .ifWord then return .choose c onTrue [← choice g fuel]
      else return .choose c onTrue (← block g)
    else return .choose c onTrue []

def casePatterns (g : Grammar) (afterSpan : Bool) : Nat → List Pattern → Parser (List Pattern)
  | 0, _ => unexpected
  | fuel + 1, acc => do
    let before := (← get).names.inPattern
    modifyNames fun n => { n with inPattern := true }
    let e ← g.expr
    modifyNames fun n => { n with inPattern := before }
    let afterSpan := afterSpan || acc.any Pattern.isSpan
    match Pattern.ofExpr? afterSpan e with
    | none => unexpected
    | some ps =>
      if afterSpan && ps.any Pattern.isInteger then unexpected
      else if ← eatMark .bar then casePatterns g afterSpan fuel (acc ++ ps)
      else return acc ++ ps

/-- Reads what a case does; a statement that does not end itself needs a comma after it. -/
def caseAction (g : Grammar) : Parser Stmt := do
  expectMark .arrow
  let s ← g.stmt
  if (← eatMark .comma) || (← atMark .rightBrace) || s.endsItself then return s else unexpected

/-- Reads the cases of a switch up to the closing brace; none may follow the fallback. `fuel` bounds
their number. -/
def switchCases (g : Grammar) : Nat → List Case → Parser (List Case × Stmt)
  | 0, _ => unexpected
  | fuel + 1, acc => do
    if ← eatMark .rightBrace then return (acc.reverse, .noop)
    else if ← eatMark .underscore then
      let fallback ← caseAction g
      expectMark .rightBrace
      return (acc.reverse, fallback)
    else
      let afterSpan := acc.any fun (.mk ps _ _) => ps.any Pattern.isSpan
      let ps ← casePatterns g afterSpan ((← left) + 1) []
      let guard ← if ← eatKeyword .ifWord then condition g else pure (.literal (.bool true))
      let action ← caseAction g
      switchCases g fuel (.mk ps guard action :: acc)

def switchRest (g : Grammar) : Parser Stmt := do
  let subject ← g.expr
  expectMark .leftBrace
  let (cases, fallback) ← switchCases g ((← left) + 1) []
  return .switch subject cases fallback

/-- Reads the variables of a loop: the item and, between parentheses, a counter. -/
def loopVariables : Parser (String × Option String) := do
  if ← eatMark .leftParen then
    let item ← expectName
    expectMark .comma
    let counter ← expectName
    expectMark .rightParen
    if item = counter then throw (.duplicate item) else return (item, some counter)
  else return (← expectName, none)

def loopRest (g : Grammar) : Parser Stmt := do
  let (item, counter) ← loopVariables
  expectKeyword .inWord
  if ← atMark .leftBrace then unexpected
  let source ← g.expr
  if source.isNonIterable then unexpected
  let body ← enclosed do
    if let some c := counter then declare c false
    declare item false
    modifyNames fun n => { n with inLoop := true }
    block g
  return .forEach item counter source body

def attemptRest (g : Grammar) : Parser Stmt := do
  let body ← block g
  expectKeyword .catchWord
  let caught ← if ← eatMark .leftParen then do
      let name ← expectName
      expectMark .rightParen
      pure (some name)
    else pure none
  let handler ← enclosed do
    if let some name := caught then declare name false
    block g
  return .attempt body caught handler

def declaration (g : Grammar) (isConstant : Bool) : Parser Stmt := do
  let name ← expectName
  let value ← if ← eatMark .assign then g.expr else pure (.literal .unit)
  declare name isConstant
  return .declare name isConstant value

def optionalValue (g : Grammar) : Parser Expr := do
  match ← peek with
  | none => return .literal .unit
  | some t =>
    if t.isMark .semicolon || t.isMark .rightBrace then return .literal .unit else g.expr

def assignment? : Token → Option (Option BinaryOp)
  | .mark .assign => some none
  | .mark .plusAssign => some (some .add)
  | .mark .minusAssign => some (some .sub)
  | .mark .starAssign => some (some .mul)
  | .mark .slashAssign => some (some .div)
  | .mark .percentAssign => some (some .rem)
  | .mark .doubleStarAssign => some (some .power)
  | .mark .ampersandAssign => some (some .bitAnd)
  | .mark .barAssign => some (some .bitOr)
  | .mark .caretAssign => some (some .bitXor)
  | .mark .shiftLeftAssign => some (some .shiftLeft)
  | .mark .shiftRightAssign => some (some .shiftRight)
  | _ => none

def isPlace : Link → Bool
  | .method _ _ => false
  | _ => true

def target (e : Expr) : Parser (String × List Link) :=
  match e with
  | .variable name => do
    useAssigned name
    return (name, [])
  | .chain (.variable name) ls => if ls.all isPlace then return (name, ls) else unexpected
  | _ => unexpected

def simpleStatement (limits : Limits) (rows : Nat) (g : Grammar) : Parser Stmt := do
  let e ← expression limits rows g
  match (← peek).bind assignment? with
  | none => return .eval e
  | some op =>
    let (name, ls) ← target e
    skip
    return .assign name ls op (← g.expr)

def importRest (g : Grammar) : Parser Stmt := do
  let path ← g.expr
  let shortName ← if ← eatKeyword .asWord then some <$> expectName else pure none
  if let some name := shortName then
    modifyNames fun n => { n with modules := name :: n.modules }
  modify fun r => { r with importsModule := true }
  return .importModule path shortName

def requireLoop : Parser Unit := do
  if (← get).names.inLoop then pure () else throw Refusal.outsideLoop

def statement (limits : Limits) (rows : Nat) (g : Grammar) : Parser Stmt := do
  match ← peek with
  | some (.mark .semicolon) => do
    skip
    return .noop
  | some (.mark .leftBrace) => return .block (← block g)
  | some (.keyword k) => match k with
    | .ifWord => do
      skip
      choice g ((← left) + 1)
    | .switchWord => do
      skip
      switchRest g
    | .forWord => do
      skip
      loopRest g
    | .tryWord => do
      skip
      attemptRest g
    | .letWord => do
      skip
      declaration g false
    | .constWord => do
      skip
      declaration g true
    | .breakWord => do
      skip
      requireLoop
      return .breakWith (← optionalValue g)
    | .continueWord => do
      skip
      requireLoop
      return .continueLoop
    | .returnWord => do
      skip
      return .returnWith (← optionalValue g)
    | .throwWord => do
      skip
      return .throwWith (← optionalValue g)
    | .importWord => do
      skip
      importRest g
    | .fnWord | .privateWord => throw Refusal.nestedFunction
    | _ => simpleStatement limits rows g
  | _ => simpleStatement limits rows g

def within (limits : Limits) (rows : Nat) (g : Grammar) : Grammar where
  expr := expression limits rows g
  stmt := statement limits rows g

/-- The grammar of what nests at most so many units deep. A row of operators is bounded by the
depth that is left. -/
def nesting (limits : Limits) : Nat → Grammar
  | 0 => exhausted
  | units + 1 => within limits (2 * (units + 1)) (nesting limits units)

/-- The grammar under a limit on the depth. Where there is none, the tokens that are left bound the
nesting. -/
def underDepth {α : Type} (limits : Limits) (depth : Nat) (p : Grammar → Parser α) : Parser α := do
  p (nesting limits ((Limits.nestingUnits depth).getD ((← left) + 1)))

def functionRest (limits : Limits) : Parser Unit := do
  let name ← expectName
  expectMark .leftParen
  let params ← parameters .rightParen
  if (Program.function? (← get).functions name params.length).isSome then throw (.duplicate name)
  let outer := (← get).names
  modifyNames fun _ =>
    { visible := params.map fun p => (p, false), modules := outer.modules, inFunction := true }
  let body ← underDepth limits limits.maxFunctionDepth block
  modify fun r => { r with names := outer, functions := r.functions ++ [⟨name, params, body⟩] }

/-- Reads statements and functions up to the end; `fuel` bounds their number. -/
def topLevel (limits : Limits) : Nat → List Stmt → Parser (List Stmt)
  | 0, _ => unexpected
  | fuel + 1, acc => do
    match ← peek with
    | none => return acc.reverse
    | some (.keyword .fnWord) =>
      skip
      functionRest limits
      topLevel limits fuel acc
    | some (.keyword .privateWord) =>
      skip
      expectKeyword .fnWord
      functionRest limits
      topLevel limits fuel acc
    | some _ =>
      let s ← underDepth limits limits.maxDepth Grammar.stmt
      match s with
      | .noop => topLevel limits fuel acc
      | s =>
        if s.endsItself || (← eatMark .semicolon) || (← peek).isNone then
          topLevel limits fuel (s :: acc)
        else unexpected

end Grammar

namespace Program

def parse (limits : Limits) (text : String) : Except Refusal Program := do
  let tokens ← Lexer.tokens limits text
  let (body, r) ← (Grammar.topLevel limits (tokens.length + 1) []).run { tokens := tokens }
  return { functions := r.functions, body := body, importsModule := r.importsModule }

end Program

end GuildSandbox.Script
