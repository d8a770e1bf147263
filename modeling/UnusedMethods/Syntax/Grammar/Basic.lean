import UnusedMethods.Syntax.Token

/-!
# Readers of syntax

A reader consumes tokens from the front of a sequence and gives a piece of syntax, or fails. The
readers of types, expressions and statements need each other; `Grammar` collects those that are
needed from elsewhere, and each level of a grammar may only call the level below it, so that
reading always ends.
-/

namespace UnusedMethods.Syntax

/-- A reader of `α`: on success the piece read and the tokens left. -/
abbrev Reader (α : Type) := StateT (List Token) Option α

/-- What may follow an expression where it stands. -/
structure Setting where
  /-- A line end closes the expression once it is complete. -/
  lineEnds : Bool
  /-- A block may follow, so that `{` after a name opens that block. -/
  beforeBlock : Bool
  /-- `<-`, `++` or `--` may follow. -/
  beforeMark : Bool

namespace Setting

def inner : Setting := ⟨false, false, false⟩

def statement : Setting := ⟨true, false, true⟩

def value : Setting := ⟨true, false, false⟩

/-- At the start of the header of an `if`, `for` or `switch`. -/
def header : Setting := ⟨false, true, true⟩

def condition : Setting := ⟨false, true, false⟩

end Setting

/-- The readers that call each other across modules. -/
structure Grammar where
  /-- A type; the flag tells whether a line end closes it once it is complete. -/
  type : Bool → Reader TypeExpr
  simpleType : Bool → Reader TypeExpr
  expr : Setting → Reader Expr
  unary : Setting → Reader Expr
  /-- The operators from a given precedence up, after a left operand. -/
  binaryTail : Setting → Nat → Expr → Reader Expr
  /-- Selectors, calls and the like after an operand. -/
  suffixes : Setting → Expr → Reader Expr
  /-- Statements up to the end of a block or, if flagged, of a clause. -/
  stmts : Bool → Reader (List Stmt)
  stmt : Reader Stmt
  /-- An `if` statement, after its keyword. -/
  ifStmt : Reader Stmt

def Reader.fail {α : Type} : Reader α := fun _ => none

/-- The grammar of level zero reads nothing. -/
def Grammar.stuck : Grammar where
  type _ := .fail
  simpleType _ := .fail
  expr _ := .fail
  unary _ := .fail
  binaryTail _ _ _ := .fail
  suffixes _ _ := .fail
  stmts _ := .fail
  stmt := .fail
  ifStmt := .fail

namespace Reader

/-! ### Looking ahead -/

def peek : Reader Token := fun
  | t :: ts => some (t, t :: ts)
  | [] => none

def peekSecond : Reader Token := fun
  | t :: u :: ts => some (u, t :: u :: ts)
  | _ => none

def take : Reader Token := fun
  | t :: ts => some (t, ts)
  | [] => none

def atSymbol (s : String) : Reader Bool := return (← peek).isSymbol s

/-- Whether the next token is the symbol `s`, where a line end in front of it may close what came
before. -/
def continuesWith (lineEnds : Bool) (s : String) : Reader Bool := do
  let t ← peek
  return t.isSymbol s && !(lineEnds && t.breaks)

def atKeyword (k : String) : Reader Bool := return (← peek).isKeyword k

def require (b : Bool) : Reader Unit := if b then pure () else .fail

/-! ### Single tokens -/

def symbol (s : String) : Reader Token := do
  let t ← take
  require (t.isSymbol s)
  return t

def keyword (k : String) : Reader Token := do
  let t ← take
  require (t.isKeyword k)
  return t

def name : Reader Ident := do
  let t ← take
  require t.isName
  return t.toIdent

/-- Consume the symbol `s` if it is next, and tell whether it was. -/
def skipSymbol (s : String) : Reader Bool := do
  if ← atSymbol s then
    let _ ← take
    return true
  else
    return false

/-- The end of a line, a `;` or a NUL. A line end serves only once. -/
def terminator : Reader Unit := fun
  | t :: ts =>
    if t.breaks then some ((), { t with breaks := false } :: ts)
    else if t.isSymbol ";" || t.isSymbol "\x00" then some ((), ts)
    else none
  | [] => none

def consumed {α : Type} (r : Reader α) : Reader (α × List Token) := fun ts => do
  let (a, rest) ← r ts
  return ((a, ts.take (ts.length - rest.length)), rest)

/-! ### Lists

The readers of lists count down from the number of tokens left, which they can never reach. -/

/-- Zero or more pieces, each read if `more` says that one is next. -/
def whileNext {α : Type} (more : Reader Bool) (r : Reader α) : Nat → Reader (List α)
  | 0 => .fail
  | n + 1 => do
    if ← more then
      let a ← r
      let as ← whileNext more r n
      return a :: as
    else
      return []

def remaining : Reader Nat := fun ts => some (ts.length, ts)

/-- Zero or more pieces, each read if `more` says that one is next. -/
def many {α : Type} (more : Reader Bool) (r : Reader α) : Reader (List α) := do
  whileNext more r ((← remaining) + 1)

/-- One or more pieces divided by commas; a line end before a comma may close the list. -/
def commaSeparated {α : Type} (lineEnds : Bool) (r : Reader α) : Reader (List α) := do
  let first ← r
  let rest ← many (continuesWith lineEnds ",") (do let _ ← take; r)
  return first :: rest

/-- As `commaClosed`, with a bound on the number of pieces. -/
def commaClosedUpTo {α : Type} (close : String) (r : Reader α) : Nat → Reader (List α)
  | 0 => .fail
  | n + 1 => do
    if ← skipSymbol close then return []
    let a ← r
    if ← skipSymbol "," then
      let as ← commaClosedUpTo close r n
      return a :: as
    else
      let _ ← symbol close
      return [a]

/-- Pieces divided by commas, up to the closing symbol, which is consumed. A comma may follow the
last piece. -/
def commaClosed {α : Type} (close : String) (r : Reader α) : Reader (List α) := do
  commaClosedUpTo close r ((← remaining) + 1)

/-- As `commaClosed`, where a comma may also stand alone. -/
def commaClosedLoose {α : Type} (close : String) (r : Reader α) : Reader (List α) := do
  if (← peek).isSymbol "," then
    let _ ← take
    let _ ← symbol close
    return []
  else
    commaClosed close r

/-- As `terminated`, with a bound on the number of pieces. -/
def terminatedUpTo {α : Type} (strict : Bool) (close : String) (r : Reader α) :
    Nat → Reader (List α)
  | 0 => .fail
  | n + 1 => do
    if ← skipSymbol close then return []
    let a ← r
    if strict then
      terminator
      let as ← terminatedUpTo strict close r n
      return a :: as
    else if ← skipSymbol close then
      return [a]
    else
      terminator
      let as ← terminatedUpTo strict close r n
      return a :: as

/-- Pieces divided by terminators, up to the closing symbol, which is consumed. A terminator may
follow the last piece, and must if `strict`. -/
def terminated {α : Type} (strict : Bool) (close : String) (r : Reader α) : Reader (List α) := do
  terminatedUpTo strict close r ((← remaining) + 1)

end Reader

end UnusedMethods.Syntax
