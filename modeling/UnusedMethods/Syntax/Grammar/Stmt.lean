import UnusedMethods.Syntax.Grammar.Expr

/-!
# Reading statements and declarations

Statements of a block are divided by line ends or semicolons; a semicolon where a statement is
expected is itself the empty statement. A label may end a block or a clause without a statement.
-/

namespace UnusedMethods.Syntax.Grammar

open Reader

/-! ### Declarations -/

def typeSpecRest (g : Grammar) (id : Ident) (params : List TypeParamDecl) : Reader TypeSpec := do
  let isAlias ← skipSymbol "="
  return { name := id, typeParams := params, isAlias, type := ← g.type true }

def arraySpecRest (g : Grammar) (id : Ident) : Reader TypeSpec := do
  return { name := id, typeParams := [], isAlias := false, type := ← bracketType g true }

/-- What follows the name of a declared type, at an opening bracket. The brackets hold an array
length if they read as an expression and a type follows, unless they also read as type parameters
with a generic constraint. -/
def bracketSpecRest (g : Grammar) (id : Ident) : Reader TypeSpec := fun ts =>
  match (do typeSpecRest g id (← typeParams g) : Reader TypeSpec) ts with
  | none => arraySpecRest g id ts
  | some (spec, rest) =>
    if spec.typeParams.any fun d => mentionsInstance d.constraint then some (spec, rest)
    else (arraySpecRest g id ts).or (some (spec, rest))

def typeSpec (g : Grammar) : Reader TypeSpec := do
  let id ← name
  if ← atSymbol "[" then bracketSpecRest g id else typeSpecRest g id []

def initialValues (g : Grammar) : Reader (List Expr) := do
  let _ ← symbol "="
  exprList g .value

def varSpec (g : Grammar) : Reader ValueSpec := do
  let pos := (← peek).pos
  let names ← commaSeparated false name
  if ← atSymbol "=" then
    return { pos, names, type := none, values := ← initialValues g }
  let type ← g.type true
  let values ← if ← continuesWith true "=" then initialValues g else pure []
  return { pos, names, type := some type, values }

/-- Declared constants. A type needs a value. -/
def constSpec (g : Grammar) : Reader ValueSpec := do
  let pos := (← peek).pos
  let names ← commaSeparated true name
  if ← continuesWith true "=" then
    return { pos, names, type := none, values := ← initialValues g }
  if !(← closedByLine true) && (← atType) then
    let type ← g.type false
    return { pos, names, type := some type, values := ← initialValues g }
  return { pos, names, type := none, values := [] }

def specs {α : Type} (strict : Bool) (r : Reader α) : Reader (List α) := do
  if ← skipSymbol "(" then terminated strict ")" r
  else return [← r]

def decl (g : Grammar) : Reader Decl := do
  let t ← take
  if t.isKeyword "type" then return .type (← specs false (typeSpec g))
  else if t.isKeyword "var" then return .var (← specs true (varSpec g))
  else if t.isKeyword "const" then return .const (← specs true (constSpec g))
  else .fail

/-! ### Simple statements -/

def assignOps : List String :=
  ["=", "+=", "-=", "*=", "/=", "%=", "&=", "|=", "^=", "<<=", ">>=", "&^="]

/-- What follows the left-hand side of a statement with at least two sides. -/
def assignment (g : Grammar) (rest : Setting) (lhs : List Expr) : Reader Stmt := do
  let t ← take
  require (t.kind == .symbol)
  if t.text == ":=" then
    return .define lhs (← exprList g rest)
  else
    require (assignOps.contains t.text)
    return .assign lhs (← exprList g rest)

/-- A statement that is an expression, a send, a step or an assignment. The settings are those of
its first expression and of the later ones. -/
def simpleStmt (g : Grammar) (first rest : Setting) : Reader Stmt := do
  let e ← g.expr first
  let t ← peek
  if t.kind != .symbol || (first.lineEnds && t.breaks) then
    return .expr e
  else if t.text == "," then
    let _ ← take
    let more ← commaSeparated false (g.expr { rest with lineEnds := false })
    assignment g rest (e :: more)
  else if t.text == "<-" then
    let _ ← take
    return .send e (← g.expr rest)
  else if t.text == "++" || t.text == "--" then
    let _ ← take
    return .incDec e
  else if t.text == ":=" || assignOps.contains t.text then
    assignment g rest [e]
  else
    return .expr e

/-! ### Headers -/

def headerInit (g : Grammar) : Reader Stmt := do
  let s ← simpleStmt g .header .inner
  let _ ← symbol ";"
  return s

def readIf (g : Grammar) : Reader Stmt := do
  let init ← attempt (headerInit g)
  let cond ← g.expr .condition
  let body ← block g
  let t ← peek
  if t.isKeyword "else" && !t.breaks then
    let _ ← take
    let u ← peek
    if u.isKeyword "if" then
      let _ ← take
      return .if init cond body (some (← g.ifStmt))
    else
      return .if init cond body (some (.block (← block g)))
  else
    return .if init cond body none

/-- A range clause: what it assigns to, whether it declares it, and what it ranges over. -/
structure RangeClause where
  lhs : List Expr
  define : Bool
  subject : Expr

/-- The header of a `for` statement that ranges. -/
def rangeClause (g : Grammar) : Reader RangeClause := do
  if (← peek).isKeyword "range" then
    let _ ← take
    return { lhs := [], define := false, subject := ← g.expr .condition }
  let lhs ← commaSeparated false (g.expr .header)
  let op ← take
  require (op.isSymbol ":=" || op.isSymbol "=")
  let _ ← keyword "range"
  return { lhs, define := op.text == ":=", subject := ← g.expr .condition }

/-- The header of a `for` statement with three parts, and its body. -/
def forClause (g : Grammar) : Reader Stmt := do
  let init ← if ← atSymbol ";" then pure none else some <$> simpleStmt g .header .inner
  let _ ← symbol ";"
  let cond ← if ← atSymbol ";" then pure none else some <$> g.expr .inner
  let _ ← symbol ";"
  let post ←
    if ← atSymbol "\x7b" then pure none
    else some <$> simpleStmt g .header .condition
  return .for init cond post (← block g)

def forStmt (g : Grammar) : Reader Stmt := do
  if ← atSymbol "\x7b" then
    return .for none none none (← block g)
  match ← attempt (rangeClause g) with
  | some clause =>
    return .range clause.lhs clause.define clause.subject (← block g)
  | none =>
    let whileLoop : Reader Stmt := do
      let cond ← g.expr .condition
      require (← atSymbol "\x7b")
      return .for none (some cond) none (← block g)
    forClause g <|> whileLoop

/-! ### Clauses -/

/-- A clause after its keyword: what stands before the colon, then statements. -/
def clauseBody (g : Grammar) : Reader (List Stmt) := do
  let _ ← symbol ":"
  g.stmts true

def atClause : Reader Bool := do
  let t ← peek
  return t.isKeyword "case" || t.isKeyword "default"

/-- Clauses in braces. The first reader reads what stands between `case` and its colon. -/
def clauses {α β : Type} (g : Grammar) (head : Reader α) (make : Option α → List Stmt → β) :
    Reader (List β) := do
  let _ ← symbol "\x7b"
  let list ← many atClause do
    let t ← take
    let h ← if t.isKeyword "case" then some <$> head else pure none
    return make h (← clauseBody g)
  let _ ← symbol "\x7d"
  return list

/-- The guard of a type switch: the name that it binds and its subject. The name is the text of
the first expression on the left. -/
def typeGuard (g : Grammar) : Reader (Option Ident × Expr) := do
  let subject (s : Setting) : Reader Expr := do
    let e ← g.expr s
    require (← atTypeGuard)
    let isOperation := match e with
      | .unary .. | .binary .. => true
      | _ => false
    require !isOperation
    let _ ← symbol "."
    let _ ← symbol "("
    let _ ← keyword "type"
    let _ ← symbol ")"
    return e
  let bound : Reader (Option Ident × Expr) := do
    let (e, tokens) ← consumed (g.expr .header)
    let _ ← many (atSymbol ",") (do let _ ← take; g.expr .inner)
    let _ ← symbol ":="
    return (some ⟨Token.join tokens, e.pos⟩, ← subject .inner)
  bound <|> (do return (none, ← subject .condition))

def switchRest (g : Grammar) (init : Option Stmt) : Reader Stmt := do
  match ← attempt (typeGuard g) with
  | some (binding, subject) =>
    let list ← clauses g (commaSeparated false (g.type false)) fun types body =>
      ({ types := types.getD [], body } : TypeClause)
    return .typeSwitch init binding subject list
  | none =>
    let tag ←
      if ← atSymbol "\x7b" then pure none else some <$> g.expr .condition
    let list ← clauses g (exprList g .inner) fun values body =>
      ({ values := values.getD [], body } : CaseClause)
    return .switch init tag list

def switchStmt (g : Grammar) : Reader Stmt := do
  match ← attempt (headerInit g) with
  | some init => switchRest g (some init)
  | none => switchRest g none

def communication (g : Grammar) : Reader Stmt := do
  let e ← g.expr ⟨false, false, true⟩
  let t ← peek
  if t.isSymbol "<-" then
    let _ ← take
    return .send e (← g.expr .inner)
  else if t.isSymbol ":" then
    return .expr e
  else
    let more ← many (atSymbol ",") (do let _ ← take; g.expr .inner)
    let op ← take
    require (op.isSymbol ":=" || op.isSymbol "=")
    let value ← g.expr .inner
    if op.text == ":=" then return .define (e :: more) [value]
    else return .assign (e :: more) [value]

def selectStmt (g : Grammar) : Reader Stmt := do
  return .select (← clauses g (communication g) fun comm body =>
    ({ comm, body } : CommClause))

/-! ### Statements -/

def atStmtsEnd (inClause : Bool) : Reader Bool := do
  let t ← peek
  return t.isSymbol "\x7d" || (inClause && (t.isKeyword "case" || t.isKeyword "default"))

def atLabel : Reader Bool := do
  let t ← peek
  if !t.isName then return false
  let u ← peekSecond
  return u.isSymbol ":" && !u.breaks

def returnValues (g : Grammar) : Reader (List Expr) := do
  let t ← peek
  if t.breaks || t.kind == .eof || [";", "\x00", "\x7d"].any t.isSymbol ||
      t.isKeyword "case" || t.isKeyword "default" then
    return []
  else
    exprList g .value

def optionalLabel : Reader Unit := do
  let t ← peek
  if t.isName && !t.breaks then
    let _ ← take

/-- One level of `Grammar.stmt`. -/
def readStmt (g : Grammar) : Reader Stmt := do
  let t ← peek
  if ["type", "var", "const"].any t.isKeyword then
    return .decl (← decl g)
  else if t.isSymbol "\x7b" then
    return .block (← block g)
  else if t.isSymbol ";" then
    let _ ← take
    return .empty
  else if ← atLabel then
    let _ ← take
    let _ ← take
    return .labeled (← g.stmt)
  else if t.isName || t.kind != .word || ["func", "struct", "interface", "map", "chan"].any t.isKeyword
  then
    simpleStmt g .statement .value
  else do
    let _ ← take
    if t.isKeyword "return" then return .return (← returnValues g)
    else if t.isKeyword "go" then return .go (← g.expr .value)
    else if t.isKeyword "defer" then return .defer (← g.expr .value)
    else if t.isKeyword "if" then g.ifStmt
    else if t.isKeyword "for" then forStmt g
    else if t.isKeyword "switch" then switchStmt g
    else if t.isKeyword "select" then selectStmt g
    else if t.isKeyword "break" || t.isKeyword "continue" then
      optionalLabel
      return .branch
    else if t.isKeyword "goto" then
      let _ ← name
      return .branch
    else if t.isKeyword "fallthrough" then return .branch
    else .fail

/-- One level of `Grammar.stmts`. -/
def readStmts (g : Grammar) (inClause : Bool) : Reader (List Stmt) := do
  if ← atStmtsEnd inClause then return []
  let bareLabel : Reader (List Stmt) := do
    require (← atLabel)
    let _ ← take
    let _ ← take
    require (← atStmtsEnd inClause)
    return [.empty]
  match ← attempt bareLabel with
  | some list => return list
  | none =>
    let s ← g.stmt
    if ← atStmtsEnd inClause then return [s]
    terminator
    return s :: (← g.stmts inClause)

/-! ### The whole grammar -/

def step (g : Grammar) : Grammar where
  type := readType g
  simpleType := readSimpleType g
  expr := readExpr g
  unary := readUnary g
  binaryTail := readBinaryTail g
  suffixes := readSuffixes g
  stmts := readStmts g
  stmt := readStmt g
  ifStmt := readIf g

/-- The grammar that may nest its readers `n` deep. -/
def level (n : Nat) : Grammar := n.repeat step stuck

end UnusedMethods.Syntax.Grammar
