import UnusedMethods.Syntax.Grammar.Type

/-!
# Reading expressions

What needs type information to be told apart is decided by its shape:

* `X[args](operand)` with `X` a name or a qualified name, arguments that read as types and exactly
  one operand is a conversion to an instance of `X`;
* otherwise a single bracket argument that reads as an expression is an index, unless it mentions
  an instance of a generic type and the whole is called;
* otherwise bracket arguments in front of a call are its type arguments, and elsewhere they
  instantiate `X`.
-/

namespace UnusedMethods.Syntax.Grammar

open Reader

/-! ### Expressions that read as types -/

def typeName? : Expr → Option TypeExpr
  | .ident node id => if Token.valueWords.contains id then none else some (.name ⟨id, node.pos⟩)
  | .selector _ (.ident node id) field =>
    if Token.valueWords.contains id then none else some (.qualified ⟨id, node.pos⟩ field)
  | _ => none

/-- Whether a type mentions an instance of a generic type outside any brackets but parentheses. -/
def mentionsInstance : TypeExpr → Bool
  | .generic .. => true
  | .pointer elem => mentionsInstance elem
  | _ => false

/-- Types that may stand in front of the braces of a composite literal. -/
def startsLiteral : TypeExpr → Bool
  | .map .. | .slice _ | .array .. | .struct _ | .name _ | .qualified .. | .generic .. => true
  | _ => false

/-! ### Arguments -/

/-- The arguments of a call, each with a mark if `...` follows it. -/
def args (g : Grammar) : Reader (List (Expr × Bool)) := do
  let _ ← symbol "("
  commaClosed ")" do
    let e ← g.expr .inner
    return (e, ← skipSymbol "...")

/-- Exactly one operand in parentheses; a comma may follow it. -/
def operand (g : Grammar) : Reader Expr := do
  let _ ← symbol "("
  let e ← g.expr .inner
  let _ ← skipSymbol ","
  let _ ← symbol ")"
  return e

def typeAsExpr (g : Grammar) : Reader Expr := do
  let t ← peek
  return .type t.toNode (← g.type false)

/-- The arguments of `new` and `make`, whose first one is a type. -/
def allocationArgs (g : Grammar) : Reader (List Expr) := do
  let _ ← symbol "("
  if ← skipSymbol ")" then return []
  let first ← typeAsExpr g
  if ← skipSymbol "," then
    return first :: (← commaClosed ")" (g.expr .inner))
  let _ ← symbol ")"
  return [first]

/-! ### Composite literals -/

/-- Elements in braces. Braces may nest without a type; the bound counts nested braces. -/
def literalValue (g : Grammar) : Nat → Reader (List Element)
  | 0 => .fail
  | n + 1 => do
    let part : Reader Expr := do
      let t ← peek
      if t.isSymbol "\x7b" then
        return .composite t.toNode none (← literalValue g n)
      else
        g.expr .inner
    let _ ← symbol "\x7b"
    commaClosedLoose "\x7d" do
      let first ← part
      if ← skipSymbol ":" then
        return { key := some first, value := ← part }
      else
        return { key := none, value := first }

def literal (g : Grammar) : Reader (List Element) := do
  literalValue g ((← remaining) + 1)

/-- How many tokens a bracketed group has that starts at the front of a sequence, by counting
brackets of all kinds. -/
def groupLength : Nat → List Token → Nat
  | _, [] => 0
  | depth, t :: ts =>
    if ["(", "[", "\x7b"].any t.isSymbol then 1 + groupLength (depth + 1) ts
    else if [")", "]", "\x7d"].any t.isSymbol then
      if depth ≤ 1 then 1 else 1 + groupLength (depth - 1) ts
    else 1 + groupLength depth ts

def precedence? (op : String) : Option Nat :=
  if ["*", "/", "%", "<<", ">>", "&", "&^"].contains op then some 5
  else if ["+", "-", "|", "^"].contains op then some 4
  else if ["==", "!=", "<", "<=", ">", ">="].contains op then some 3
  else if op == "&&" then some 2
  else if op == "||" then some 1
  else none

/-- Whether braces that follow here in front of a block belong to a literal: what comes after the
closing brace could not follow a block. -/
def bracesContinue : Reader Bool := fun ts =>
  let next := (ts.drop (groupLength 0 ts)).head?
  let goesOn := next.any fun t =>
    t.kind == .symbol && !t.breaks &&
      ((precedence? t.text).isSome || ["\x7b", ".", "(", "["].contains t.text)
  some (goesOn, ts)

/-- Whether a composite literal of a named type goes on with braces here. -/
def atLiteral (s : Setting) : Reader Bool := do
  if ← continuesWith s.lineEnds "\x7b" then
    if s.beforeBlock then bracesContinue else return true
  else
    return false

/-! ### Brackets after an operand -/

/-- What stands in brackets after an operand, read as an expression. -/
inductive Bracket where
  | index (e : Expr)
  | slice (parts : List Expr)

/-- The parts of a slice expression after its first colon. -/
def sliceTail (g : Grammar) : Reader (List Expr) := do
  if ← skipSymbol "]" then return []
  let hi ← g.expr .inner
  if ← skipSymbol "]" then return [hi]
  let _ ← symbol ":"
  let max ← g.expr .inner
  let _ ← symbol "]"
  return [hi, max]

def bracket (g : Grammar) : Reader Bracket := do
  let _ ← symbol "["
  if ← skipSymbol ":" then
    return .slice (← sliceTail g)
  let e ← g.expr .inner
  if ← skipSymbol ":" then
    return .slice (e :: (← sliceTail g))
  let _ ← symbol "]"
  return .index e

/-- Run a reader and give its result, or nothing if it fails. -/
def attempt {α : Type} (r : Reader α) : Reader (Option α) := fun ts =>
  match r ts with
  | some (a, rest) => some (some a, rest)
  | none => some (none, ts)

def ahead {α : Type} (r : Reader α) : Reader (Option α) := fun ts =>
  some ((r ts).map (·.1), ts)

/-- The expression `x` read as a type in front of brackets. -/
def instantiable? : Expr → Option TypeExpr
  | .paren _ inner => instantiable? inner
  | e => typeName? e

/-- Everything that starts with brackets after the operand `x`. -/
def readBrackets (g : Grammar) (s : Setting) (x : Expr) : Reader Expr := do
  let node := x.node
  let types ← ahead (typeArgs g)
  match ← attempt (bracket g) with
  | some (.slice parts) => return .slice node x parts
  | some (.index e) =>
    if ← continuesWith s.lineEnds "(" then
      let list ← args g
      match typeName? x, types, list with
      | some base, some ts, [(arg, false)] => return .conversion node (.generic base ts) arg
      | _, _, _ =>
        let values := list.map (·.1)
        let spread := list.any (·.2)
        match types with
        | some [t] =>
          if mentionsInstance t then return .call node x [t] values spread
          else return .call node (.index node x e) [] values spread
        | _ => return .call node (.index node x e) [] values spread
    else if ← atLiteral s then
      match typeName? x, types with
      | some base, some ts => return .composite node (some (.generic base ts)) (← literal g)
      | _, _ => return .index node x e
    else
      return .index node x e
  | none =>
    let ts ← typeArgs g
    if ← continuesWith s.lineEnds "(" then
      let list ← args g
      match typeName? x, list with
      | some base, [(arg, false)] => return .conversion node (.generic base ts) arg
      | _, _ => return .call node x ts (list.map (·.1)) (list.any (·.2))
    else if ← atLiteral s then
      match typeName? x with
      | some base => return .composite node (some (.generic base ts)) (← literal g)
      | none => .fail
    else
      match instantiable? x with
      | some base =>
        require (ts.all fun
          | .union _ => false
          | _ => true)
        return .instantiate node (.type node base) ts
      | none => .fail

/-! ### Operands -/

/-- What follows a type in the place of an operand: the braces of a literal, the operand of a
conversion or type arguments. -/
def afterType (g : Grammar) (node : Node) (type : TypeExpr) : Reader Expr := do
  let t ← peek
  if t.isSymbol "\x7b" && startsLiteral type then
    return .composite node (some type) (← literal g)
  else if t.isSymbol "(" then
    return .conversion node type (← operand g)
  else
    return .instantiate node (.type node type) (← typeArgs g)

def typeOperand (g : Grammar) : Reader Expr := do
  let t ← peek
  let u ← peekSecond
  if t.isSymbol "[" && u.isSymbol "..." then
    let _ ← take
    let _ ← take
    let _ ← symbol "]"
    let elem ← g.type false
    require (← atSymbol "\x7b")
    return .composite t.toNode (some (.array none elem)) (← literal g)
  let type ← g.simpleType false
  afterType g t.toNode type

def block (g : Grammar) : Reader (List Stmt) := do
  let _ ← symbol "\x7b"
  let body ← g.stmts false
  let _ ← symbol "\x7d"
  return body

/-- A function literal, or a conversion to a function type. -/
def funcOperand (g : Grammar) : Reader Expr := do
  let t ← keyword "func"
  let sig ← signature g false
  if ← atSymbol "\x7b" then
    return .funcLit t.toNode sig (← block g)
  else
    afterType g t.toNode (.func sig)

def parenType (g : Grammar) : Reader TypeExpr := do
  let _ ← symbol "("
  let type ← g.type false
  let _ ← symbol ")"
  return type

def parenExpr (g : Grammar) : Reader Expr := do
  let t ← symbol "("
  let e ← g.expr .inner
  let _ ← symbol ")"
  return .paren t.toNode e

/-- A conversion to a parenthesised type that mentions an instance of a generic type. -/
def parenConversion (g : Grammar) : Reader Expr := do
  let t ← peek
  let type ← parenType g
  require (mentionsInstance type)
  return .conversion t.toNode type (← operand g)

/-- A parenthesised expression, or a conversion to a parenthesised type. A type that mentions an
instance of a generic type is preferred where exactly one operand follows. -/
def parenOperand (g : Grammar) (s : Setting) : Reader Expr := fun ts =>
  match parenExpr g ts with
  | some (e, rest) =>
    match continuesWith s.lineEnds "(" rest with
    | some (true, _) => (parenConversion g ts).or (some (e, rest))
    | _ => some (e, rest)
  | none =>
    (do
      let t ← peek
      afterType g t.toNode (← parenType g) : Reader Expr) ts

def readOperand (g : Grammar) (s : Setting) : Reader Expr := do
  let t ← peek
  match t.kind with
  | .literal kind =>
    let _ ← take
    return .lit t.toNode kind
  | .word =>
    if t.isKeyword "func" then funcOperand g
    else if ["struct", "interface", "map", "chan"].any t.isKeyword then typeOperand g
    else
      let id ← name
      if (id.name == "new" || id.name == "make") && (← continuesWith s.lineEnds "(") then
        return .call t.toNode (.ident t.toNode id.name) [] (← allocationArgs g) false
      else
        return .ident t.toNode id.name
  | .symbol =>
    if t.isSymbol "(" then parenOperand g s
    else if t.isSymbol "[" || t.isSymbol "~" || t.isSymbol "<-" then typeOperand g
    else .fail
  | .eof => .fail

/-! ### Suffixes -/

/-- Whether the guard `.(type)` of a type switch follows. -/
def atTypeGuard : Reader Bool := fun ts =>
  match ts with
  | dot :: paren :: word :: _ =>
    some (dot.isSymbol "." && paren.isSymbol "(" && word.isKeyword "type", ts)
  | _ => some (false, ts)

/-- One level of `Grammar.suffixes`. -/
def readSuffixes (g : Grammar) (s : Setting) (x : Expr) : Reader Expr := do
  let t ← peek
  if (s.lineEnds && t.breaks) || t.kind != .symbol then
    return x
  else if t.isSymbol "." then
    if ← atTypeGuard then return x
    let _ ← take
    if ← skipSymbol "(" then
      let type ← g.type false
      let _ ← symbol ")"
      g.suffixes s (.typeAssert x.node x type)
    else
      g.suffixes s (.selector x.node x (← name))
  else if t.isSymbol "(" then
    let list ← args g
    g.suffixes s (.call x.node x [] (list.map (·.1)) (list.any (·.2)))
  else if t.isSymbol "[" then
    g.suffixes s (← readBrackets g s x)
  else if t.isSymbol "\x7b" then
    match typeName? x with
    | some type =>
      let isName := match type with
        | .name _ => true
        | _ => false
      if (isName && s.beforeBlock) || !(← atLiteral s) then return x
      else g.suffixes s (.composite x.node (some type) (← literal g))
    | none => return x
  else
    return x

/-! ### Operators -/

def unaryOps : List String := ["+", "-", "!", "^", "*", "&", "<-"]

/-- Symbols that are two unary operators in front of an operand. -/
def doubledOps : List String := ["++", "--", "&&", "&^"]

def splitSymbol : Reader Token := fun
  | t :: ts => some ({ t with text := (t.text.take 1).toString }, t.behead :: ts)
  | [] => none

/-- One level of `Grammar.unary`. -/
def readUnary (g : Grammar) (s : Setting) : Reader Expr := do
  let t ← peek
  if t.isSymbol "<-" && (← peekSecond).isKeyword "chan" then
    g.suffixes s (← typeOperand g)
  else if t.kind == .symbol && unaryOps.contains t.text then
    let _ ← take
    return .unary t.toNode t.text (← g.unary s)
  else if t.kind == .symbol && doubledOps.contains t.text then
    let half ← splitSymbol
    return .unary half.toNode half.text (← g.unary s)
  else
    g.suffixes s (← readOperand g s)

/-- Symbols that are a binary and a unary operator where no statement mark may stand. -/
def fusedOps : List String := ["<-", "++", "--"]

/-- One level of `Grammar.binaryTail`: operators of at least the given precedence. -/
def readBinaryTail (g : Grammar) (s : Setting) (least : Nat) (left : Expr) : Reader Expr := do
  let t ← peek
  if t.kind != .symbol || (s.lineEnds && t.breaks) then return left
  let fused := !s.beforeMark && fusedOps.contains t.text
  let op := if fused then (t.text.take 1).toString else t.text
  match precedence? op with
  | none => return left
  | some p =>
    if p < least then return left
    if fused then
      let _ ← splitSymbol
    else
      let _ ← take
    let right ← g.binaryTail s (p + 1) (← g.unary s)
    g.binaryTail s least (.binary left.node op left right)

/-- One level of `Grammar.expr`. -/
def readExpr (g : Grammar) (s : Setting) : Reader Expr := do
  g.binaryTail s 1 (← g.unary s)

def exprList (g : Grammar) (s : Setting) : Reader (List Expr) :=
  commaSeparated s.lineEnds (g.expr s)

end UnusedMethods.Syntax.Grammar
