import UnusedMethods.Syntax.Grammar.Basic

/-!
# Reading types

Types as written in declarations, parameter lists and conversions. Where a type is complete and a
line end may close it, what stands on the next line no longer belongs to it.
-/

namespace UnusedMethods.Syntax.Grammar

open Reader

/-! ### Array lengths -/

def digitValue? (base : Nat) (c : Char) : Option Nat :=
  let v :=
    if c.isDigit then c.toNat - '0'.toNat
    else if 'a' ≤ c && c ≤ 'z' then c.toNat - 'a'.toNat + 10
    else if 'A' ≤ c && c ≤ 'Z' then c.toNat - 'A'.toNat + 10
    else base
  if v < base then some v else none

/-- A number below 2^64 in the given base, with an optional plus sign. -/
def natural? (base : Nat) (cs : List Char) : Option Nat := do
  let ds := match cs with
    | '+' :: ds => ds
    | ds => ds
  if ds.isEmpty then none
  let n ← ds.foldlM (fun n c => (digitValue? base c).map (n * base + ·)) 0
  if n < Nat.pow 2 64 then some n else none

/-- The length that a text spells, underscores left out. A leading zero alone does not change the
base. -/
def length? (text : String) : Option Nat :=
  match text.toList.filter (· != '_') with
  | '0' :: 'x' :: ds | '0' :: 'X' :: ds => natural? 16 ds
  | '0' :: 'b' :: ds | '0' :: 'B' :: ds => natural? 2 ds
  | '0' :: 'o' :: ds | '0' :: 'O' :: ds => natural? 8 ds
  | ds => natural? 10 ds

/-! ### Type arguments and parameters -/

def typeElem (g : Grammar) (lineEnds : Bool) : Reader TypeExpr := do
  let first ← g.type lineEnds
  match ← many (continuesWith lineEnds "|") (do let _ ← take; g.type lineEnds) with
  | [] => return first
  | rest => return .union (first :: rest)

def typeArgs (g : Grammar) : Reader (List TypeExpr) := do
  let _ ← symbol "["
  let args ← commaClosed "]" (typeElem g false)
  require !args.isEmpty
  return args

def typeParamDecl (g : Grammar) : Reader TypeParamDecl := do
  let names ← commaSeparated false name
  let constraint ← typeElem g false
  return { names, constraint }

def typeParams (g : Grammar) : Reader (List TypeParamDecl) := do
  let _ ← symbol "["
  let params ← commaClosed "]" (typeParamDecl g)
  require !params.isEmpty
  return params

/-! ### Named types -/

/-- A name or a qualified name, with type arguments if they follow. -/
def namedType (g : Grammar) (lineEnds : Bool) : Reader TypeExpr := do
  let first ← name
  let base ←
    if ← continuesWith lineEnds "." then do
      let _ ← take
      pure (.qualified first (← name))
    else
      pure (.name first)
  if ← continuesWith lineEnds "[" then
    (do return .generic base (← typeArgs g)) <|> pure base
  else
    return base

/-! ### Parameters -/

/-- One entry of a parameter list before names are grouped. -/
inductive ParamEntry where
  /-- A name alone, which is a type unless a later entry gives it one. -/
  | bare (id : Ident)
  | unnamed (pos : Pos) (type : TypeExpr)
  | named (name : Ident) (type : TypeExpr)
  | variadic (pos : Pos) (name : Option Ident) (type : TypeExpr)

def atEntryEnd : Reader Bool := do
  let t ← peek
  return t.isSymbol "," || t.isSymbol ")"

def paramEntry (g : Grammar) : Reader ParamEntry := do
  let t ← peek
  if t.isSymbol "..." then
    let _ ← take
    return .variadic t.pos none (← g.type false)
  let alone : Reader ParamEntry := do
    let u ← peekSecond
    if t.isName && (u.isSymbol "," || u.isSymbol ")") then
      return .bare (← name)
    let type ← g.type false
    require (← atEntryEnd)
    return .unnamed t.pos type
  let withName : Reader ParamEntry := do
    let id ← name
    if ← skipSymbol "..." then
      return .variadic t.pos (some id) (← g.type false)
    else
      return .named id (← g.type false)
  alone <|> withName

/-- Parameters of one group whose names were waiting for a type. -/
def bareFields (ids : List Ident) : List Field := ids.map fun id => ⟨id.pos, [], .name id⟩

/-- Group the entries of a parameter list: names directly in front of a named parameter share its
type. The first argument holds the names that wait, last one first. -/
def groupParams : List Ident → List ParamEntry → List Field
  | waiting, [] => bareFields waiting.reverse
  | waiting, .bare id :: rest => groupParams (id :: waiting) rest
  | waiting, .unnamed pos type :: rest =>
    bareFields waiting.reverse ++ ⟨pos, [], type⟩ :: groupParams [] rest
  | waiting, .named id type :: rest =>
    let names := waiting.reverse ++ [id]
    ⟨(names.headD id).pos, names, type⟩ :: groupParams [] rest
  | waiting, .variadic pos id type :: rest =>
    bareFields waiting.reverse ++ ⟨pos, id.toList, type⟩ :: groupParams [] rest

def endsVariadic (entries : List ParamEntry) : Bool :=
  match entries.getLast? with
  | some (.variadic ..) => true
  | _ => false

def params (g : Grammar) : Reader (List Field × Bool) := do
  let _ ← symbol "("
  let entries ← commaClosedLoose ")" (paramEntry g)
  return (groupParams [] entries, endsVariadic entries)

/-! ### Simple types -/

def atSimpleType : Reader Bool := do
  let t ← peek
  if t.isSymbol "<-" then
    return (← peekSecond).isKeyword "chan"
  return t.isName || t.isSymbol "*" || t.isSymbol "[" || t.isSymbol "~" ||
    ["struct", "interface", "map", "chan", "func"].any t.isKeyword

def atType : Reader Bool := do
  if ← atSymbol "(" then return true
  atSimpleType

/-- Whether the next token, if it stands on a new line, belongs to something else. -/
def closedByLine (lineEnds : Bool) : Reader Bool := return lineEnds && (← peek).breaks

/-- Direction of a channel type whose keyword has just been read: an arrow counts only where no
comment stands in front of it. -/
def chanDir : Reader ChanDir := do
  let t ← peek
  return if t.isSymbol "<-" && !t.commented then .send else .both

/-- Whether `<- chan` follows and is a receiving channel type of its own. -/
def atArrowChan : Reader Bool := fun ts =>
  match ts with
  | arrow :: chan :: next :: _ =>
    some (arrow.isSymbol "<-" && chan.isKeyword "chan" && !next.isSymbol "<-", ts)
  | _ => some (false, ts)

/-- A method or an embedded type of an interface. -/
inductive InterfaceElem where
  | method (m : MethodSpec)
  | embed (type : TypeExpr)

def InterfaceElem.methods (elems : List InterfaceElem) : List MethodSpec :=
  elems.filterMap fun
    | .method m => some m
    | .embed _ => none

def InterfaceElem.embeds (elems : List InterfaceElem) : List TypeExpr :=
  elems.filterMap fun
    | .method _ => none
    | .embed t => some t

def chanType (g : Grammar) (lineEnds : Bool) : Reader TypeExpr := do
  let dir ← chanDir
  if (← atSymbol "<-") && !(← atArrowChan) then
    let _ ← take
  return .chan dir (← g.type lineEnds)

def bracketType (g : Grammar) (lineEnds : Bool) : Reader TypeExpr := do
  let _ ← symbol "["
  if ← skipSymbol "]" then
    return .slice (← g.type lineEnds)
  let (_, tokens) ← consumed (g.expr .inner)
  let _ ← symbol "]"
  return .array (length? (Token.join tokens)) (← g.type lineEnds)

def tag : Reader Unit := do
  let t ← peek
  if t.kind == .literal .string && !t.breaks then
    let _ ← take

def atFieldEnd : Reader Bool := do
  let t ← peek
  return t.breaks || ["\x7d", ";", "\x00"].any t.isSymbol

def embeddedField (g : Grammar) : Reader StructField := do
  let isPointer ← skipSymbol "*"
  let type ← namedType g true
  tag
  require (← atFieldEnd)
  let full := if isPointer then .pointer type else type
  return { names := full.baseName?.toList, type := full, embedded := true }

def structField (g : Grammar) : Reader StructField :=
  embeddedField g <|> do
    let names ← commaSeparated false name
    let type ← g.type true
    tag
    return { names, type, embedded := false }

def signature (g : Grammar) (lineEnds : Bool) : Reader FuncType := do
  let (fields, variadic) ← params g
  let results ← do
    if ← closedByLine lineEnds then pure []
    else if ← atSymbol "(" then pure (← params g).1
    else if ← atSimpleType then
      let pos := (← peek).pos
      pure [⟨pos, [], ← g.simpleType lineEnds⟩]
    else pure []
  return { params := fields, results, variadic }

def interfaceElem (g : Grammar) : Reader InterfaceElem := do
  let t ← peek
  let u ← peekSecond
  if t.isName && u.isSymbol "(" && !u.breaks then
    let id ← name
    return .method { name := id, sig := ← signature g true }
  else
    return .embed (← typeElem g true)

/-- One level of `Grammar.simpleType`. -/
def readSimpleType (g : Grammar) (lineEnds : Bool) : Reader TypeExpr := do
  let t ← peek
  if t.isName then
    namedType g lineEnds
  else if t.isSymbol "[" then
    bracketType g lineEnds
  else do
    let _ ← take
    if t.isSymbol "*" then
      return .pointer (← g.type lineEnds)
    else if t.isSymbol "~" then
      return .tilde (← g.type lineEnds)
    else if t.isSymbol "<-" then
      let _ ← keyword "chan"
      return .chan .recv (← g.type lineEnds)
    else if t.isKeyword "chan" then
      chanType g lineEnds
    else if t.isKeyword "map" then
      let _ ← symbol "["
      let key ← g.type false
      let _ ← symbol "]"
      return .map key (← g.type lineEnds)
    else if t.isKeyword "func" then
      return .func (← signature g lineEnds)
    else if t.isKeyword "struct" then
      let _ ← symbol "\x7b"
      return .struct (← terminated false "\x7d" (structField g))
    else if t.isKeyword "interface" then
      let _ ← symbol "\x7b"
      let elems ← terminated false "\x7d" (interfaceElem g)
      return .interface (InterfaceElem.methods elems) (InterfaceElem.embeds elems)
    else
      .fail

/-- One level of `Grammar.type`. -/
def readType (g : Grammar) (lineEnds : Bool) : Reader TypeExpr := do
  if ← skipSymbol "(" then
    let type ← g.type false
    let _ ← symbol ")"
    return type
  else
    readSimpleType g lineEnds

end UnusedMethods.Syntax.Grammar
