import UnusedMethods.Syntax.Lexer
import UnusedMethods.Syntax.Grammar.Stmt

/-!
# Reading files

A file is a sequence of package clauses, imports, functions, methods and statements. Statements
at top level are read and dropped, declarations apart. The last package clause names the package.
-/

namespace UnusedMethods.Syntax

namespace Grammar

open Reader

/-- An import. The path is the text of a string literal without quotation marks at its ends. -/
def importSpec : Reader ImportSpec := do
  let t ← peek
  let id ←
    if t.isSymbol "." then do
      let _ ← take
      pure (some t.toIdent)
    else if t.isName then some <$> name
    else pure none
  let path ← take
  require (path.kind == .literal .string)
  let isQuote (c : Char) : Bool := c == '"' || c == '\x60'
  let trimmed := ((path.text.toList.dropWhile isQuote).reverse.dropWhile isQuote).reverse
  return { pos := t.pos, name := id, path := String.ofList trimmed }

def optionalBody (g : Grammar) : Reader (Option (List Stmt)) := do
  if ← continuesWith true "\x7b" then some <$> block g else return none

def funcDecl (g : Grammar) : Reader FuncDecl := do
  let _ ← keyword "func"
  if ← atSymbol "(" then
    let (recv, _) ← params g
    let id ← name
    let sig ← signature g true
    return { name := id, recv := recv.head?, typeParams := [], sig, body := ← optionalBody g }
  else
    let id ← name
    let typeParams ← if ← atSymbol "[" then typeParams g else pure []
    let sig ← signature g true
    return { name := id, recv := none, typeParams, sig, body := ← optionalBody g }

inductive FileItem where
  | package (id : Ident)
  | imports (specs : List ImportSpec)
  | func (f : FuncDecl)
  | decl (d : Decl)
  | dropped

def FileItem.endsFile : FileItem → Bool
  | .package _ | .imports _ | .func _ => true
  | .decl _ | .dropped => false

def item (g : Grammar) : Reader FileItem := do
  let t ← peek
  let statement : Reader FileItem := do
    match ← g.stmt with
    | .decl d => return .decl d
    | _ => return .dropped
  if t.isKeyword "package" then
    let _ ← take
    return .package (← name)
  else if t.isKeyword "import" then
    let _ ← take
    return .imports (← specs false importSpec)
  else if t.isKeyword "func" then
    (do return .func (← funcDecl g)) <|> statement
  else
    statement

/-- Items up to the end of the text, at most as many as the bound. -/
def itemsUpTo (g : Grammar) : Nat → Reader (List FileItem)
  | 0 => .fail
  | n + 1 => do
    if (← peek).kind == .eof then return []
    let i ← item g
    if (← peek).kind == .eof && !(← peek).breaks then
      require i.endsFile
      return [i]
    terminator
    return i :: (← itemsUpTo g n)

def items (g : Grammar) : Reader (List FileItem) := do itemsUpTo g ((← remaining) + 1)

end Grammar

/-- Why a text is not a source file. -/
inductive SyntaxError where
  | malformed
  | noPackageClause
deriving DecidableEq

def SyntaxError.message : SyntaxError → String
  | .malformed => "syntax error"
  | .noPackageClause => "missing package clause"

open Grammar in
def SourceFile.ofItems? (list : List FileItem) : Option SourceFile := do
  let package ← (list.filterMap fun
    | .package id => some id
    | _ => none).getLast?
  return {
    package
    imports := list.flatMap fun
      | .imports specs => specs
      | _ => []
    decls := list.filterMap fun
      | .func f => some (.func f)
      | .decl d => some (.decl d)
      | _ => none }

/-- How deep readers may nest on a text of so many tokens. Every reader that calls another one
without consuming a token does so at most six times in a row. -/
def Grammar.depthFor (tokens : Nat) : Nat := 6 * (tokens + 2)

def SourceFile.read (text : String) : Except SyntaxError SourceFile :=
  match Token.scan? text with
  | none => .error .malformed
  | some tokens =>
    match Grammar.items (.level (Grammar.depthFor tokens.length)) tokens with
    | none => .error .malformed
    | some (list, _) =>
      match SourceFile.ofItems? list with
      | none => .error .noPackageClause
      | some file => .ok file

end UnusedMethods.Syntax
