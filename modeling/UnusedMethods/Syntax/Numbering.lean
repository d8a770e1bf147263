import UnusedMethods.Syntax.Grammar.File

/-!
# Numbering expressions

`SourceFile.number` gives the expressions of a file the numbers 0, 1, 2, … in the order in which
they end, so that the parts of an expression have smaller numbers than the expression itself.
-/

namespace UnusedMethods.Syntax

abbrev Numbering := StateM Nat

def Node.number (n : Node) : Numbering Node := fun next => (⟨next, n.pos⟩, next + 1)

mutual

def Expr.number : Expr → Numbering Expr
  | .ident n name => return .ident (← n.number) name
  | .lit n kind => return .lit (← n.number) kind
  | .composite n type elems => do
    let elems ← Element.numberAll elems
    return .composite (← n.number) type elems
  | .funcLit n sig body => do
    let body ← Stmt.numberAll body
    return .funcLit (← n.number) sig body
  | .selector n operand field => do
    let operand ← operand.number
    return .selector (← n.number) operand field
  | .call n func typeArgs args spread => do
    let func ← func.number
    let args ← Expr.numberAll args
    return .call (← n.number) func typeArgs args spread
  | .index n operand index => do
    let operand ← operand.number
    let index ← index.number
    return .index (← n.number) operand index
  | .instantiate n operand args => do
    let operand ← operand.number
    return .instantiate (← n.number) operand args
  | .slice n operand parts => do
    let operand ← operand.number
    let parts ← Expr.numberAll parts
    return .slice (← n.number) operand parts
  | .typeAssert n operand type => do
    let operand ← operand.number
    return .typeAssert (← n.number) operand type
  | .conversion n type operand => do
    let operand ← operand.number
    return .conversion (← n.number) type operand
  | .unary n op operand => do
    let operand ← operand.number
    return .unary (← n.number) op operand
  | .binary n op left right => do
    let left ← left.number
    let right ← right.number
    return .binary (← n.number) op left right
  | .paren n inner => do
    let inner ← inner.number
    return .paren (← n.number) inner
  | .type n type => return .type (← n.number) type
termination_by structural e => e

def Expr.numberAll : List Expr → Numbering (List Expr)
  | [] => return []
  | e :: es => do
    let e ← e.number
    return e :: (← Expr.numberAll es)
termination_by structural es => es

def Expr.numberOption : Option Expr → Numbering (Option Expr)
  | none => return none
  | some e => return some (← e.number)
termination_by structural e => e

def Element.number : Element → Numbering Element
  | ⟨key, value⟩ => do
    let key ← Expr.numberOption key
    return ⟨key, ← value.number⟩
termination_by structural e => e

def Element.numberAll : List Element → Numbering (List Element)
  | [] => return []
  | e :: es => do
    let e ← e.number
    return e :: (← Element.numberAll es)
termination_by structural es => es

def Stmt.number : Stmt → Numbering Stmt
  | .decl d => return .decl (← d.number)
  | .define lhs rhs => do
    let lhs ← Expr.numberAll lhs
    return .define lhs (← Expr.numberAll rhs)
  | .assign lhs rhs => do
    let lhs ← Expr.numberAll lhs
    return .assign lhs (← Expr.numberAll rhs)
  | .expr e => return .expr (← e.number)
  | .incDec e => return .incDec (← e.number)
  | .send chan value => do
    let chan ← chan.number
    return .send chan (← value.number)
  | .go call => return .go (← call.number)
  | .defer call => return .defer (← call.number)
  | .return values => return .return (← Expr.numberAll values)
  | .block body => return .block (← Stmt.numberAll body)
  | .if init cond body orElse => do
    let init ← Stmt.numberOption init
    let cond ← cond.number
    let body ← Stmt.numberAll body
    return .if init cond body (← Stmt.numberOption orElse)
  | .for init cond post body => do
    let init ← Stmt.numberOption init
    let cond ← Expr.numberOption cond
    let post ← Stmt.numberOption post
    return .for init cond post (← Stmt.numberAll body)
  | .range vars define subject body => do
    let vars ← Expr.numberAll vars
    let subject ← subject.number
    return .range vars define subject (← Stmt.numberAll body)
  | .switch init tag clauses => do
    let init ← Stmt.numberOption init
    let tag ← Expr.numberOption tag
    return .switch init tag (← CaseClause.numberAll clauses)
  | .typeSwitch init binding subject clauses => do
    let init ← Stmt.numberOption init
    let subject ← subject.number
    return .typeSwitch init binding subject (← TypeClause.numberAll clauses)
  | .select clauses => return .select (← CommClause.numberAll clauses)
  | .labeled inner => return .labeled (← inner.number)
  | .branch => return .branch
  | .empty => return .empty
termination_by structural s => s

def Stmt.numberAll : List Stmt → Numbering (List Stmt)
  | [] => return []
  | s :: ss => do
    let s ← s.number
    return s :: (← Stmt.numberAll ss)
termination_by structural ss => ss

def Stmt.numberOption : Option Stmt → Numbering (Option Stmt)
  | none => return none
  | some s => return some (← s.number)
termination_by structural s => s

def CaseClause.number : CaseClause → Numbering CaseClause
  | ⟨values, body⟩ => do
    let values ← Expr.numberAll values
    return ⟨values, ← Stmt.numberAll body⟩
termination_by structural c => c

def CaseClause.numberAll : List CaseClause → Numbering (List CaseClause)
  | [] => return []
  | c :: cs => do
    let c ← c.number
    return c :: (← CaseClause.numberAll cs)
termination_by structural cs => cs

def TypeClause.number : TypeClause → Numbering TypeClause
  | ⟨types, body⟩ => return ⟨types, ← Stmt.numberAll body⟩
termination_by structural c => c

def TypeClause.numberAll : List TypeClause → Numbering (List TypeClause)
  | [] => return []
  | c :: cs => do
    let c ← c.number
    return c :: (← TypeClause.numberAll cs)
termination_by structural cs => cs

def CommClause.number : CommClause → Numbering CommClause
  | ⟨comm, body⟩ => do
    let comm ← Stmt.numberOption comm
    return ⟨comm, ← Stmt.numberAll body⟩
termination_by structural c => c

def CommClause.numberAll : List CommClause → Numbering (List CommClause)
  | [] => return []
  | c :: cs => do
    let c ← c.number
    return c :: (← CommClause.numberAll cs)
termination_by structural cs => cs

def Decl.number : Decl → Numbering Decl
  | .type specs => return .type specs
  | .var specs => return .var (← ValueSpec.numberAll specs)
  | .const specs => return .const (← ValueSpec.numberAll specs)
termination_by structural d => d

def ValueSpec.number : ValueSpec → Numbering ValueSpec
  | ⟨pos, names, type, values⟩ => return ⟨pos, names, type, ← Expr.numberAll values⟩
termination_by structural s => s

def ValueSpec.numberAll : List ValueSpec → Numbering (List ValueSpec)
  | [] => return []
  | s :: ss => do
    let s ← s.number
    return s :: (← ValueSpec.numberAll ss)
termination_by structural ss => ss

end

def FuncDecl.number (f : FuncDecl) : Numbering FuncDecl := do
  match f.body with
  | none => return f
  | some body => return { f with body := some (← Stmt.numberAll body) }

def TopDecl.number : TopDecl → Numbering TopDecl
  | .decl d => return .decl (← d.number)
  | .func f => return .func (← f.number)

def SourceFile.number (file : SourceFile) : SourceFile :=
  { file with decls := ((file.decls.mapM TopDecl.number).run 0).1 }

def SourceFile.parse (text : String) : Except SyntaxError SourceFile :=
  (SourceFile.read text).map SourceFile.number

end UnusedMethods.Syntax
