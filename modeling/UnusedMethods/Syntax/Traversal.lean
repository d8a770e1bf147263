import UnusedMethods.Syntax.Tree

/-!
# Walking through a file

`SourceFile.items` lists the expressions and the `var` specs of a file in the order in which they
begin: an expression before its parts, a spec before its values.
-/

namespace UnusedMethods.Syntax

/-- Something met on a walk through a file. -/
inductive Item where
  | expr (e : Expr)
  | varSpec (spec : ValueSpec)

def Item.expr? : Item → Option Expr
  | .expr e => some e
  | .varSpec _ => none

def Item.varSpec? : Item → Option ValueSpec
  | .expr _ => none
  | .varSpec spec => some spec

mutual

def Expr.items : Expr → List Item
  | .ident n name => [.expr (.ident n name)]
  | .lit n kind => [.expr (.lit n kind)]
  | .composite n type elems => .expr (.composite n type elems) :: Element.itemsAll elems
  | .funcLit n sig body => .expr (.funcLit n sig body) :: Stmt.itemsAll body
  | .selector n operand field => .expr (.selector n operand field) :: operand.items
  | .call n func typeArgs args spread =>
    .expr (.call n func typeArgs args spread) :: (func.items ++ Expr.itemsAll args)
  | .index n operand index => .expr (.index n operand index) :: (operand.items ++ index.items)
  | .instantiate n operand args => .expr (.instantiate n operand args) :: operand.items
  | .slice n operand parts => .expr (.slice n operand parts) :: (operand.items ++ Expr.itemsAll parts)
  | .typeAssert n operand type => .expr (.typeAssert n operand type) :: operand.items
  | .conversion n type operand => .expr (.conversion n type operand) :: operand.items
  | .unary n op operand => .expr (.unary n op operand) :: operand.items
  | .binary n op left right => .expr (.binary n op left right) :: (left.items ++ right.items)
  | .paren n inner => .expr (.paren n inner) :: inner.items
  | .type n type => [.expr (.type n type)]
termination_by structural e => e

def Expr.itemsAll : List Expr → List Item
  | [] => []
  | e :: es => e.items ++ Expr.itemsAll es
termination_by structural es => es

/-- Items of the first `n` of a list of expressions. -/
def Expr.itemsUpTo : Nat → List Expr → List Item
  | _, [] => []
  | 0, _ :: _ => []
  | n + 1, e :: es => e.items ++ Expr.itemsUpTo n es
termination_by structural _ es => es

def Expr.itemsOption : Option Expr → List Item
  | none => []
  | some e => e.items
termination_by structural e => e

/-- Items of the elements of a composite literal, each key before its value. -/
def Element.itemsAll : List Element → List Item
  | [] => []
  | ⟨key, value⟩ :: es => Expr.itemsOption key ++ value.items ++ Element.itemsAll es
termination_by structural es => es

def Stmt.items : Stmt → List Item
  | .decl d => d.items
  | .define lhs rhs => Expr.itemsAll lhs ++ Expr.itemsAll rhs
  | .assign lhs rhs => Expr.itemsAll lhs ++ Expr.itemsAll rhs
  | .expr e => e.items
  | .incDec e => e.items
  | .send chan value => chan.items ++ value.items
  | .go call => call.items
  | .defer call => call.items
  | .return values => Expr.itemsAll values
  | .block body => Stmt.itemsAll body
  | .if init cond body orElse =>
    Stmt.itemsOption init ++ cond.items ++ Stmt.itemsAll body ++ Stmt.itemsOption orElse
  | .for init cond post body =>
    Stmt.itemsOption init ++ Expr.itemsOption cond ++ Stmt.itemsOption post ++ Stmt.itemsAll body
  | .range vars _ subject body => Expr.itemsUpTo 2 vars ++ subject.items ++ Stmt.itemsAll body
  | .switch init tag clauses =>
    Stmt.itemsOption init ++ Expr.itemsOption tag ++ CaseClause.itemsAll clauses
  | .typeSwitch init _ subject clauses =>
    Stmt.itemsOption init ++ subject.items ++ TypeClause.itemsAll clauses
  | .select clauses => CommClause.itemsAll clauses
  | .labeled inner => inner.items
  | .branch => []
  | .empty => []
termination_by structural s => s

def Stmt.itemsAll : List Stmt → List Item
  | [] => []
  | s :: ss => s.items ++ Stmt.itemsAll ss
termination_by structural ss => ss

def Stmt.itemsOption : Option Stmt → List Item
  | none => []
  | some s => s.items
termination_by structural s => s

def CaseClause.itemsAll : List CaseClause → List Item
  | [] => []
  | ⟨values, body⟩ :: cs => Expr.itemsAll values ++ Stmt.itemsAll body ++ CaseClause.itemsAll cs
termination_by structural cs => cs

def TypeClause.itemsAll : List TypeClause → List Item
  | [] => []
  | ⟨_, body⟩ :: cs => Stmt.itemsAll body ++ TypeClause.itemsAll cs
termination_by structural cs => cs

def CommClause.itemsAll : List CommClause → List Item
  | [] => []
  | ⟨comm, body⟩ :: cs => Stmt.itemsOption comm ++ Stmt.itemsAll body ++ CommClause.itemsAll cs
termination_by structural cs => cs

/-- Items of a declaration. Constants are no items, but their values are. -/
def Decl.items : Decl → List Item
  | .type _ => []
  | .var specs => ValueSpec.itemsOfVars specs
  | .const specs => ValueSpec.itemsOfConsts specs
termination_by structural d => d

def ValueSpec.itemsOfVars : List ValueSpec → List Item
  | [] => []
  | ⟨pos, names, type, values⟩ :: ss =>
    .varSpec ⟨pos, names, type, values⟩ :: (Expr.itemsAll values ++ ValueSpec.itemsOfVars ss)
termination_by structural ss => ss

def ValueSpec.itemsOfConsts : List ValueSpec → List Item
  | [] => []
  | ⟨_, _, _, values⟩ :: ss => Expr.itemsAll values ++ ValueSpec.itemsOfConsts ss
termination_by structural ss => ss

end

def TopDecl.items : TopDecl → List Item
  | .decl d => d.items
  | .func f => f.body.elim [] Stmt.itemsAll

def SourceFile.items (file : SourceFile) : List Item := file.decls.flatMap TopDecl.items

end UnusedMethods.Syntax
