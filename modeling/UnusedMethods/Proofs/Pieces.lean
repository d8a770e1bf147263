import Mathlib.Data.List.Perm.Basic
import UnusedMethods.Syntax.Numbering
import UnusedMethods.Syntax.Traversal

/-!
# The pieces of a file

A file is made of expressions, statements, and specs of variables and constants, and each of these holds others. Here
this is said once for all forms, as a list of the pieces that stand directly in a piece. What stands in a piece at any
depth, the nearest expressions below one, and what a walk leaves out are then the same recursion over pieces.

A walk leaves out the third and further operands on the left of a range clause, with all that stands in them.
-/

namespace UnusedMethods.Syntax

open List (Perm)
open scoped List

/-- Something that stands in a file: an expression, a statement, or variables or constants that are declared together. -/
inductive Piece where
  | expr (e : Expr)
  | stmt (s : Stmt)
  | varSpec (spec : ValueSpec)
  | constSpec (spec : ValueSpec)

/-- The pieces of an element. -/
def Element.pieces (e : Element) : List Piece := e.key.toList.map .expr ++ [.expr e.value]

/-- The pieces of a clause of an expression switch. -/
def CaseClause.pieces (c : CaseClause) : List Piece := c.values.map .expr ++ c.body.map .stmt

/-- The pieces of a clause of a type switch. -/
def TypeClause.pieces (c : TypeClause) : List Piece := c.body.map .stmt

/-- The pieces of a clause of a select statement. -/
def CommClause.pieces (c : CommClause) : List Piece := c.comm.toList.map .stmt ++ c.body.map .stmt

/-- The specs of a declaration. Declared types hold no expressions. -/
def Decl.pieces : Decl → List Piece
  | .type _ => []
  | .var specs => specs.map .varSpec
  | .const specs => specs.map .constSpec

namespace Piece

/-- The expression that a piece is. -/
def expr? : Piece → Option Expr
  | .expr e => some e
  | .stmt _ | .varSpec _ | .constSpec _ => none

/-- The `var` spec that a piece is. -/
def varSpec? : Piece → Option ValueSpec
  | .varSpec spec => some spec
  | .expr _ | .stmt _ | .constSpec _ => none

/-- The pieces that stand directly in a piece. -/
def parts : Piece → List Piece
  | .expr (.ident _ _) => []
  | .expr (.lit _ _) => []
  | .expr (.composite _ _ elems) => elems.flatMap Element.pieces
  | .expr (.funcLit _ _ body) => body.map .stmt
  | .expr (.selector _ operand _) => [.expr operand]
  | .expr (.call _ func _ args _) => .expr func :: args.map .expr
  | .expr (.index _ operand index) => [.expr operand, .expr index]
  | .expr (.instantiate _ operand _) => [.expr operand]
  | .expr (.slice _ operand parts) => .expr operand :: parts.map .expr
  | .expr (.typeAssert _ operand _) => [.expr operand]
  | .expr (.conversion _ _ operand) => [.expr operand]
  | .expr (.unary _ _ operand) => [.expr operand]
  | .expr (.binary _ _ left right) => [.expr left, .expr right]
  | .expr (.paren _ inner) => [.expr inner]
  | .expr (.type _ _) => []
  | .stmt (.decl d) => d.pieces
  | .stmt (.define lhs rhs) => lhs.map .expr ++ rhs.map .expr
  | .stmt (.assign lhs rhs) => lhs.map .expr ++ rhs.map .expr
  | .stmt (.expr e) => [.expr e]
  | .stmt (.incDec e) => [.expr e]
  | .stmt (.send chan value) => [.expr chan, .expr value]
  | .stmt (.go call) => [.expr call]
  | .stmt (.defer call) => [.expr call]
  | .stmt (.return values) => values.map .expr
  | .stmt (.block body) => body.map .stmt
  | .stmt (.if init cond body orElse) =>
    init.toList.map .stmt ++ [.expr cond] ++ body.map .stmt ++ orElse.toList.map .stmt
  | .stmt (.for init cond post body) =>
    init.toList.map .stmt ++ cond.toList.map .expr ++ post.toList.map .stmt ++ body.map .stmt
  | .stmt (.range vars _ subject body) => vars.map .expr ++ [.expr subject] ++ body.map .stmt
  | .stmt (.switch init tag clauses) =>
    init.toList.map .stmt ++ tag.toList.map .expr ++ clauses.flatMap CaseClause.pieces
  | .stmt (.typeSwitch init _ subject clauses) =>
    init.toList.map .stmt ++ [.expr subject] ++ clauses.flatMap TypeClause.pieces
  | .stmt (.select clauses) => clauses.flatMap CommClause.pieces
  | .stmt (.labeled inner) => [.stmt inner]
  | .stmt .branch => []
  | .stmt .empty => []
  | .varSpec spec => spec.values.map .expr
  | .constSpec spec => spec.values.map .expr


section Size

/-! ### Parts are smaller -/

variable {α : Type} [SizeOf α] {q : Piece}

theorem sizeOf_lt_of_mem_map {make : α → Piece} (hmake : ∀ a, sizeOf (make a) = 1 + sizeOf a) {as : List α}
    (h : q ∈ as.map make) : sizeOf q < 1 + sizeOf as := by
  obtain ⟨a, ha, rfl⟩ := List.mem_map.1 h
  have hlt := List.sizeOf_lt_of_mem ha
  rw [hmake]
  omega

theorem sizeOf_lt_of_mem_toList {make : α → Piece} (hmake : ∀ a, sizeOf (make a) = 1 + sizeOf a) {o : Option α}
    (h : q ∈ o.toList.map make) : sizeOf q < 1 + sizeOf o := by
  cases o with
  | none => simp at h
  | some a =>
    obtain rfl : q = make a := by simpa using h
    rw [hmake, Option.some.sizeOf_spec]
    omega

theorem sizeOf_lt_of_mem_flatMap {pieces : α → List Piece} (hpieces : ∀ a, q ∈ pieces a → sizeOf q < 1 + sizeOf a)
    {as : List α} (h : q ∈ as.flatMap pieces) : sizeOf q < 1 + sizeOf as := by
  obtain ⟨a, ha, hq⟩ := List.mem_flatMap.1 h
  have hlt := List.sizeOf_lt_of_mem ha
  have hlt' := hpieces a hq
  omega

theorem sizeOf_lt_of_mem_exprs {es : List Expr} (h : q ∈ es.map Piece.expr) : sizeOf q < 1 + sizeOf es :=
  sizeOf_lt_of_mem_map expr.sizeOf_spec h

theorem sizeOf_lt_of_mem_stmts {ss : List Stmt} (h : q ∈ ss.map Piece.stmt) : sizeOf q < 1 + sizeOf ss :=
  sizeOf_lt_of_mem_map stmt.sizeOf_spec h

theorem sizeOf_lt_of_mem_expr? {e : Option Expr} (h : q ∈ e.toList.map Piece.expr) : sizeOf q < 1 + sizeOf e :=
  sizeOf_lt_of_mem_toList expr.sizeOf_spec h

theorem sizeOf_lt_of_mem_stmt? {s : Option Stmt} (h : q ∈ s.toList.map Piece.stmt) : sizeOf q < 1 + sizeOf s :=
  sizeOf_lt_of_mem_toList stmt.sizeOf_spec h

theorem sizeOf_lt_of_mem_elements {es : List Element} (h : q ∈ es.flatMap Element.pieces) : sizeOf q < 1 + sizeOf es := by
  refine sizeOf_lt_of_mem_flatMap (fun e he => ?_) h
  obtain ⟨key, value⟩ := e
  simp only [Element.pieces] at he
  grind [→ sizeOf_lt_of_mem_expr?]

theorem sizeOf_lt_of_mem_caseClauses {cs : List CaseClause} (h : q ∈ cs.flatMap CaseClause.pieces) :
    sizeOf q < 1 + sizeOf cs := by
  refine sizeOf_lt_of_mem_flatMap (fun c hc => ?_) h
  obtain ⟨values, body⟩ := c
  simp only [CaseClause.pieces] at hc
  grind [→ sizeOf_lt_of_mem_exprs, → sizeOf_lt_of_mem_stmts]

theorem sizeOf_lt_of_mem_typeClauses {cs : List TypeClause} (h : q ∈ cs.flatMap TypeClause.pieces) :
    sizeOf q < 1 + sizeOf cs := by
  refine sizeOf_lt_of_mem_flatMap (fun c hc => ?_) h
  obtain ⟨types, body⟩ := c
  simp only [TypeClause.pieces] at hc
  grind [→ sizeOf_lt_of_mem_stmts]

theorem sizeOf_lt_of_mem_commClauses {cs : List CommClause} (h : q ∈ cs.flatMap CommClause.pieces) :
    sizeOf q < 1 + sizeOf cs := by
  refine sizeOf_lt_of_mem_flatMap (fun c hc => ?_) h
  obtain ⟨comm, body⟩ := c
  simp only [CommClause.pieces] at hc
  grind [→ sizeOf_lt_of_mem_stmt?, → sizeOf_lt_of_mem_stmts]

theorem sizeOf_lt_of_mem_decl {d : Decl} (h : q ∈ d.pieces) : sizeOf q < 1 + sizeOf d := by
  cases d with
  | type specs => simp [Decl.pieces] at h
  | var specs =>
    have hlt := sizeOf_lt_of_mem_map varSpec.sizeOf_spec h
    rw [Decl.var.sizeOf_spec]
    omega
  | const specs =>
    have hlt := sizeOf_lt_of_mem_map constSpec.sizeOf_spec h
    rw [Decl.const.sizeOf_spec]
    omega

theorem sizeOf_lt_of_mem_parts {p : Piece} (h : q ∈ p.parts) : sizeOf q < sizeOf p := by
  cases p with
  | expr e =>
    cases e <;> simp only [parts] at h <;>
      grind [→ sizeOf_lt_of_mem_exprs, → sizeOf_lt_of_mem_stmts, → sizeOf_lt_of_mem_elements]
  | stmt s =>
    cases s <;> simp only [parts] at h <;>
      grind [→ sizeOf_lt_of_mem_exprs, → sizeOf_lt_of_mem_stmts, → sizeOf_lt_of_mem_expr?, → sizeOf_lt_of_mem_stmt?,
        → sizeOf_lt_of_mem_caseClauses, → sizeOf_lt_of_mem_typeClauses, → sizeOf_lt_of_mem_commClauses,
        → sizeOf_lt_of_mem_decl]
  | varSpec spec =>
    obtain ⟨pos, names, type, values⟩ := spec
    have hlt : sizeOf q < 1 + sizeOf values := sizeOf_lt_of_mem_exprs h
    rw [varSpec.sizeOf_spec, ValueSpec.mk.sizeOf_spec]
    omega
  | constSpec spec =>
    obtain ⟨pos, names, type, values⟩ := spec
    have hlt : sizeOf q < 1 + sizeOf values := sizeOf_lt_of_mem_exprs h
    rw [constSpec.sizeOf_spec, ValueSpec.mk.sizeOf_spec]
    omega

end Size

/-- A piece, and what stands in it at any depth. -/
def all (p : Piece) : List Piece := p :: p.parts.attach.flatMap fun q => q.1.all
termination_by sizeOf p
decreasing_by exact sizeOf_lt_of_mem_parts q.2

theorem all_eq (p : Piece) : p.all = p :: p.parts.flatMap all := by
  rw [all, List.flatMap_subtype fun _ _ => rfl, List.unattach_attach]

/-- The expressions among some pieces and in them. -/
def exprsOf (ps : List Piece) : List Expr := (ps.flatMap all).filterMap expr?

@[simp]
theorem exprsOf_nil : exprsOf [] = [] := rfl

@[simp]
theorem exprsOf_append (ps qs : List Piece) : exprsOf (ps ++ qs) = exprsOf ps ++ exprsOf qs := by
  simp [exprsOf]

theorem exprsOf_cons (p : Piece) (ps : List Piece) :
    exprsOf (p :: ps) = p.expr?.toList ++ exprsOf p.parts ++ exprsOf ps := by
  simp only [exprsOf, List.flatMap_cons, all_eq p, List.filterMap_append, List.filterMap_cons]
  cases p.expr? <;> simp

end Piece

namespace Piece

/-- What a walk meets in a piece. -/
def items : Piece → List Item
  | .expr e => e.items
  | .stmt s => s.items
  | .varSpec spec => ValueSpec.itemsOfVars [spec]
  | .constSpec spec => ValueSpec.itemsOfConsts [spec]

/-- The parts that a walk leaves out: a range clause has two variables at most. -/
def dropped : Piece → List Piece
  | .stmt (.range vars _ _ _) => (vars.drop 2).map .expr
  | _ => []

/-- The parts that a walk goes on to. -/
def kept : Piece → List Piece
  | .stmt (.range vars _ subject body) => (vars.take 2).map .expr ++ [.expr subject] ++ body.map .stmt
  | p => p.parts

theorem parts_perm (p : Piece) : p.parts ~ p.kept ++ p.dropped := by
  fun_cases kept p with
  | case1 vars define subject body =>
    have hvars : vars.map Piece.expr = (vars.take 2).map .expr ++ (vars.drop 2).map .expr := by
      rw [← List.map_append, List.take_append_drop]
    rw [parts, dropped, hvars]
    simp only [List.append_assoc]
    exact (List.perm_append_comm.trans (by simp)).append_left _
  | case2 p hne =>
    have hdropped : p.dropped = [] := by
      fun_cases dropped p with
      | case1 vars define subject body => exact absurd rfl (hne vars define subject body)
      | case2 => rfl
    rw [hdropped, List.append_nil]

theorem mem_parts_of_mem_kept {p q : Piece} (h : q ∈ p.kept) : q ∈ p.parts :=
  (parts_perm p).mem_iff.2 (List.mem_append_left _ h)

/-- What a walk through a piece does not come to: the parts that it leaves out, with all that stands in them. -/
def unreached (p : Piece) : List Piece := p.dropped.flatMap all ++ p.kept.attach.flatMap fun q => q.1.unreached
termination_by sizeOf p
decreasing_by exact sizeOf_lt_of_mem_parts (mem_parts_of_mem_kept q.2)

end Piece

end UnusedMethods.Syntax
