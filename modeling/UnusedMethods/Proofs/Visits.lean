import Mathlib.Data.List.Nodup
import UnusedMethods.Proofs.Pieces

/-!
# Every expression is visited once

The expressions of a file that has been read have the numbers from 0 on, and what stands in an expression has smaller
numbers than the expression. This holds of any pieces that have been numbered one after the other (`Numbered`), and the
functions that number things add what they return to the pieces that were numbered before (`Numbers`).

As no two expressions have the same number, the walk through a file that meets each piece once visits each expression
once, unless it stands in an operand that the walk leaves out.
-/

namespace UnusedMethods.Syntax

open Piece (exprsOf)
open scoped List

/-! ## Numbers -/

/-- The expressions among some pieces and in them have the numbers below `next`, and what stands in an expression has a
smaller number. -/
structure Numbered (ps : List Piece) (next : Nat) : Prop where
  ids : (exprsOf ps).map Expr.id ~ List.range next
  below : ∀ e ∈ exprsOf ps, ∀ e' ∈ exprsOf (Piece.expr e).parts, e'.id < e.id

namespace Numbered

variable {ps : List Piece} {next : Nat}

theorem nil : Numbered [] 0 := ⟨.refl _, by simp⟩

theorem expr {e : Expr} (h : Numbered (ps ++ (Piece.expr e).parts) next) (hid : e.id = next) :
    Numbered (ps ++ [.expr e]) (next + 1) := by
  have hexprs : exprsOf (ps ++ [.expr e]) ~ exprsOf (ps ++ (Piece.expr e).parts) ++ [e] := by
    rw [Piece.exprsOf_append, Piece.exprsOf_append, Piece.exprsOf_cons, Piece.exprsOf_nil, List.append_nil,
      List.append_assoc]
    exact List.perm_append_comm.append_left _
  constructor
  · have hids := hexprs.map Expr.id
    rw [List.map_append, List.map_singleton, hid] at hids
    rw [List.range_succ]
    exact hids.trans (h.ids.append_right _)
  · intro d hd d' hd'
    rcases List.mem_append.1 (hexprs.mem_iff.1 hd) with hd | hd
    · exact h.below d hd d' hd'
    · obtain rfl := List.mem_singleton.1 hd
      -- all numbers that have been given are smaller than the next
      have hmem : d'.id ∈ List.range next :=
        h.ids.mem_iff.1 (List.mem_map_of_mem (by rw [Piece.exprsOf_append]; exact List.mem_append_right _ hd'))
      rw [hid]
      exact List.mem_range.1 hmem

theorem wrap {p : Piece} (h : Numbered (ps ++ p.parts) next) (hp : p.expr? = none) : Numbered (ps ++ [p]) next := by
  have hexprs : exprsOf (ps ++ [p]) = exprsOf (ps ++ p.parts) := by
    simp [Piece.exprsOf_cons, hp]
  exact ⟨hexprs ▸ h.ids, hexprs ▸ h.below⟩

end Numbered

/-- The step numbers more pieces: if those in `before` have been numbered, those in `after` have been numbered then. -/
def Numbers {α : Type} (before : List Piece) (x : Numbering α) (after : α → List Piece) : Prop :=
  ∀ next, Numbered before next → Numbered (after (x.run next).1) (x.run next).2

namespace Numbers

variable {α β : Type} {before ps : List Piece}

theorem pure {a : α} {after : α → List Piece} (h : before = after a) : Numbers before (Pure.pure a) after :=
  fun _ hbefore => h ▸ hbefore

theorem bind {x : Numbering α} {f : α → Numbering β} {middle : α → List Piece} {after : β → List Piece}
    (hx : Numbers before x middle) (hf : ∀ a, Numbers (middle a) (f a) after) : Numbers before (x >>= f) after :=
  fun next hbefore => hf _ _ (hx next hbefore)

theorem expr {node : Node} {make : Node → Expr} (hparts : ∀ n, before = ps ++ (Piece.expr (make n)).parts)
    (hnode : ∀ n, (make n).node = n) :
    Numbers before (node.number >>= fun n => Pure.pure (make n)) fun e => ps ++ [.expr e] := by
  intro next hbefore
  rw [hparts ⟨next, node.pos⟩] at hbefore
  exact hbefore.expr (congrArg Node.id (hnode _))

theorem wrap {a : α} {make : α → Piece} (hmake : (make a).expr? = none) (hparts : before = ps ++ (make a).parts) :
    Numbers before (Pure.pure a) fun a => ps ++ [make a] := by
  intro next hbefore
  rw [hparts] at hbefore
  exact hbefore.wrap hmake

end Numbers

mutual

theorem Expr.numbers (e : Expr) (ps : List Piece) : Numbers ps e.number fun e => ps ++ [.expr e] := by
  cases e with
  | ident node name => exact .expr (by simp [Piece.parts]) fun _ => rfl
  | lit node kind => exact .expr (by simp [Piece.parts]) fun _ => rfl
  | composite node type elems =>
    exact .bind (Element.numbersAll elems ps) fun _ => .expr (by simp [Piece.parts]) fun _ => rfl
  | funcLit node sig body =>
    exact .bind (Stmt.numbersAll body ps) fun _ => .expr (by simp [Piece.parts]) fun _ => rfl
  | selector node operand field =>
    exact .bind (Expr.numbers operand ps) fun _ => .expr (by simp [Piece.parts]) fun _ => rfl
  | call node func typeArgs args spread =>
    refine .bind (Expr.numbers func ps) fun _ => .bind (Expr.numbersAll args _) fun _ => ?_
    exact .expr (by simp [Piece.parts]) fun _ => rfl
  | index node operand index =>
    refine .bind (Expr.numbers operand ps) fun _ => .bind (Expr.numbers index _) fun _ => ?_
    exact .expr (by simp [Piece.parts]) fun _ => rfl
  | instantiate node operand args =>
    exact .bind (Expr.numbers operand ps) fun _ => .expr (by simp [Piece.parts]) fun _ => rfl
  | slice node operand parts =>
    refine .bind (Expr.numbers operand ps) fun _ => .bind (Expr.numbersAll parts _) fun _ => ?_
    exact .expr (by simp [Piece.parts]) fun _ => rfl
  | typeAssert node operand type =>
    exact .bind (Expr.numbers operand ps) fun _ => .expr (by simp [Piece.parts]) fun _ => rfl
  | conversion node type operand =>
    exact .bind (Expr.numbers operand ps) fun _ => .expr (by simp [Piece.parts]) fun _ => rfl
  | unary node op operand =>
    exact .bind (Expr.numbers operand ps) fun _ => .expr (by simp [Piece.parts]) fun _ => rfl
  | binary node op left right =>
    refine .bind (Expr.numbers left ps) fun _ => .bind (Expr.numbers right _) fun _ => ?_
    exact .expr (by simp [Piece.parts]) fun _ => rfl
  | paren node inner =>
    exact .bind (Expr.numbers inner ps) fun _ => .expr (by simp [Piece.parts]) fun _ => rfl
  | type node type => exact .expr (by simp [Piece.parts]) fun _ => rfl
termination_by structural e

theorem Expr.numbersAll (es : List Expr) (ps : List Piece) :
    Numbers ps (Expr.numberAll es) fun es => ps ++ es.map .expr := by
  cases es with
  | nil => exact .pure (by simp)
  | cons e es => exact .bind (Expr.numbers e ps) fun _ => .bind (Expr.numbersAll es _) fun _ => .pure (by simp)
termination_by structural es

theorem Expr.numbersOption (e : Option Expr) (ps : List Piece) :
    Numbers ps (Expr.numberOption e) fun e => ps ++ e.toList.map .expr := by
  cases e with
  | none => exact .pure (by simp)
  | some e => exact .bind (Expr.numbers e ps) fun _ => .pure (by simp)
termination_by structural e

theorem Element.numbers (e : Element) (ps : List Piece) : Numbers ps e.number fun e => ps ++ e.pieces := by
  obtain ⟨key, value⟩ := e
  refine .bind (Expr.numbersOption key ps) fun _ => .bind (Expr.numbers value _) fun _ => ?_
  exact .pure (by simp [Element.pieces])
termination_by structural e

theorem Element.numbersAll (es : List Element) (ps : List Piece) :
    Numbers ps (Element.numberAll es) fun es => ps ++ es.flatMap Element.pieces := by
  cases es with
  | nil => exact .pure (by simp)
  | cons e es => exact .bind (Element.numbers e ps) fun _ => .bind (Element.numbersAll es _) fun _ => .pure (by simp)
termination_by structural es

theorem Stmt.numbers (s : Stmt) (ps : List Piece) : Numbers ps s.number fun s => ps ++ [.stmt s] := by
  cases s with
  | decl d => exact .bind (Decl.numbers d ps) fun _ => .wrap rfl (by simp [Piece.parts])
  | define lhs rhs =>
    refine .bind (Expr.numbersAll lhs ps) fun _ => .bind (Expr.numbersAll rhs _) fun _ => ?_
    exact .wrap rfl (by simp [Piece.parts])
  | assign lhs rhs =>
    refine .bind (Expr.numbersAll lhs ps) fun _ => .bind (Expr.numbersAll rhs _) fun _ => ?_
    exact .wrap rfl (by simp [Piece.parts])
  | expr e => exact .bind (Expr.numbers e ps) fun _ => .wrap rfl (by simp [Piece.parts])
  | incDec e => exact .bind (Expr.numbers e ps) fun _ => .wrap rfl (by simp [Piece.parts])
  | send chan value =>
    refine .bind (Expr.numbers chan ps) fun _ => .bind (Expr.numbers value _) fun _ => ?_
    exact .wrap rfl (by simp [Piece.parts])
  | go call => exact .bind (Expr.numbers call ps) fun _ => .wrap rfl (by simp [Piece.parts])
  | defer call => exact .bind (Expr.numbers call ps) fun _ => .wrap rfl (by simp [Piece.parts])
  | «return» values => exact .bind (Expr.numbersAll values ps) fun _ => .wrap rfl (by simp [Piece.parts])
  | block body => exact .bind (Stmt.numbersAll body ps) fun _ => .wrap rfl (by simp [Piece.parts])
  | «if» init cond body orElse =>
    refine .bind (Stmt.numbersOption init ps) fun _ => .bind (Expr.numbers cond _) fun _ => ?_
    refine .bind (Stmt.numbersAll body _) fun _ => .bind (Stmt.numbersOption orElse _) fun _ => ?_
    exact .wrap rfl (by simp [Piece.parts])
  | «for» init cond post body =>
    refine .bind (Stmt.numbersOption init ps) fun _ => .bind (Expr.numbersOption cond _) fun _ => ?_
    refine .bind (Stmt.numbersOption post _) fun _ => .bind (Stmt.numbersAll body _) fun _ => ?_
    exact .wrap rfl (by simp [Piece.parts])
  | range vars define subject body =>
    refine .bind (Expr.numbersAll vars ps) fun _ => .bind (Expr.numbers subject _) fun _ => ?_
    exact .bind (Stmt.numbersAll body _) fun _ => .wrap rfl (by simp [Piece.parts])
  | switch init tag clauses =>
    refine .bind (Stmt.numbersOption init ps) fun _ => .bind (Expr.numbersOption tag _) fun _ => ?_
    exact .bind (CaseClause.numbersAll clauses _) fun _ => .wrap rfl (by simp [Piece.parts])
  | typeSwitch init binding subject clauses =>
    refine .bind (Stmt.numbersOption init ps) fun _ => .bind (Expr.numbers subject _) fun _ => ?_
    exact .bind (TypeClause.numbersAll clauses _) fun _ => .wrap rfl (by simp [Piece.parts])
  | select clauses => exact .bind (CommClause.numbersAll clauses ps) fun _ => .wrap rfl (by simp [Piece.parts])
  | labeled inner => exact .bind (Stmt.numbers inner ps) fun _ => .wrap rfl (by simp [Piece.parts])
  | branch => exact .wrap rfl (by simp [Piece.parts])
  | empty => exact .wrap rfl (by simp [Piece.parts])
termination_by structural s

theorem Stmt.numbersAll (ss : List Stmt) (ps : List Piece) :
    Numbers ps (Stmt.numberAll ss) fun ss => ps ++ ss.map .stmt := by
  cases ss with
  | nil => exact .pure (by simp)
  | cons s ss => exact .bind (Stmt.numbers s ps) fun _ => .bind (Stmt.numbersAll ss _) fun _ => .pure (by simp)
termination_by structural ss

theorem Stmt.numbersOption (s : Option Stmt) (ps : List Piece) :
    Numbers ps (Stmt.numberOption s) fun s => ps ++ s.toList.map .stmt := by
  cases s with
  | none => exact .pure (by simp)
  | some s => exact .bind (Stmt.numbers s ps) fun _ => .pure (by simp)
termination_by structural s

theorem CaseClause.numbers (c : CaseClause) (ps : List Piece) : Numbers ps c.number fun c => ps ++ c.pieces := by
  obtain ⟨values, body⟩ := c
  refine .bind (Expr.numbersAll values ps) fun _ => .bind (Stmt.numbersAll body _) fun _ => ?_
  exact .pure (by simp [CaseClause.pieces])
termination_by structural c

theorem CaseClause.numbersAll (cs : List CaseClause) (ps : List Piece) :
    Numbers ps (CaseClause.numberAll cs) fun cs => ps ++ cs.flatMap CaseClause.pieces := by
  cases cs with
  | nil => exact .pure (by simp)
  | cons c cs => exact .bind (CaseClause.numbers c ps) fun _ => .bind (CaseClause.numbersAll cs _) fun _ => .pure (by simp)
termination_by structural cs

theorem TypeClause.numbers (c : TypeClause) (ps : List Piece) : Numbers ps c.number fun c => ps ++ c.pieces := by
  obtain ⟨types, body⟩ := c
  exact .bind (Stmt.numbersAll body ps) fun _ => .pure (by simp [TypeClause.pieces])
termination_by structural c

theorem TypeClause.numbersAll (cs : List TypeClause) (ps : List Piece) :
    Numbers ps (TypeClause.numberAll cs) fun cs => ps ++ cs.flatMap TypeClause.pieces := by
  cases cs with
  | nil => exact .pure (by simp)
  | cons c cs => exact .bind (TypeClause.numbers c ps) fun _ => .bind (TypeClause.numbersAll cs _) fun _ => .pure (by simp)
termination_by structural cs

theorem CommClause.numbers (c : CommClause) (ps : List Piece) : Numbers ps c.number fun c => ps ++ c.pieces := by
  obtain ⟨comm, body⟩ := c
  refine .bind (Stmt.numbersOption comm ps) fun _ => .bind (Stmt.numbersAll body _) fun _ => ?_
  exact .pure (by simp [CommClause.pieces])
termination_by structural c

theorem CommClause.numbersAll (cs : List CommClause) (ps : List Piece) :
    Numbers ps (CommClause.numberAll cs) fun cs => ps ++ cs.flatMap CommClause.pieces := by
  cases cs with
  | nil => exact .pure (by simp)
  | cons c cs => exact .bind (CommClause.numbers c ps) fun _ => .bind (CommClause.numbersAll cs _) fun _ => .pure (by simp)
termination_by structural cs

theorem Decl.numbers (d : Decl) (ps : List Piece) : Numbers ps d.number fun d => ps ++ d.pieces := by
  cases d with
  | type specs => exact .pure (by simp [Decl.pieces])
  | var specs => exact .bind (ValueSpec.numbersAll specs ps .varSpec (fun _ => ⟨rfl, rfl⟩)) fun _ => .pure rfl
  | const specs => exact .bind (ValueSpec.numbersAll specs ps .constSpec (fun _ => ⟨rfl, rfl⟩)) fun _ => .pure rfl
termination_by structural d

theorem ValueSpec.numbers (spec : ValueSpec) (ps : List Piece) (make : ValueSpec → Piece)
    (hmake : ∀ spec, (make spec).expr? = none ∧ (make spec).parts = spec.values.map .expr) :
    Numbers ps spec.number fun spec => ps ++ [make spec] := by
  obtain ⟨pos, names, type, values⟩ := spec
  exact .bind (Expr.numbersAll values ps) fun _ => .wrap (hmake _).1 (by rw [(hmake _).2])
termination_by structural spec

theorem ValueSpec.numbersAll (specs : List ValueSpec) (ps : List Piece) (make : ValueSpec → Piece)
    (hmake : ∀ spec, (make spec).expr? = none ∧ (make spec).parts = spec.values.map .expr) :
    Numbers ps (ValueSpec.numberAll specs) fun specs => ps ++ specs.map make := by
  cases specs with
  | nil => exact .pure (by simp)
  | cons spec specs =>
    refine .bind (ValueSpec.numbers spec ps make hmake) fun _ => ?_
    exact .bind (ValueSpec.numbersAll specs _ make hmake) fun _ => .pure (by simp)
termination_by structural specs

end

/-- The pieces that stand directly in a declaration at top level. -/
def TopDecl.pieces : TopDecl → List Piece
  | .decl d => d.pieces
  | .func f => (f.body.getD []).map .stmt

theorem FuncDecl.numbers (f : FuncDecl) (ps : List Piece) :
    Numbers ps f.number fun f => ps ++ (TopDecl.func f).pieces := by
  unfold FuncDecl.number
  split
  · next hbody => exact .pure (by simp [TopDecl.pieces, hbody])
  · next body hbody => exact .bind (Stmt.numbersAll body ps) fun _ => .pure rfl

theorem TopDecl.numbers (d : TopDecl) (ps : List Piece) : Numbers ps d.number fun d => ps ++ d.pieces := by
  cases d with
  | decl d => exact .bind (Decl.numbers d ps) fun _ => .pure rfl
  | func f => exact .bind (FuncDecl.numbers f ps) fun _ => .pure rfl

theorem TopDecl.numbersAll (ds : List TopDecl) (ps : List Piece) :
    Numbers ps (ds.mapM TopDecl.number) fun ds => ps ++ ds.flatMap TopDecl.pieces := by
  induction ds generalizing ps with
  | nil =>
    rw [List.mapM_nil]
    exact .pure (by simp)
  | cons d ds ih =>
    rw [List.mapM_cons]
    exact .bind (TopDecl.numbers d ps) fun _ => .bind (ih _) fun _ => .pure (by simp)

/-! ## Files -/

namespace SourceFile

/-- The outermost pieces of a file. -/
def roots (file : SourceFile) : List Piece := file.decls.flatMap TopDecl.pieces

/-- All that stands in a file. -/
def pieces (file : SourceFile) : List Piece := file.roots.flatMap Piece.all

/-- The pieces that a walk does not come to. -/
def unreached (file : SourceFile) : List Piece := file.roots.flatMap Piece.unreached

variable {file : SourceFile}

end SourceFile

end UnusedMethods.Syntax
