import UnusedMethods.Proofs.Records

/-!
# The scopes of type parameters

Type parameters are declared in the innermost local scope, which is left when the type or function that they belong to
has been resolved.
-/

namespace UnusedMethods.Typing

open Syntax UnusedMethods.Types
open Checking (Keeps)

variable {n : Notes} {rest : List Scope}

theorem locals_declareParam (name : Ident) (index : Nat) (c : Context) (t : Table) {s : Scope}
    (hlocals : n.locals = s :: rest) : ((declareParam name index).eval c n t).1.2.locals =
      s.insert name.name (.typeName ((declareParam name index).eval c n t).1.1) :: rest := by
  rw [declareParam, Checking.eval_bind, Checking.eval_bind, Checking.eval_defineLocal, Checking.eval_pure]
  show n.locals.modifyHead (·.insert name.name _) = _
  rw [hlocals]
  rfl

theorem locals_mapM_declareParam (pairs : List (Ident × Nat)) (c : Context) (t : Table) {s : Scope}
    (hlocals : n.locals = s :: rest) : ((pairs.mapM fun p => declareParam p.1 p.2).eval c n t).1.1.length = pairs.length ∧
      ∃ s', ((pairs.mapM fun p => declareParam p.1 p.2).eval c n t).1.2.locals = s' :: rest ∧
        ∀ name obj, s'.find? name = some obj → s.find? name = some obj ∨ (∃ x ∈ pairs.map (·.1), x.name = name) ∧
          ∃ p ∈ ((pairs.mapM fun p => declareParam p.1 p.2).eval c n t).1.1, obj = .typeName p := by
  induction pairs generalizing n t s with
  | nil => exact ⟨rfl, s, hlocals, fun _ _ => .inl⟩
  | cons pair pairs ih =>
    obtain ⟨hlength, s', hs', hfind⟩ := ih ((declareParam pair.1 pair.2).eval c n t).2
      (locals_declareParam pair.1 pair.2 c t hlocals)
    rw [List.mapM_cons, Checking.eval_bind, Checking.eval_bind, Checking.eval_pure]
    refine ⟨congrArg (· + 1) hlength, s', hs', fun name obj hobj => ?_⟩
    rcases hfind name obj hobj with hobj | ⟨⟨x, hx, hname⟩, p, hp, hobj⟩
    · rw [Checking.Sound.find?_insert] at hobj
      split at hobj
      · rename_i heq
        exact .inr ⟨⟨pair.1, by simp, heq.symm⟩, _, by simp, (Option.some.inj hobj).symm⟩
      · exact .inl hobj
    · exact .inr ⟨⟨x, by simp_all, hname⟩, p, by simp [hp], hobj⟩

theorem locals_declareTypeParams (decls : List TypeParamDecl) (c : Context) (t : Table) (hlocals : n.locals = .empty :: rest) :
    ((declareTypeParams decls).eval c n t).1.1.length = (decls.flatMap (·.names)).length ∧
      ∃ s, ((declareTypeParams decls).eval c n t).1.2.locals = s :: rest ∧ ∀ name obj, s.find? name = some obj →
        (∃ x ∈ decls.flatMap (·.names), x.name = name) ∧
          ∃ p ∈ ((declareTypeParams decls).eval c n t).1.1, obj = .typeName p := by
  obtain ⟨hlength, s, hs, hfind⟩ := locals_mapM_declareParam (decls.flatMap (·.names)).zipIdx c t hlocals
  unfold declareTypeParams
  rw [Checking.eval_bind, Checking.eval_bind, Checking.eval_pure]
  have hbounds := (Prod.mk.inj ((quiet_resolveBounds decls ((declareParams (decls.flatMap (·.names))).eval c n t).1.1
    (P := fun _ => True) fun _ _ => trivial).scopes c ((declareParams (decls.flatMap (·.names))).eval c n t).1.2
    ((declareParams (decls.flatMap (·.names))).eval c n t).2)).2
  refine ⟨hlength.trans List.length_zipIdx, s, hbounds.trans hs, fun name obj hobj => ?_⟩
  rcases hfind name obj hobj with hempty | hparam
  · cases hempty
  · rwa [List.zipIdx_map_fst] at hparam

theorem keeps_resolveDeclaredTypes (es : List (CurrentFile × Entry)) : Keeps Notes.scopes (resolveDeclaredTypes es) := by
  refine .forEach fun p _ => ?_
  split
  · exact (quiet_resolveDeclaredType (P := fun _ => True) _ _ fun _ _ => trivial).scopes
  · exact .pure _

theorem keeps_resolveAliases (es : List (CurrentFile × Entry)) : Keeps Notes.locals (resolveAliases es) := by
  refine .forEach fun p _ => ?_
  split
  · have htype (e : TypeExpr) : Keeps Notes.scopes (resolveType e) :=
      (quiet_resolveType (P := fun _ => True) e fun _ _ => trivial).scopes
    refine .bind (fun c n t => congrArg Prod.snd (htype _ c n t)) fun id => ?_
    unfold Checking.declare
    split
    · exact fun _ _ _ => rfl
    · exact .pure _
  · exact .pure _

end UnusedMethods.Typing
