import UnusedMethods.Proofs.Frames

/-!
# What declarations do to scopes and records

The types, functions, methods, variables and constants of a package are checked without a change of the local scopes:
type parameters and parameters are entered into a scope that is left when the declaration has been checked. Nothing is
recorded at a place that is not among the `places` of the declaration.
-/

namespace UnusedMethods.Typing

open Syntax UnusedMethods.Types
open Checking (Keeps Records Quiet Enters)

variable {P : Pos → Prop}

theorem enters_declareParams (names : List Ident) : Enters .local P (declareParams names) :=
  .mapM fun _ _ => .after (.lift _) fun _ => .bind (.defineLocal _ _) fun _ => .pure _

theorem quiet_resolveBounds (decls : List TypeParamDecl) (params : List TypeId)
    (h : ∀ x ∈ decls.flatMap (·.funcNames), P x.pos) : Quiet P (resolveBounds decls params) := by
  induction decls generalizing params with
  | nil => exact .pure _
  | cons d decls ih =>
    obtain ⟨hd, hdecls⟩ := List.forall_mem_append.1 h
    refine .bind (quiet_resolveType d.constraint hd) fun bound => .bind (.ask _) fun isBound => ?_
    have hset : ∀ constraint : TypeId, Quiet P (do
        (params.take d.names.length).forM fun param => Checking.change (·.setConstraint param constraint)
        resolveBounds decls (params.drop d.names.length)) :=
      fun constraint => .bind (.forM fun _ _ => .change _) fun _ => ih _ hdecls
    dsimp only
    split
    · exact hset bound
    · exact .bind (.lift _) hset

theorem enters_declareTypeParams (decls : List TypeParamDecl) (h : ∀ x ∈ decls.flatMap (·.funcNames), P x.pos) :
    Enters .local P (declareTypeParams decls) :=
  .bind (enters_declareParams _) fun params => .after (quiet_resolveBounds decls params h) fun _ => .pure _

theorem enters_resolveAlias (spec : TypeSpec) (h : ∀ p ∈ spec.places, P p) : Enters .package P (resolveAlias spec) := by
  obtain ⟨hname, hrest⟩ := List.forall_mem_cons.1 h
  have htype : ∀ x ∈ spec.type.funcNames, P x.pos := (List.forall_mem_append.1 (forall_placesOf.1 hrest)).2
  exact .after (quiet_resolveType _ htype) fun _ => .declare _ hname _

theorem quiet_resolveDeclaredType (spec : TypeSpec) (id : TypeId) (h : ∀ x ∈ spec.funcNames, P x.pos) :
    Quiet P (resolveDeclaredType spec id) := by
  obtain ⟨hparams, htype⟩ := List.forall_mem_append.1 h
  unfold resolveDeclaredType
  dsimp only
  split
  · exact .bind (quiet_resolveType _ htype) fun _ => .change _
  · refine .bind (.inScope ?_) fun _ => .change _
    exact .bind (enters_declareTypeParams _ hparams) fun _ => .after (.change _) fun _ => (quiet_resolveType _ htype).enters

theorem quiet_receiver? (type : TypeExpr) : Quiet P (receiver? type) := quiet_of_holds fun _ => holds_receiver? type

theorem quiet_attachMethod (f : FuncDecl) (recv : Field) (h : ∀ p ∈ f.places, P p) :
    Quiet P (attachMethod f recv) := by
  have hparts := FuncDecl.forall_mem_places h
  refine .bind (quiet_receiver? _) fun o => ?_
  split
  · exact .pure _
  · refine .bind (.inScope (.after (.ask _) fun _ => .bind (enters_bindTypeParams _ _) fun _ =>
      (quiet_resolveSignature _ hparts.sig).enters)) fun sig => ?_
    refine .bind (.reads .readContext) fun context => .bind (.lift _) fun id => ?_
    have hnote : ∀ r : Receiver, Quiet P (do
        Checking.noteDef f.name.pos (.func id)
        return [({ decl := f, recv, id, owner := r.owner } : AttachedMethod)]) :=
      fun r => .bind (.noteDef hparts.name _) fun _ => .pure _
    dsimp only
    split
    · exact .bind (.change _) fun _ => hnote _
    · exact hnote _

theorem quiet_resolveFunc (f : FuncDecl) (id : FuncId) (h : ∀ p ∈ f.places, P p) : Quiet P (resolveFunc f id) := by
  have hparts := FuncDecl.forall_mem_places h
  refine .bind (.inScope ?_) fun _ => .change _
  exact .bind (enters_declareTypeParams _ hparts.typeParams) fun _ =>
    .after (quiet_resolveSignature _ hparts.sig) fun _ => .pure _

theorem enters_declareTyped (spec : ValueSpec) (h : ∀ p ∈ spec.places, P p) : Enters .package P (declareTyped spec) := by
  obtain ⟨pos, idents, type, values⟩ := spec
  obtain ⟨hidents, hrest⟩ := List.forall_mem_append.1 h
  obtain ⟨htype, -⟩ := List.forall_mem_append.1 hrest
  cases type with
  | none => exact .pure _
  | some type =>
    refine .after (quiet_resolveType type (forall_placesOf.1 htype)) fun _ => .forM fun name hname => ?_
    exact .declare _ (forall_placesOf.1 hidents name hname) _

theorem quiet_checkTypedValues (spec : ValueSpec) (h : ∀ p ∈ spec.places, P p) : Quiet P (checkTypedValues spec) := by
  obtain ⟨pos, idents, type, values⟩ := spec
  obtain ⟨-, hrest⟩ := List.forall_mem_append.1 h
  obtain ⟨htype, hvalues⟩ := List.forall_mem_append.1 hrest
  cases type with
  | none => exact .pure _
  | some type =>
    refine .bind (quiet_resolveType type (forall_placesOf.1 htype)) fun _ => ?_
    exact .discard (quiet_checkExprs _ values hvalues)

theorem quiet_checkFunc (f : FuncDecl) (id : FuncId) (h : ∀ p ∈ f.places, P p) : Quiet P (checkFunc f id) :=
  quiet_of_holds fun _ => holds_checkFunc f rfl (fun _ _ => trivial) h

theorem quiet_checkMethod (m : AttachedMethod) (hrecv : m.decl.recv = some m.recv) (h : ∀ p ∈ m.decl.places, P p) :
    Quiet P (checkMethod m) := by
  have hnames := (FuncDecl.forall_mem_places h).recv
  rw [hrecv] at hnames
  exact quiet_of_holds fun _ => holds_checkMethod rfl rfl (fun _ _ => trivial) h hnames

end UnusedMethods.Typing
