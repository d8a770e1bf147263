import UnusedMethods.Proofs.Soundness
import UnusedMethods.Proofs.Heads
import UnusedMethods.Syntax.Numbering

/-!
# Packages are checked soundly

The phases of the check of a package one after the other, then the whole check, and then all packages of a program:
at every stage the table is well formed, and what is known about the packages refers to it.
-/

namespace UnusedMethods.Typing

open Syntax UnusedMethods.Types Checking

variable {plan : Plan} {c : Context} {t₀ : Table}

variable {t' : Table} {entries : List (CurrentFile × Entry)} {files : List (CurrentFile × SourceFile)}

/-! ## Files -/

namespace Checking.Sound

variable {α β : Type}

theorem inFile {file : CurrentFile} {x : Checking α} {Q : α → Table → Prop} (hfile : file.scope.WF t₀)
    (hx : Sound plan { c with file } t₀ x Q) : Sound plan c t₀ (Checking.inFile file x) Q :=
  fun n t ht hwf hc hn => hx n t ht hwf ⟨hfile.of_grows ht, hc.packages⟩ hn

theorem forEach {items : List (CurrentFile × α)} {f : α → Checking Unit}
    (hfile : ∀ p ∈ items, p.1.scope.WF t₀)
    (hf : ∀ p ∈ items, ∀ t, t₀.Grows t → Sound plan { c with file := p.1 } t (f p.2) fun _ _ => True) :
    Sound plan c t₀ (Checking.forEach items f) fun _ _ => True :=
  .forM fun p hp t ht => inFile ((hfile p hp).of_grows ht) (hf p hp t ht)

end Checking.Sound

/-! ## Collecting declarations -/

/-- The names of functions and methods in a declaration. -/
def Declaration.funcNames : Declaration → List Ident
  | .alias spec | .type spec => spec.funcNames
  | .func f | .method f _ => f.funcNames
  | .var spec => spec.funcNames
  | .consts specs => ValueSpec.funcNamesAll specs

/-- The names among some identifiers that can be referred to. -/
def namesOf (idents : List Ident) : List String := (idents.filter fun x => !x.isBlank).map (·.name)

theorem name_mem_namesOf {idents : List Ident} {x : Ident} (hx : x ∈ idents) (hblank : x.isBlank = false) :
    x.name ∈ namesOf idents :=
  List.mem_map.2 ⟨x, List.mem_filter.2 ⟨hx, by simp [hblank]⟩, rfl⟩

/-- The package-level names that a declaration declares. -/
def Declaration.names : Declaration → List String
  | .alias spec | .type spec => namesOf [spec.name]
  | .func f => if f.name.name = "init" then [] else namesOf [f.name]
  | .method _ _ => []
  | .var spec => namesOf spec.names
  | .consts specs => namesOf (specs.flatMap (·.names))

/-- The declaration for which something has been entered. -/
def Entry.declaration : Entry → Declaration
  | .alias spec => .alias spec
  | .type spec _ => .type spec
  | .func f _ => .func f
  | .method f recv => .method f recv
  | .var spec => .var spec
  | .consts specs => .consts specs

/-- What has been entered for a declaration is in the table, and a function is no method. -/
def Entry.InTable (t : Table) : Entry → Prop
  | .type _ id => t.HasType id
  | .func _ id => t.HasFunc id ∧ (t.func id).kind = .func
  | _ => True

/-- What the names of a declaration may denote. The type of a variable or constant, and the type that an alias stands
for, are found in the course of the check. -/
def Entry.Denotes : Entry → Object → Prop
  | .alias _, obj => ∃ id, obj = .typeName id
  | .type _ id, obj => obj = .typeName id
  | .func _ id, obj => obj = .func id
  | .method _ _, _ => False
  | .var _, obj => ∃ id, obj = .var id
  | .consts _, obj => ∃ id, obj = .const id

/-- What has been entered is in the table, the names in it declare functions of the file, and what it declares
follows the plan. -/
structure Entry.WF (plan : Plan) (index : Nat) (t : Table) (e : Entry) : Prop where
  inTable : e.InTable t
  funcNames : ∀ x ∈ e.declaration.funcNames, plan.declares index x
  denotes : ∀ name ∈ e.declaration.names, ∀ obj, e.Denotes obj → plan.denotes name obj

theorem Entry.WF.of_grows {index : Nat} {t : Table} {e : Entry} (h : e.WF plan index t) (hgrows : t.Grows t') :
    e.WF plan index t' := by
  refine ⟨?_, h.funcNames, h.denotes⟩
  cases e with
  | type spec id => exact hgrows.hasType h.inTable
  | func f id =>
    obtain ⟨hid, hkind⟩ := h.inTable
    exact ⟨hgrows.hasFunc hid, (hgrows.func hid).kind.trans hkind⟩
  | _ => trivial

theorem sound_enterFunc (hopen : ∀ name obj, plan.denotes name obj) (f : FuncDecl)
    (h : ∀ x ∈ f.funcNames, plan.declares c.file.index x) :
    Sound plan c t₀ (enterFunc f) fun id t => t.HasFunc id ∧ (t.func id).kind = .func := by
  refine .bind .readContext fun context t₁ h₁ hwf₁ _ => ?_
  refine .bind (.lift (Build.sound_newFunc ⟨?_, nofun⟩)) fun id t₂ h₂ _ hid => ?_
  · simpa [Func.parts, Func.ofName] using hwf₁.hasType_invalid
  have hrest : ∀ t₃, t₂.Grows t₃ → Sound plan c t₃ (do
      Checking.noteDef f.name.pos (.func id)
      return id) fun id t => t.HasFunc id ∧ (t.func id).kind = .func := by
    intro t₃ h₃
    refine .bind (.noteDef (h₃.hasFunc hid.1) fun g hg => ⟨f.name, h _ (by simp [FuncDecl.funcNames]), rfl, ?_⟩)
      fun _ t₄ h₄ _ _ => .pure fun t ht _ => ⟨((h₃.trans h₄).trans ht).hasFunc hid.1, ?_⟩
    · cases hg
      rw [(h₃.func hid.1).name, hid.2]
      rfl
    · rw [(((h₃.trans h₄).trans ht).func hid.1).kind, hid.2]
      rfl
  dsimp only
  split
  · exact .bind (.definePackageLevel hid.1 (hopen _ _)) fun _ t₃ h₃ _ _ => hrest t₃ h₃
  · exact hrest t₂ (.refl t₂)

theorem sound_enterNames (hopen : ∀ name obj, plan.denotes name obj) (obj : Object) (hobj : obj.WF t₀)
    (spec : ValueSpec) : Sound plan c t₀ (enterNames obj spec) fun _ _ => True := by
  refine .forM fun name _ t ht => ?_
  split
  · exact .definePackageLevel (hobj.of_grows ht) (hopen _ _)
  · exact .pure fun _ _ _ => trivial

theorem sound_enter (hopen : ∀ name obj, plan.denotes name obj) (d : Declaration)
    (h : ∀ x ∈ d.funcNames, plan.declares c.file.index x) :
    Sound plan c t₀ (enter d) fun e t => e.WF plan c.file.index t := by
  have hdenotes : ∀ e : Entry, ∀ name ∈ e.declaration.names, ∀ obj, e.Denotes obj → plan.denotes name obj :=
    fun _ name _ obj _ => hopen name obj
  cases d with
  | «alias» spec => exact .pure fun _ _ _ => ⟨trivial, h, hdenotes _⟩
  | type spec =>
    refine .bind .readContext fun context t₁ _ _ _ => ?_
    refine .bind (.lift (Build.sound_newNamed _ _)) fun id t₂ h₂ _ hid => ?_
    refine .bind (.declare hid.1 nofun fun _ _ => hopen _ _) fun _ t₃ h₃ _ _ => .pure fun t ht _ => ?_
    exact ⟨(h₃.trans ht).hasType hid.1, h, hdenotes _⟩
  | func f =>
    refine .bind (sound_enterFunc hopen f h) fun id t₁ _ _ hid => .pure fun t ht _ => ?_
    exact ⟨⟨ht.hasFunc hid.1, (ht.func hid.1).kind.trans hid.2⟩, h, hdenotes _⟩
  | method f recv => exact .pure fun _ _ _ => ⟨trivial, h, hdenotes _⟩
  | var spec =>
    refine .bind (.ofWF fun t _ hwf => sound_enterNames hopen (.var .invalid) hwf.hasType_invalid spec) fun _ t₁ _ _ _ => ?_
    exact .pure fun _ _ _ => ⟨trivial, h, hdenotes _⟩
  | consts specs =>
    refine .bind (.forM fun spec _ t _ => .ofWF fun t' _ hwf =>
      sound_enterNames hopen (.const .invalid) hwf.hasType_invalid spec) fun _ t₁ _ _ _ => ?_
    exact .pure fun _ _ _ => ⟨trivial, h, hdenotes _⟩

/-- The declarations of files: what the files import is in the table, and the names in the declarations declare
functions. -/
def DeclarationsWF (plan : Plan) (t : Table) (declarations : List (CurrentFile × Declaration)) : Prop :=
  ∀ p ∈ declarations, p.1.scope.WF t ∧ ∀ x ∈ p.2.funcNames, plan.declares p.1.index x

/-- What has been entered for the declarations of files. -/
def EntriesWF (plan : Plan) (t : Table) (entries : List (CurrentFile × Entry)) : Prop :=
  ∀ p ∈ entries, p.1.scope.WF t ∧ p.2.WF plan p.1.index t

theorem EntriesWF.of_grows {t : Table} (h : EntriesWF plan t entries) (hgrows : t.Grows t') : EntriesWF plan t' entries :=
  fun p hp => ⟨(h p hp).1.of_grows hgrows, (h p hp).2.of_grows hgrows⟩

theorem EntriesWF.settling {t : Table} (h : EntriesWF plan t entries) (settled : TypeId → Prop) (steady : Prop) :
    EntriesWF (plan.settling settled steady) t entries :=
  fun p hp => ⟨(h p hp).1, (h p hp).2.inTable, (h p hp).2.funcNames, (h p hp).2.denotes⟩

theorem sound_enterAll (hopen : ∀ name obj, plan.denotes name obj) {declarations : List (CurrentFile × Declaration)}
    (h : DeclarationsWF plan t₀ declarations) :
    Sound plan c t₀ (enterAll declarations) fun entries t => EntriesWF plan t entries := by
  refine .mapM (fun _ _ _ hgrows h => ⟨h.1.of_grows hgrows, h.2.of_grows hgrows⟩) fun p hp t ht => ?_
  obtain ⟨hscope, hnames⟩ := h p hp
  refine .bind (.inFile (hscope.of_grows ht) (sound_enter hopen p.2 hnames)) fun e t₁ h₁ _ he => .pure fun t₂ h₂ _ => ?_
  exact ⟨hscope.of_grows ((ht.trans h₁).trans h₂), he.of_grows h₂⟩

theorem mem_funcNames_of_mem_declarationsOf {group : TopDecl} {d : Declaration} (hd : d ∈ declarationsOf group)
    {x : Ident} (hx : x ∈ d.funcNames) : x ∈ group.funcNames := by
  unfold declarationsOf at hd
  split at hd
  · rename_i specs
    obtain ⟨spec, hspec, hd⟩ := List.mem_filterMap.1 hd
    refine List.mem_flatMap.2 ⟨spec, hspec, ?_⟩
    unfold typeDeclaration? at hd
    split at hd
    · cases hd
    · split at hd <;> cases hd <;> exact hx
  · obtain ⟨spec, hspec, rfl⟩ := List.mem_map.1 hd
    exact ValueSpec.mem_funcNamesAll hspec hx
  · obtain rfl := List.mem_singleton.1 hd
    exact hx
  · split at hd <;> obtain rfl := List.mem_singleton.1 hd <;> exact hx

/-- The files of a package: what they import is in the table, and the names in them declare functions. -/
def FilesWF (plan : Plan) (t : Table) (files : List (CurrentFile × SourceFile)) : Prop :=
  ∀ p ∈ files, p.1.scope.WF t ∧ ∀ x ∈ p.2.funcNames, plan.declares p.1.index x

theorem FilesWF.declarationsIn {t : Table} (h : FilesWF plan t files) : DeclarationsWF plan t (declarationsIn files) := by
  intro p hp
  obtain ⟨q, hq, hp⟩ := List.mem_flatMap.1 hp
  obtain ⟨d, hd, rfl⟩ := List.mem_map.1 hp
  obtain ⟨group, hgroup, hd⟩ := List.mem_flatMap.1 hd
  obtain ⟨hscope, hnames⟩ := h q hq
  refine ⟨hscope, fun x hx => hnames x ?_⟩
  exact List.mem_flatMap.2 ⟨group, hgroup, mem_funcNames_of_mem_declarationsOf hd hx⟩

/-! ## Types and signatures -/

theorem sound_declareParams (names : List Ident) :
    Sound plan c t₀ (declareParams names) fun params t =>
      ∀ p ∈ params, t.HasType p ∧ ¬ t₀.HasType p ∧ (t.get p).isTypeParam = true := by
  refine .mapM (fun p t t' hgrows hp => ?_) fun p _ t ht => ?_
  · exact ⟨hgrows.hasType hp.1, hp.2.1, (hgrows.isTypeParam_get hp.1).trans hp.2.2⟩
  refine .bind (.lift (Build.sound_typeParam p.1.name p.2)) fun id t₁ _ _ hid => ?_
  refine .bind (.defineLocal hid.1) fun _ t₂ h₂ _ _ => .pure fun t₃ h₃ _ => ?_
  have hgrows := h₂.trans h₃
  exact ⟨hgrows.hasType hid.1, fun hold => hid.2.1 (ht.hasType hold), (hgrows.isTypeParam_get hid.1).trans hid.2.2⟩

theorem sound_resolveBounds (decls : List TypeParamDecl) (params : List TypeId)
    (h : ∀ x ∈ decls.flatMap (·.funcNames), plan.declares c.file.index x) :
    Sound plan c t₀ (resolveBounds decls params) fun _ _ => True := by
  induction decls generalizing params t₀ with
  | nil => exact .pure fun _ _ _ => trivial
  | cons d decls ih =>
    obtain ⟨hd, hdecls⟩ := List.forall_mem_append.1 h
    refine .bind (sound_resolveType d.constraint hd) fun bound t₁ _ _ hbound => ?_
    refine .bind .ask fun isBound t₂ h₂ _ _ => ?_
    have hset : ∀ (constraint : TypeId) (t₃ : Table), t₃.HasType constraint → Sound plan c t₃ (do
        (params.take d.names.length).forM fun param => Checking.change (·.setConstraint param constraint)
        resolveBounds decls (params.drop d.names.length)) fun _ _ => True := by
      intro constraint t₃ hconstraint
      refine .andThen (.forM fun param _ t₄ h₄ => .change fun t ht hwf => ?_) (ih _ hdecls)
      exact hwf.setConstraint ((h₄.trans ht).hasType hconstraint)
    dsimp only
    split
    · exact hset bound t₂ (h₂.hasType hbound)
    · refine .bind (.lift (Build.sound_interface (by simp) ?_)) fun constraint t₃ _ _ hconstraint => hset constraint t₃ hconstraint
      simpa using h₂.hasType hbound

theorem sound_declareTypeParams (decls : List TypeParamDecl)
    (h : ∀ x ∈ decls.flatMap (·.funcNames), plan.declares c.file.index x) :
    Sound plan c t₀ (declareTypeParams decls) fun params t =>
      ∀ p ∈ params, t.HasType p ∧ ¬ t₀.HasType p ∧ (t.get p).isTypeParam = true := by
  refine .bind (sound_declareParams _) fun params t₁ _ _ hparams => ?_
  refine .bind (sound_resolveBounds decls params h) fun _ t₂ h₂ _ _ => .pure fun t ht _ p hp => ?_
  obtain ⟨hhas, hnew, hparam⟩ := hparams p hp
  exact ⟨(h₂.trans ht).hasType hhas, hnew, ((h₂.trans ht).isTypeParam_get hhas).trans hparam⟩

theorem sound_resolveAlias (spec : TypeSpec) (h : ∀ x ∈ spec.funcNames, plan.declares c.file.index x)
    (hplan : ∀ id, plan.Allows .package spec.name (.typeName id)) :
    Sound plan c t₀ (resolveAlias spec) fun _ _ => True :=
  .bind (sound_resolveType spec.type (List.forall_mem_append.1 h).2) fun _ _ _ _ hid => .declare hid nofun (hplan _)

theorem sound_resolveDeclaredType (spec : TypeSpec) {id : TypeId} (hid : ¬ plan.settled id)
    (h : ∀ x ∈ spec.funcNames, plan.declares c.file.index x) :
    Sound plan c t₀ (resolveDeclaredType spec id) fun _ _ => True := by
  obtain ⟨hparams, htype⟩ := List.forall_mem_append.1 h
  have hset : ∀ (rhs : TypeId) (t₁ : Table), t₁.HasType rhs →
      Sound plan c t₁ (Checking.change (·.setRhs id rhs)) fun _ _ => True :=
    fun rhs t₁ hrhs => .changeNamed hid (fun t ht hwf => hwf.setRhs (ht.hasType hrhs)) fun _ => ⟨rfl, rfl⟩
  unfold resolveDeclaredType
  dsimp only
  split
  · exact .bind (sound_resolveType spec.type htype) fun rhs t₁ _ _ hrhs => hset rhs t₁ hrhs
  · refine .bind (.inScope ?_) fun rhs t₁ _ _ hrhs => hset rhs t₁ hrhs
    refine .bind (sound_declareTypeParams spec.typeParams hparams) fun params t₁ _ _ hps => ?_
    refine .bind (.changeNamed hid (fun t ht hwf => hwf.setTypeParams fun p hp => ht.hasType (hps p hp).1) fun _ =>
      ⟨rfl, rfl⟩) fun _ t₂ _ _ _ => ?_
    exact sound_resolveType spec.type htype

theorem hasType_typeParamsOf {t : Table} (hwf : t.WF) (named : TypeId) : ∀ p ∈ typeParamsOf t named, t.HasType p := by
  intro p hp
  unfold typeParamsOf at hp
  cases hnamed : t.named? named with
  | none =>
    rw [hnamed] at hp
    cases hp
  | some d =>
    rw [hnamed] at hp
    refine hwf.hasType_filledIn named ?_
    rw [Expansion.named?_eq_some hnamed]
    exact List.mem_cons_of_mem _ hp

/-- A method that has been attached is in the table, and the names in it declare functions of the file. -/
structure AttachedMethod.WF (names : Ident → Prop) (t : Table) (m : AttachedMethod) : Prop where
  id : t.HasFunc m.id
  owner : t.HasType m.owner
  funcNames : ∀ x ∈ m.decl.funcNames, names x

theorem AttachedMethod.WF.of_grows {names : Ident → Prop} {t : Table} {m : AttachedMethod} (h : m.WF names t)
    (hgrows : t.Grows t') : m.WF names t' := ⟨hgrows.hasFunc h.id, hgrows.hasType h.owner, h.funcNames⟩

/-- What has been attached in files. -/
def MethodsWF (plan : Plan) (t : Table) (methods : List (CurrentFile × AttachedMethod)) : Prop :=
  ∀ p ∈ methods, p.1.scope.WF t ∧ p.2.WF (plan.declares p.1.index) t

theorem MethodsWF.of_grows {t : Table} {methods : List (CurrentFile × AttachedMethod)} (h : MethodsWF plan t methods)
    (hgrows : t.Grows t') : MethodsWF plan t' methods :=
  fun p hp => ⟨(h p hp).1.of_grows hgrows, (h p hp).2.of_grows hgrows⟩

theorem sound_attachMethod (f : FuncDecl) (recv : Field) (h : ∀ x ∈ f.funcNames, plan.declares c.file.index x) :
    Sound plan c t₀ (attachMethod f recv) fun ms t => ∀ m ∈ ms, m.WF (plan.declares c.file.index) t := by
  have hsig : ∀ x ∈ f.sig.funcNames, plan.declares c.file.index x := fun x hx => h x (by simp [FuncDecl.funcNames, hx])
  unfold attachMethod
  refine .bind (sound_receiver? recv.type) fun o t₁ _ _ ho => ?_
  cases o with
  | none => exact .pure fun _ _ _ => nofun
  | some r =>
    have howner := ho r rfl
    refine .bind (Q := fun id t => t.HasType id) (.inScope ?_) fun sig t₂ h₂ _ hsig => ?_
    · refine .bind .ask ?_
      rintro _ t₂ _ hwf₂ rfl
      exact .bind (sound_bindTypeParams r.typeParams (hasType_typeParamsOf hwf₂ r.owner)) fun _ t₃ _ _ _ =>
        sound_resolveSignature f.sig hsig
    refine .bind .readContext fun context t₃ h₃ _ _ => ?_
    refine .bind (.lift (Build.sound_newFunc ⟨?_, nofun⟩)) fun id t₄ h₄ _ hid => ?_
    · simpa [Func.parts, Func.ofName] using ⟨h₃.hasType hsig, (h₂.trans h₃).hasType howner⟩
    have hrest : ∀ t₅, t₄.Grows t₅ → Sound plan c t₅ (do
        Checking.noteDef f.name.pos (.func id)
        return [({ decl := f, recv, id, owner := r.owner } : AttachedMethod)])
        fun ms t => ∀ m ∈ ms, m.WF (plan.declares c.file.index) t := by
      intro t₅ h₅
      refine .bind (.noteDef (h₅.hasFunc hid.1) fun g hg => ⟨f.name, h _ (by simp [FuncDecl.funcNames]), rfl, ?_⟩)
        fun _ t₆ h₆ _ _ => .pure fun t ht _ => ?_
      · cases hg
        rw [(h₅.func hid.1).name, hid.2]
        rfl
      · have hgrows := ((((h₂.trans h₃).trans h₄).trans h₅).trans h₆).trans ht
        simpa using ⟨((h₅.trans h₆).trans ht).hasFunc hid.1, hgrows.hasType howner, h⟩
    dsimp only
    split
    · refine .bind (.change fun t ht hwf => hwf.addMethod (ht.hasFunc hid.1)) fun _ t₅ h₅ _ _ => hrest t₅ h₅
    · exact hrest t₄ (.refl t₄)

theorem sound_attachMethods (h : EntriesWF plan t₀ entries) :
    Sound plan c t₀ (attachMethods entries) fun methods t => MethodsWF plan t methods := by
  have hlasting : Lasting fun methods t => MethodsWF plan t methods := fun _ _ _ hgrows h => h.of_grows hgrows
  refine .bind (.mapM hlasting fun p hp t ht => ?_) fun attached t₁ _ _ hattached => .pure fun t ht _ q hq => ?_
  · obtain ⟨hscope, hentry⟩ := h p hp
    obtain ⟨file, entry⟩ := p
    dsimp only
    split
    · rename_i f recv
      refine .inFile (hscope.of_grows ht) ?_
      refine .bind (sound_attachMethod f recv hentry.funcNames) fun ms t₁ h₁ _ hms => .pure fun t₂ h₂ _ q hq => ?_
      obtain ⟨m, hm, rfl⟩ := List.mem_map.1 hq
      exact ⟨hscope.of_grows ((ht.trans h₁).trans h₂), (hms m hm).of_grows h₂⟩
    · exact .pure fun _ _ _ => List.forall_mem_nil _
  · obtain ⟨methods, hmethods, hq⟩ := List.mem_flatten.1 hq
    exact (hattached methods hmethods).of_grows ht q hq

theorem sound_resolveFunc (f : FuncDecl) {id : FuncId} (hid : t₀.HasFunc id) (hkind : (t₀.func id).kind = .func)
    (h : ∀ x ∈ f.funcNames, plan.declares c.file.index x) :
    Sound plan c t₀ (resolveFunc f id) fun _ _ => True := by
  have hparams : ∀ x ∈ f.typeParams.flatMap (·.funcNames), plan.declares c.file.index x :=
    fun x hx => h x (List.mem_cons_of_mem _ (List.mem_append_right _ (List.mem_append_left _ hx)))
  have hsig : ∀ x ∈ f.sig.funcNames, plan.declares c.file.index x := fun x hx => h x (by simp [FuncDecl.funcNames, hx])
  unfold resolveFunc
  refine .bind (Q := fun p t => (∀ q ∈ p.1, t.HasType q) ∧ t.HasType p.2) (.inScope ?_) fun p t₁ h₁ _ hp => ?_
  · refine .bind (sound_declareTypeParams f.typeParams hparams) fun params t₁ _ _ hps => ?_
    refine .bind (sound_resolveSignature f.sig hsig) fun sig t₂ h₂ _ hs => .pure fun t ht _ => ?_
    exact ⟨fun q hq => (h₂.trans ht).hasType (hps q hq).1, ht.hasType hs⟩
  · refine .change fun t ht hwf => hwf.modifyFunc fun g hg => ⟨⟨rfl, rfl, rfl, rfl, rfl, fun hmethod => ?_⟩, ht.hasType hp.2, ?_⟩
    · -- a function of a package is no method of an interface
      have hgrows := h₁.trans ht
      have hg' : t.func id = g := by
        rw [Table.func, hg, Option.getD_some]
      rw [← hg', (hgrows.func hid).kind, hkind] at hmethod
      cases hmethod
    · exact fun q hq => ht.hasType (hp.1 q hq)

/-- Interfaces on an embedding cycle lose their embeddings; nothing else changes. -/
theorem sound_orderInterfaces (declared : List TypeId) :
    Build.Sound t₀ (orderInterfaces declared) fun _ _ => True := by
  have hclear : ∀ (ids : List TypeId) (t : Table), t.WF → t.Leads (ids.foldl Table.clearEmbedded t) := by
    intro ids
    induction ids with
    | nil => exact fun t hwf => .refl hwf
    | cons id ids ih => exact fun t hwf => hwf.clearEmbedded.trans (ih _ hwf.clearEmbedded.wf)
  refine .bind .getTable fun t t₁ _ _ _ => ?_
  exact .bind (.change fun t _ hwf => hclear _ t hwf) fun _ _ _ _ _ => .pure fun _ _ _ => trivial

/-! ## Values and bodies -/

theorem sound_declareTyped (spec : ValueSpec) (h : ∀ x ∈ spec.funcNames, plan.declares c.file.index x)
    (hplan : ∀ x ∈ spec.names, ∀ id, plan.Allows .package x (.var id)) :
    Sound plan c t₀ (declareTyped spec) fun _ _ => True := by
  obtain ⟨pos, idents, type, values⟩ := spec
  obtain ⟨htype, -⟩ := List.forall_mem_append.1 h
  cases type with
  | none => exact .pure fun _ _ _ => trivial
  | some type =>
    refine .bind (sound_resolveType type htype) fun id t₁ _ _ hid => .forM fun name hname t ht => ?_
    exact .declare (ht.hasType hid) nofun (hplan name hname id)

theorem sound_checkTypedValues (spec : ValueSpec) (h : ∀ x ∈ spec.funcNames, plan.declares c.file.index x) :
    Sound plan c t₀ (checkTypedValues spec) fun _ _ => True := by
  obtain ⟨pos, idents, type, values⟩ := spec
  obtain ⟨htype, hvalues⟩ := List.forall_mem_append.1 h
  cases type with
  | none => exact .pure fun _ _ _ => trivial
  | some type =>
    refine .bind (sound_resolveType type htype) fun id t₁ _ _ hid => ?_
    exact .bind (sound_checkExprs values hvalues (by simpa using hid)) fun _ _ _ _ _ => .pure fun _ _ _ => trivial

theorem sound_checkFunc (f : FuncDecl) {id : FuncId} (hid : t₀.HasFunc id)
    (h : ∀ x ∈ f.funcNames, plan.declares c.file.index x) : Sound plan c t₀ (checkFunc f id) fun _ _ => True := by
  refine sound_of_done (m := none) (holds_checkFunc f ⟨hid, rfl⟩ (fun x hx => h x ?_) fun _ _ => trivial)
  simp [FuncDecl.funcNames, hx]

theorem sound_checkMethod (m : AttachedMethod) (h : m.WF (plan.declares c.file.index) t₀) :
    Sound plan c t₀ (checkMethod m) fun _ _ => True := by
  refine sound_of_done (m := none) (holds_checkMethod ⟨h.id, rfl⟩ ⟨h.owner, rfl⟩ (fun x hx => h.funcNames x ?_)
    (fun _ _ => trivial) fun _ _ => trivial)
  simp [FuncDecl.funcNames, hx]

/-! ## The whole package -/

/-- A phase goes through the declarations and deals with those of one kind. -/
theorem sound_phase (h : EntriesWF plan t₀ entries) {f : Entry → Checking Unit}
    (hf : ∀ (file : CurrentFile) (e : Entry) (t : Table), e.WF plan file.index t →
      Sound plan { c with file } t (f e) fun _ _ => True) : Sound plan c t₀ (Checking.forEach entries f) fun _ _ => True :=
  .forEach (fun p hp => (h p hp).1) fun p hp t ht => hf p.1 p.2 t ((h p hp).2.of_grows ht)

theorem sound_resolveAliases (h : EntriesWF plan t₀ entries) : Sound plan c t₀ (resolveAliases entries) fun _ _ => True := by
  refine sound_phase h fun file e t he => ?_
  cases e with
  | «alias» spec =>
    exact sound_resolveAlias spec he.funcNames fun id _ hblank =>
      he.denotes _ (name_mem_namesOf (by simp) hblank) _ ⟨id, rfl⟩
  | _ => exact .pure fun _ _ _ => trivial

theorem sound_resolveDeclaredTypes (h : EntriesWF plan t₀ entries)
    (hsettled : ∀ id ∈ declaredTypes entries, ¬ plan.settled id) :
    Sound plan c t₀ (resolveDeclaredTypes entries) fun _ _ => True := by
  refine .forEach (fun p hp => (h p hp).1) fun p hp t ht => ?_
  obtain ⟨file, e⟩ := p
  have he := (h _ hp).2
  cases e with
  | type spec id =>
    exact sound_resolveDeclaredType spec (hsettled id (List.mem_filterMap.2 ⟨_, hp, rfl⟩)) he.funcNames
  | _ => exact .pure fun _ _ _ => trivial

/-- What a body belongs to is in the table, and the names in it declare functions of the file. -/
def Body.WF (names : Ident → Prop) (t : Table) : Body → Prop
  | .func f id => t.HasFunc id ∧ ∀ x ∈ f.funcNames, names x
  | .method m => m.WF names t

theorem Body.WF.of_grows {names : Ident → Prop} {t : Table} {b : Body} (h : b.WF names t) (hgrows : t.Grows t') :
    b.WF names t' := by
  cases b with
  | func f id => exact ⟨hgrows.hasFunc h.1, h.2⟩
  | method m => exact AttachedMethod.WF.of_grows h hgrows

/-- Bodies that wait in files. -/
def BodiesWF (plan : Plan) (t : Table) (bodies : List (CurrentFile × Body)) : Prop :=
  ∀ p ∈ bodies, p.1.scope.WF t ∧ p.2.WF (plan.declares p.1.index) t

theorem BodiesWF.of_grows {t : Table} {bodies : List (CurrentFile × Body)} (h : BodiesWF plan t bodies) (hgrows : t.Grows t') :
    BodiesWF plan t' bodies :=
  fun p hp => ⟨(h p hp).1.of_grows hgrows, (h p hp).2.of_grows hgrows⟩

theorem bodiesOf_wf {t : Table} {methods : List (CurrentFile × AttachedMethod)} (hentries : EntriesWF plan t entries)
    (hmethods : MethodsWF plan t methods) : BodiesWF plan t (bodiesOf entries methods) := by
  refine List.forall_mem_append.2 ⟨fun p hp => ?_, fun p hp => ?_⟩
  · obtain ⟨⟨file, e⟩, he, hsome⟩ := List.mem_filterMap.1 hp
    obtain ⟨b, hb, rfl⟩ := Option.map_eq_some_iff.1 hsome
    cases e with
    | func f id =>
      cases hb
      exact ⟨(hentries _ he).1, (hentries _ he).2.inTable.1, (hentries _ he).2.funcNames⟩
    | _ => cases hb
  · obtain ⟨q, hq, rfl⟩ := List.mem_map.1 hp
    exact hmethods q hq

theorem Body.sound_check {b : Body} (h : b.WF (plan.declares c.file.index) t₀) :
    Sound plan c t₀ b.check fun _ _ => True := by
  cases b with
  | func f id => exact sound_checkFunc f h.1 h.2
  | method m => exact sound_checkMethod m h

theorem sound_resolveMembers (h : EntriesWF plan t₀ entries) :
    Sound plan c t₀ (resolveMembers entries) fun r t => MethodsWF plan t r.1 := by
  unfold resolveMembers
  refine .bind (sound_attachMethods h) fun methods t₁ h₁ _ hmethods => ?_
  refine .andThen (sound_phase (h.of_grows h₁) fun file e t he => ?_) ?_
  · cases e with
    | func f id => exact sound_resolveFunc f he.inTable.1 he.inTable.2 he.funcNames
    | _ => exact .pure fun _ _ _ => trivial
  refine .bind (.lift (sound_orderInterfaces _)) fun order t₂ h₂ _ _ => ?_
  exact .pure fun t ht _ => hmethods.of_grows (h₂.trans ht)

theorem sound_endDeclarations (hsteady : ¬ plan.steady) (order : List TypeId) :
    Sound plan c t₀ (liftM (Build.endDeclarations order) : Checking Unit) fun _ _ => True :=
  .liftFollows hsteady fun _ => Build.follows_endDeclarations order

theorem sound_checkValueDecls (h : EntriesWF plan t₀ entries) :
    Sound plan c t₀ (checkValueDecls entries) fun _ _ => True := by
  have hskip : ∀ {c : Context} {t : Table}, Sound plan c t (pure ()) fun _ _ => True := .pure fun _ _ _ => trivial
  have hvar : ∀ {index : Nat} {spec : ValueSpec} {t : Table}, (Entry.var spec).WF plan index t →
      ∀ x ∈ spec.names, ∀ id, plan.Allows .package x (.var id) :=
    fun he x hx id _ hblank => he.denotes _ (name_mem_namesOf hx hblank) _ ⟨id, rfl⟩
  unfold checkValueDecls
  refine .andThen (sound_phase h fun file e t he => ?_) ?_
  · cases e with
    | consts specs =>
      refine sound_checkConstSpecs .package specs he.funcNames fun spec hspec x hx id _ hblank => ?_
      exact he.denotes _ (name_mem_namesOf (List.mem_flatMap.2 ⟨spec, hspec, hx⟩) hblank) _ ⟨id, rfl⟩
    | _ => exact hskip
  refine .andThen (sound_phase h fun file e t he => ?_) ?_
  · cases e with
    | var spec => exact sound_declareTyped spec he.funcNames (hvar he)
    | _ => exact hskip
  refine .andThen (sound_phase h fun file e t he => ?_) ?_
  · cases e with
    | var spec =>
      dsimp only
      split
      · exact sound_checkVarSpec .package spec he.funcNames (hvar he)
      · exact hskip
    | _ => exact hskip
  refine sound_phase h fun file e t he => ?_
  cases e with
  | var spec => exact sound_checkTypedValues spec he.funcNames
  | _ => exact hskip

theorem sound_checkHeads (hsteady : ¬ plan.steady) (h : EntriesWF plan t₀ entries) :
    Sound plan c t₀ (checkHeads entries) fun bodies t => BodiesWF plan t bodies := by
  rw [checkHeads_eq]
  refine .bind (sound_resolveMembers h) fun r t₁ h₁ _ hmethods => ?_
  have h := h.of_grows h₁
  refine .andThen (sound_endDeclarations hsteady r.2) (.andThen (sound_checkValueDecls h) ?_)
  exact .pure fun t ht _ => bodiesOf_wf (h.of_grows ht) (hmethods.of_grows ht)

theorem sound_checkBodies {bodies : List (CurrentFile × Body)} (h : BodiesWF plan t₀ bodies) :
    Sound plan c t₀ (Checking.forEach bodies Body.check) fun _ _ => True :=
  .forEach (fun p hp => (h p hp).1) fun p hp _ ht => Body.sound_check ((h p hp).2.of_grows ht)

theorem sound_checkMembers (hsteady : ¬ plan.steady) (h : EntriesWF plan t₀ entries) :
    Sound plan c t₀ (checkMembers entries) fun _ _ => True := by
  rw [checkMembers_eq]
  exact .bind (sound_checkHeads hsteady h) fun bodies t₁ _ _ hbodies => sound_checkBodies hbodies

theorem sound_beginDeclarations (hsteady : ¬ plan.steady) :
    Sound plan c t₀ (liftM Build.beginDeclarations : Checking Unit) fun _ _ => True :=
  .liftFollows hsteady fun _ => Build.follows_beginDeclarations

theorem sound_checkEntries (hsteady : ¬ plan.steady) (h : EntriesWF plan t₀ entries)
    (hsettled : ∀ id ∈ declaredTypes entries, ¬ plan.settled id) : Sound plan c t₀ (checkEntries entries) fun _ _ => True :=
  .andThen (sound_beginDeclarations hsteady) (.andThen (sound_resolveAliases h)
    (.andThen (sound_resolveDeclaredTypes h hsettled) (sound_checkMembers hsteady h)))

/-- Nothing is asked of what names denote, nothing is settled, and declarations may begin and end. -/
structure Plan.Open (plan : Plan) : Prop where
  denotes : ∀ name obj, plan.denotes name obj
  settled : ∀ id, ¬ plan.settled id
  steady : ¬ plan.steady

theorem sound_declareFiles (hopen : plan.Open) (h : FilesWF plan t₀ files) :
    Sound plan c t₀ (declareFiles files) fun bodies t => BodiesWF plan t bodies := by
  refine .bind (sound_enterAll hopen.denotes h.declarationsIn) fun entries t₁ _ _ hentries => ?_
  exact .andThen (sound_beginDeclarations hopen.steady) (.andThen (sound_resolveAliases hentries)
    (.andThen (sound_resolveDeclaredTypes hentries fun id _ => hopen.settled id) (sound_checkHeads hopen.steady hentries)))

theorem sound_checkFiles (hopen : plan.Open) (h : FilesWF plan t₀ files) :
    Sound plan c t₀ (checkFiles files) fun _ _ => True :=
  .bind (sound_enterAll hopen.denotes h.declarationsIn) fun _ _ _ _ hentries =>
    sound_checkEntries hopen.steady hentries fun id _ => hopen.settled id

/-- What is known about a package refers to the table. Only names of functions and methods are recorded as such. -/
structure Package.WF (t : Table) (p : Package) : Prop where
  scope : p.scope.WF t
  infos : ∀ (i : Nat) (info : FileInfo), p.infos[i]? = some info →
    info.WF (fun x => ∃ file, p.files[i]? = some file ∧ x ∈ file.tree.funcNames) t

theorem Package.WF.of_grows {t : Table} {p : Package} (h : p.WF t) (hgrows : t.Grows t') : p.WF t' :=
  ⟨h.scope.of_grows hgrows, fun i info hi => (h.infos i info hi).of_grows hgrows⟩

theorem Scope.WF.insertAll {t : Table} {s s' : Scope} (hs : s.WF t) (hs' : s'.WF t) : (s.insertAll s').WF t := by
  refine List.foldlRecOn (motive := fun s : Scope => s.WF t) s'.entries _ hs ?_
  exact fun s hs e he => hs.insert (hs' e he)

theorem importScope_wf {t : Table} {packages : Array Package} (hpackages : ∀ p ∈ packages, p.WF t)
    (byPath : ImportMap) (imports : List ImportSpec) : (importScope packages byPath imports).WF t := by
  refine List.foldlRecOn (motive := fun s : Scope => s.WF t) imports _ .empty ?_
  intro s hs i _
  split
  · exact hs
  · rename_i dep hdep
    obtain ⟨id, -, hid⟩ := Option.bind_eq_some_iff.1 hdep
    split
    · exact hs
    · exact hs.insertAll (hpackages dep (Array.mem_of_getElem? hid)).scope
    · exact hs.insert trivial
    · exact hs.insert trivial

theorem run_checkPackage (packages : Array Package) (byPath : ImportMap) (id : PackageId) (source : PackageSource)
    (t : Table) :
    (checkPackage packages byPath id source).run t =
      (source.package id
        ((checkFiles (source.currentFiles packages byPath)).eval (source.context packages) source.start t).1.2,
        ((checkFiles (source.currentFiles packages byPath)).eval (source.context packages) source.start t).2) :=
  rfl

namespace PackageSource

/-- The plan for a package: an identifier declares a function or method if it stands as the name of one. Nothing is
asked of what package-level names denote. -/
def openPlan (source : PackageSource) : Plan where
  declares i x := ∃ file, source.files[i]? = some file ∧ x ∈ file.tree.funcNames
  denotes _ _ := True
  settled _ := False
  steady := False

theorem open_openPlan (source : PackageSource) : source.openPlan.Open :=
  ⟨fun _ _ => trivial, fun _ h => h, fun h => h⟩

variable {t : Table} {packages : Array Package}

theorem currentFiles_wf (source : PackageSource) (hpackages : ∀ p ∈ packages, p.WF t) (byPath : ImportMap) :
    FilesWF source.openPlan t (source.currentFiles packages byPath) := by
  intro p hp
  obtain ⟨i, hi, rfl⟩ := List.mem_mapIdx.1 hp
  exact ⟨importScope_wf hpackages byPath _, fun x hx => ⟨_, List.getElem?_eq_getElem hi, hx⟩⟩

theorem context_wf (source : PackageSource) (hpackages : ∀ p ∈ packages, p.WF t) : (source.context packages).WF t :=
  ⟨.empty, fun _ p hp => (hpackages p (Array.mem_of_getElem? hp)).scope⟩

theorem start_wf (source : PackageSource) : source.start.WF source.openPlan t := by
  refine ⟨.empty, fun _ _ _ => trivial, nofun, fun i info hi => ?_, nofun⟩
  unfold start at hi
  rw [List.getElem?_toArray, List.getElem?_map] at hi
  obtain ⟨file, -, rfl⟩ := Option.map_eq_some_iff.1 hi
  exact ⟨nofun, nofun, nofun, nofun, nofun⟩

theorem package_wf {source : PackageSource} {notes : Notes} (h : notes.WF source.openPlan t) (id : PackageId) :
    (source.package id notes).WF t :=
  ⟨h.scope, fun i info hi => h.infos i info (Array.getElem?_toList.symm.trans hi)⟩

end PackageSource

/-- Checking a package keeps the table well formed, and leads to a package that refers to it. -/
theorem checkPackage_wf {t : Table} (hwf : t.WF) {packages : Array Package} (hpackages : ∀ p ∈ packages, p.WF t)
    (byPath : ImportMap) (id : PackageId) (source : PackageSource) :
    source.openPlan.Step t ((checkPackage packages byPath id source).run t).2 ∧
      ((checkPackage packages byPath id source).run t).1.WF ((checkPackage packages byPath id source).run t).2 := by
  obtain ⟨⟨hstep, hnotes, -⟩, -⟩ := sound_checkFiles source.open_openPlan (source.currentFiles_wf hpackages byPath)
    source.start t (.refl t) hwf (source.context_wf hpackages) source.start_wf
  rw [run_checkPackage]
  exact ⟨hstep, PackageSource.package_wf hnotes.wf id⟩

/-! ## Stages -/

/-- What a program can be while its packages are checked one after the other: the table and the packages so far. -/
inductive Stage : Table → Array Package → Prop
  /-- Nothing has been checked. -/
  | start : Stage .predeclared #[]
  /-- One more package is checked. -/
  | checked {t : Table} {packages : Array Package} (h : Stage t packages) (byPath : ImportMap) (id : PackageId)
      (source : PackageSource) :
      Stage ((checkPackage packages byPath id source).run t).2
        (packages.push ((checkPackage packages byPath id source).run t).1)
  /-- Of one more package only the import path is known. -/
  | unknown {t : Table} {packages : Array Package} (h : Stage t packages) (id : PackageId) (path : String) :
      Stage t (packages.push (.opaqueAt id path))

/-- At every stage, the table is well formed and the packages refer to it. -/
theorem Stage.wf {t : Table} {packages : Array Package} (h : Stage t packages) :
    t.WF ∧ ∀ p ∈ packages, p.WF t := by
  induction h with
  | start => exact ⟨.predeclared, by simp⟩
  | checked _ byPath id source ih =>
    obtain ⟨hwf, hpackages⟩ := ih
    obtain ⟨hstep, hpackage⟩ := checkPackage_wf hwf hpackages byPath id source
    refine ⟨hstep.wf, fun p hp => ?_⟩
    rcases Array.mem_push.1 hp with hp | rfl
    · exact (hpackages p hp).of_grows hstep.grows
    · exact hpackage
  | unknown _ id path ih =>
    obtain ⟨hwf, hpackages⟩ := ih
    refine ⟨hwf, fun p hp => ?_⟩
    rcases Array.mem_push.1 hp with hp | rfl
    · exact hpackages p hp
    · exact ⟨.empty, nofun⟩

/-- Between packages, the method sets of all interfaces are known, unless the declarations of one did not end. -/
theorem Stage.methodSetsKnown {t : Table} {packages : Array Package} (h : Stage t packages) : t.MethodSetsKnown := by
  induction h with
  | start => exact Table.methodSetsKnown_predeclared
  | checked h byPath id source ih => exact (checkPackage_wf h.wf.1 h.wf.2 byPath id source).1.known ih
  | unknown _ _ _ ih => exact ih

/-- Between packages, all instances are filled in, unless the declarations of one did not end. -/
theorem Stage.instancesFilled {t : Table} {packages : Array Package} (h : Stage t packages) : t.InstancesFilled := by
  induction h with
  | start => exact Table.instancesFilled_predeclared
  | checked h byPath id source ih => exact (checkPackage_wf h.wf.1 h.wf.2 byPath id source).1.filled ih
  | unknown _ _ _ ih => exact ih

/-! ## Single files -/

/-- A package of one file with the given text. A malformed text leaves it without files. -/
def PackageSource.ofText (text : String) : PackageSource where
  path := "example.com/app"
  name := "app"
  dir := none
  files := ((SourceFile.parse text).toOption.map fun tree => ⟨0, "a.go", "a.go", tree⟩).toList

/-- The package of a text and its table, when nothing else has been checked. -/
def checkText (text : String) : Package × Table := (checkPackage #[] [] ⟨0⟩ (.ofText text)).run .predeclared

theorem stage_checkText (text : String) : Stage (checkText text).2 #[(checkText text).1] :=
  .checked .start [] ⟨0⟩ (.ofText text)

/-! ## Several files -/

/-- A package of files with the given paths and texts. Malformed texts are left out. -/
def PackageSource.ofTexts (texts : List (String × String)) : PackageSource where
  path := "example.com/app"
  name := "app"
  dir := none
  files := texts.zipIdx.filterMap fun ((path, text), id) =>
    (SourceFile.parse text).toOption.map fun tree => ⟨id, path, path, tree⟩

/-- Checks files as a package of their own. -/
def checkTexts (texts : List (String × String)) : Package × Table :=
  (checkPackage #[] [] ⟨0⟩ (.ofTexts texts)).run .predeclared

end UnusedMethods.Typing
