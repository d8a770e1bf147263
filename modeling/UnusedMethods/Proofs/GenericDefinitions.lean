import UnusedMethods.Proofs.Instances
import UnusedMethods.Proofs.DeclaredNames

/-!
# Definitions by instances of generic types

A declared type may be defined as an instance of a generic type of the package, as in `type X G[int]`. Types are resolved
in the order of their declarations, and an instance of a type whose parameters are not known yet is the type itself. So
the definition of `X` depends on whether `G` is declared before it.
-/

namespace UnusedMethods.Typing

open Syntax UnusedMethods.Types Checking

variable {plan : Plan} {base : Table} {c : Context} {n : Notes} {t : Table}

/-! ## Definitions of declared types -/

/-- A step that may be taken whatever is settled changes no definition. -/
theorem definition?_eval {α : Type} (hready : Ready plan c n t) {id : TypeId} (hid : t.HasType id) {x : Checking α}
    {Q : α → Table → Prop} (hx : ∀ settled, Sound (plan.settling settled False) c t x Q) :
    (x.eval c n t).2.definition? id = t.definition? id := by
  have hsettle := hready.settle (fun id' (heq : id' = id) => heq ▸ hid) False
  obtain ⟨-, hstep, -, -⟩ := hsettle.step (hx _)
  exact hstep.settled id rfl

/-- In the file, a declaration defines a type as an instance `g[args]`, where `g` is a name of the package: no type
parameter and no import hides it. -/
structure CurrentFile.Applies (file : CurrentFile) (spec : TypeSpec) (g : Ident) (args : List TypeExpr) : Prop where
  type : spec.type = .generic (.name g) args
  params : ∀ x ∈ spec.typeParams.flatMap (·.names), x.name ≠ g.name
  file : file.scope.find? g.name = none

/-- A state in which the right side of a declared type is resolved: the type parameters have been declared in a scope of
their own. -/
structure RightSide (plan : Plan) (c : Context) (spec : TypeSpec) (n : Notes) (t : Table) (n' : Notes) (t' : Table)
    (params : List TypeId) : Prop where
  ready : Ready plan c n' t'
  step : plan.Step t t'
  scope : n'.scope = n.scope
  locals : ∀ s ∈ n'.locals, ∀ name obj, s.find? name = some obj →
    (∃ x ∈ spec.typeParams.flatMap (·.names), x.name = name) ∧ ∃ p ∈ params, obj = .typeName p
  length : params.length = (spec.typeParams.flatMap (·.names)).length
  params : ∀ p ∈ params, t'.HasType p ∧ ¬ t.HasType p ∧ (t'.get p).isTypeParam = true

/-- On the right side, a type name denotes a declared type unless a type parameter or an import has its name. -/
theorem RightSide.typeNamed? {spec : TypeSpec} {n' : Notes} {t' : Table} {params : List TypeId}
    (h : RightSide plan c spec n t n' t' params) {g : Ident}
    {args : List TypeExpr} (happlies : c.file.Applies spec g args) {id : TypeId}
    (hscope : n.scope.find? g.name = some (.typeName id)) :
    (Checking.typeNamed? g.name).eval c n' t' = ((some id, n'), t') := by
  refine eval_typeNamed? (fun s hs => ?_) happlies.file (h.scope ▸ hscope)
  refine Option.eq_none_iff_forall_ne_some.2 fun obj hobj => ?_
  obtain ⟨⟨x, hx, hname⟩, -⟩ := h.locals s hs _ obj hobj
  exact happlies.params x hx hname

/-- What a type declaration does to the table, once its type parameters have been declared. -/
def setDefinition (spec : TypeSpec) (id : TypeId) (c : Context) (n : Notes) (t : Table) : Table :=
  ((resolveType spec.type).eval c n t).2.setRhs id ((resolveType spec.type).eval c n t).1.1

theorem eval_resolveDeclaredType_of_isEmpty {spec : TypeSpec} (h : spec.typeParams.isEmpty) (id : TypeId) (c : Context)
    (n : Notes) (t : Table) :
    ((resolveDeclaredType spec id).eval c n t).2 = setDefinition spec id c n t ∧
      ((resolveDeclaredType spec id).eval c n t).1.2.infos = ((resolveType spec.type).eval c n t).1.2.infos := by
  unfold resolveDeclaredType
  dsimp only
  rw [if_pos h]
  exact ⟨rfl, rfl⟩

theorem eval_resolveDeclaredType {spec : TypeSpec} (h : ¬ spec.typeParams.isEmpty) (id : TypeId) {params : List TypeId}
    {n' : Notes} {t' : Table}
    (hparams : (declareTypeParams spec.typeParams).eval c { n with locals := .empty :: n.locals } t = ((params, n'), t')) :
    ((resolveDeclaredType spec id).eval c n t).2 = setDefinition spec id c n' (t'.setTypeParams id params) ∧
      ((resolveDeclaredType spec id).eval c n t).1.2.infos =
        ((resolveType spec.type).eval c n' (t'.setTypeParams id params)).1.2.infos := by
  unfold resolveDeclaredType
  dsimp only
  rw [if_neg h, eval_bind]
  have hscope : ∀ x : Checking TypeId, (Checking.inScope x).eval c n t =
      (((x.eval c { n with locals := .empty :: n.locals } t).1.1,
        { (x.eval c { n with locals := .empty :: n.locals } t).1.2 with
          locals := (x.eval c { n with locals := .empty :: n.locals } t).1.2.locals.tail }),
        (x.eval c { n with locals := .empty :: n.locals } t).2) := fun _ => rfl
  rw [hscope, eval_bind, hparams]
  exact ⟨rfl, rfl⟩

theorem definition?_setDefinition (hready : Ready plan c n t) {spec : TypeSpec} {id rhs : TypeId} {params : List TypeId}
    (hdef : t.definition? id = some (rhs, params)) (hnames : ∀ x ∈ spec.type.funcNames, plan.declares c.file.index x) :
    ((resolveType spec.type).eval c n t).2.Grows (setDefinition spec id c n t) ∧
      (setDefinition spec id c n t).definition? id = some (((resolveType spec.type).eval c n t).1.1, params) := by
  obtain ⟨hready', -, -, hrhs⟩ := hready.step (sound_resolveType spec.type hnames)
  have hkeep := definition?_eval hready (.of_definition? hdef) fun _ => sound_resolveType spec.type hnames
  exact ⟨(hready'.wf.setRhs hrhs).grows, Table.definition?_setRhs (hkeep.trans hdef) _⟩

theorem exists_rightSide (hready : Ready plan c n t) {spec : TypeSpec} {id rhs : TypeId} (hid : ¬ plan.settled id)
    (hlocals : n.locals = []) (hdef : t.definition? id = some (rhs, []))
    (hnames : ∀ x ∈ spec.funcNames, plan.declares c.file.index x) :
    ∃ n' t' params, RightSide plan c spec n t n' t' params ∧
      ((resolveType spec.type).eval c n' t').2.Grows ((resolveDeclaredType spec id).eval c n t).2 ∧
      ((resolveDeclaredType spec id).eval c n t).1.2.infos = ((resolveType spec.type).eval c n' t').1.2.infos ∧
      ((resolveDeclaredType spec id).eval c n t).2.definition? id =
        some (((resolveType spec.type).eval c n' t').1.1, params) := by
  obtain ⟨hparams, htype⟩ := List.forall_mem_append.1 hnames
  by_cases hempty : spec.typeParams.isEmpty
  · obtain ⟨htable, hinfos⟩ := eval_resolveDeclaredType_of_isEmpty hempty id c n t
    obtain ⟨hgrows, hresult⟩ := definition?_setDefinition hready hdef htype
    rw [htable]
    refine ⟨n, t, [], ⟨hready, .refl hready.wf, rfl, by simp [hlocals], ?_, by simp⟩, hgrows, hinfos, hresult⟩
    rw [List.isEmpty_iff.1 hempty]
    rfl
  · have hready₀ : Ready plan c { n with locals := .empty :: n.locals } t := by
      refine ⟨hready.wf, hready.context, hready.notes.scope, hready.notes.denotes, ?_, hready.notes.infos, hready.notes.settled⟩
      simpa [hlocals] using Scope.WF.empty
    obtain ⟨hready₁, hstep₁, -, hnew⟩ := hready₀.step (sound_declareTypeParams spec.typeParams hparams)
    have hdef₁ := definition?_eval hready₀ (.of_definition? hdef) fun _ => sound_declareTypeParams spec.typeParams hparams
    obtain ⟨hlength, s, hs, hfind⟩ := locals_declareTypeParams spec.typeParams c t
      (n := { n with locals := .empty :: n.locals }) rfl
    have houter := ((enters_declareTypeParams (P := fun _ => True) spec.typeParams fun _ _ => trivial).scopes rfl).outer
    have hscope := (Prod.mk.inj (houter c { n with locals := .empty :: n.locals } t)).1
    obtain ⟨⟨⟨params, n₁⟩, t₁⟩, heval⟩ : ∃ r, (declareTypeParams spec.typeParams).eval c
      { n with locals := .empty :: n.locals } t = r := ⟨_, rfl⟩
    rw [heval] at hready₁ hstep₁ hnew hdef₁ hlength hs hfind hscope
    obtain ⟨hready₂, hstep₂, -, -⟩ := hready₁.step (.changeNamed hid (fun t ht hwf =>
      hwf.setTypeParams fun p hp => ht.hasType (hnew p hp).1) fun _ => ⟨rfl, rfl⟩)
    obtain ⟨htable, hinfos⟩ := eval_resolveDeclaredType hempty id heval
    obtain ⟨hgrows, hresult⟩ := definition?_setDefinition hready₂ (Table.definition?_setTypeParams (hdef₁.trans hdef) params) htype
    rw [htable]
    refine ⟨n₁, t₁.setTypeParams id params, params, ⟨hready₂, hstep₁.trans hstep₂, hscope, ?_, hlength, ?_⟩, hgrows,
      hinfos, hresult⟩
    · intro s' hs' name obj hobj
      rw [hs, hlocals, List.mem_singleton] at hs'
      exact hfind name obj (hs' ▸ hobj)
    · intro p hp
      obtain ⟨hhas, hnew, hparam⟩ := hnew p hp
      exact ⟨hstep₂.grows.hasType hhas, hnew, (hstep₂.grows.isTypeParam_get hhas).trans hparam⟩

/-! ## The order of type declarations -/

/-- The declared types of a package are being resolved. -/
structure ResolvingTypes (plan : Plan) (es : List (CurrentFile × Entry)) (c : Context) (n : Notes) (t : Table) : Prop
    extends Ready plan c n t where
  entries : EntriesWF plan t es
  locals : n.locals = []
  deferring : t.deferring = true

namespace ResolvingTypes

variable {es : List (CurrentFile × Entry)}

theorem step (h : ResolvingTypes plan es c n t) {l : List (CurrentFile × Entry)} (hl : l ⊆ es) :
    ResolvingTypes plan es c ((resolveDeclaredTypes l).eval c n t).1.2 ((resolveDeclaredTypes l).eval c n t).2 ∧
      t.Grows ((resolveDeclaredTypes l).eval c n t).2 ∧ ((resolveDeclaredTypes l).eval c n t).1.2.scope = n.scope ∧
      ∀ id, t.HasType id → id ∉ declaredTypes l →
        ((resolveDeclaredTypes l).eval c n t).2.definition? id = t.definition? id := by
  have hready := h.toReady.settle (fun id (hid : t.HasType id ∧ id ∉ declaredTypes l) => hid.1) True
  have hentries : EntriesWF plan t l := fun p hp => h.entries p (hl hp)
  obtain ⟨hready', hstep, -, -⟩ := hready.step (sound_resolveDeclaredTypes (hentries.settling _ _)
    fun id hid hsettled => hsettled.2 hid)
  obtain ⟨hscope, hlocals⟩ := Prod.mk.inj (keeps_resolveDeclaredTypes l c n t)
  have hback := hready'.settle (fun id hid => hstep.grows.hasType (h.notes.settled id hid)) plan.steady
  refine ⟨⟨hback, h.entries.of_grows hstep.grows, hlocals.trans h.locals, ?_⟩, hstep.grows, hscope,
    fun id hid hl => hstep.settled id ⟨hid, hl⟩⟩
  exact (hstep.steady trivial).trans h.deferring

theorem ready (h : ResolvingTypes plan es c n t) {file : CurrentFile} {e : Entry} (he : (file, e) ∈ es) {id rhs : TypeId}
    {params : List TypeId} (hdef : t.definition? id = some (rhs, params)) :
    Ready (plan.settling (· = id) True) { c with file } n t :=
  (h.toReady.inFile (h.entries _ he).1).settle (fun id' (heq : id' = id) => heq ▸ .of_definition? hdef) True

section Use

variable {file : CurrentFile} {spec : TypeSpec} {id gid rhs rhs' : TypeId} {params : List TypeId} {g : Ident}
variable {args : List TypeExpr}

theorem definition?_of_unresolved (h : ResolvingTypes plan es c n t) (hmem : (file, .type spec id) ∈ es)
    (happlies : file.Applies spec g args) (hscope : n.scope.find? g.name = some (.typeName gid)) (hne : id ≠ gid)
    (hdef : t.definition? id = some (rhs, [])) (hgdef : t.definition? gid = some (rhs', [])) :
    ∃ params, ((resolveDeclaredTypes [(file, .type spec id)]).eval c n t).2.definition? id = some (gid, params) := by
  have hnames := (h.entries _ hmem).2.funcNames
  obtain ⟨n', t', params, hright, -, -, hresult⟩ := exists_rightSide (h.ready hmem hgdef) hne h.locals hdef hnames
  refine ⟨params, hresult.trans ?_⟩
  have hg := hright.typeNamed? happlies hscope
  have hargs := (List.forall_mem_append.1 hnames).2
  rw [happlies.type] at hargs ⊢
  rw [resolveType_of_undeclared hright.ready rfl hg ((hright.step.settled gid rfl).trans hgdef)
    (List.forall_mem_append.1 hargs).2]

theorem definition?_of_resolved (h : ResolvingTypes plan es c n t) (hmem : (file, .type spec id) ∈ es)
    (hold : DenotesOld base { c with file } n.scope) 
    (happlies : file.Applies spec g args) (hscope : n.scope.find? g.name = some (.typeName gid)) (hne : id ≠ gid)
    (hdef : t.definition? id = some (rhs, [])) (hgdef : t.definition? gid = some (rhs', params))
    (hlength : args.length = params.length) (hparams : params ≠ [])
    (hnew : ∀ p ∈ params, t.HasType p ∧ (t.get p).isTypeParam = true ∧ ¬ base.HasType p) :
    ∃ inst params, ((resolveDeclaredTypes [(file, .type spec id)]).eval c n t).2.definition? id = some (inst, params) ∧
      ((resolveDeclaredTypes [(file, .type spec id)]).eval c n t).2.IsInstance inst gid := by
  have hnames := (h.entries _ hmem).2.funcNames
  obtain ⟨n', t', params', hright, hgrows, -, hresult⟩ := exists_rightSide (h.ready hmem hgdef) hne h.locals hdef hnames
  refine ⟨_, params', hresult, .of_grows ?_ hgrows⟩
  have hg := hright.typeNamed? happlies hscope
  have hargs := (List.forall_mem_append.1 hnames).2
  rw [happlies.type] at hargs ⊢
  refine resolveType_of_declared (hright.scope ▸ hold) hright.ready trivial ((hright.step.steady trivial).trans h.deferring) rfl
    hg ((hright.step.settled gid rfl).trans hgdef) (List.forall_mem_append.1 hargs).2 hlength hparams fun p hp => ?_
  obtain ⟨hhas, hparam, hbase⟩ := hnew p hp
  refine ⟨hright.step.grows.hasType hhas, (hright.step.grows.isTypeParam_get hhas).trans hparam, hbase, ?_⟩
  -- the parameters of the type itself are newer
  rintro ⟨s, hs, name, hfind⟩
  obtain ⟨-, q, hq, heq⟩ := hright.locals s hs name _ hfind
  cases heq
  exact (hright.params p hq).2.1 hhas

theorem exists_params (h : ResolvingTypes plan es c n t) (hmem : (file, .type spec id) ∈ es)
    (hdef : t.definition? id = some (rhs, [])) :
    ∃ rhs params, ((resolveDeclaredTypes [(file, .type spec id)]).eval c n t).2.definition? id = some (rhs, params) ∧
      params.length = (spec.typeParams.flatMap (·.names)).length ∧
      ∀ p ∈ params, ((resolveDeclaredTypes [(file, .type spec id)]).eval c n t).2.HasType p ∧
        (((resolveDeclaredTypes [(file, .type spec id)]).eval c n t).2.get p).isTypeParam = true ∧ ¬ t.HasType p := by
  have hnames := (h.entries _ hmem).2.funcNames
  have hready := (h.toReady.inFile (h.entries _ hmem).1).settle (fun id (hid : False) => hid.elim) True
  obtain ⟨n', t', params, hright, hgrows, -, hresult⟩ := exists_rightSide hready (fun hid => hid) h.locals hdef hnames
  refine ⟨_, params, hresult, hright.length, fun p hp => ?_⟩
  obtain ⟨hhas, hnew, hparam⟩ := hright.params p hp
  obtain ⟨-, hstep, -, -⟩ := hright.ready.step (sound_resolveType spec.type (List.forall_mem_append.1 hnames).2)
  have hgrows := hstep.grows.trans hgrows
  exact ⟨hgrows.hasType hhas, (hgrows.isTypeParam_get hhas).trans hparam, hnew⟩

end Use

/-! ### All declarations -/

theorem resolveDeclaredTypes_append (l l' : List (CurrentFile × Entry)) :
    resolveDeclaredTypes (l ++ l') = resolveDeclaredTypes l >>= fun _ => resolveDeclaredTypes l' :=
  forEach_append l l' _

theorem declaredTypes_append (l l' : List (CurrentFile × Entry)) :
    declaredTypes (l ++ l') = declaredTypes l ++ declaredTypes l' :=
  List.filterMap_append

/-- The types have not been resolved yet. -/
structure Unresolved (t : Table) (es : List (CurrentFile × Entry)) : Prop where
  nodup : (declaredTypes es).Nodup
  definition : ∀ id ∈ declaredTypes es, t.definition? id = some (.invalid, [])

theorem mem_declaredTypes {file : CurrentFile} {spec : TypeSpec} {id : TypeId} (h : (file, .type spec id) ∈ es) :
    id ∈ declaredTypes es :=
  List.mem_filterMap.2 ⟨_, h, rfl⟩

variable {l l' : List (CurrentFile × Entry)} {file gfile : CurrentFile} {spec gspec : TypeSpec} {id gid : TypeId}

theorem Unresolved.split (h : Unresolved t es) (hes : es = l ++ ([(file, .type spec id)] ++ l')) :
    Unresolved t l ∧ id ∉ declaredTypes l ∧ id ∉ declaredTypes l' ∧ ∀ gid ∈ declaredTypes l', gid ∉ declaredTypes l := by
  have hids : declaredTypes es = declaredTypes l ++ id :: declaredTypes l' := by
    rw [hes, declaredTypes_append, declaredTypes_append]
    rfl
  have hnodup := hids ▸ h.nodup
  obtain ⟨hl, hrest, hdisjoint⟩ := List.nodup_append.1 hnodup
  refine ⟨⟨hl, fun id hid => h.definition id (by simp [hids, hid])⟩, fun hid => hdisjoint id hid id (by simp) rfl,
    (List.nodup_cons.1 hrest).1, fun gid hgid hmem => hdisjoint gid hmem gid (by simp [hgid]) rfl⟩

theorem mono (h : ResolvingTypes plan es c n t) (hl : l ⊆ es) : ResolvingTypes plan l c n t :=
  ⟨h.toReady, fun p hp => h.entries p (hl hp), h.locals, h.deferring⟩

theorem definition?_after (h : ResolvingTypes plan es c n t) (hunresolved : Unresolved t es)
    (hes : es = l ++ ([(file, .type spec id)] ++ l')) {n₁ : Notes} {t₁ : Table}
    (hrun : (resolveDeclaredTypes l).eval c n t = (((), n₁), t₁)) :
    ResolvingTypes plan es c n₁ t₁ ∧ t.Grows t₁ ∧ n₁.scope = n.scope ∧ t₁.definition? id = some (.invalid, []) ∧
      ((resolveDeclaredTypes [(file, .type spec id)]).eval c n₁ t₁).2.Grows ((resolveDeclaredTypes es).eval c n t).2 ∧
      ∀ d, ((resolveDeclaredTypes [(file, .type spec id)]).eval c n₁ t₁).2.definition? id = some d →
        ((resolveDeclaredTypes es).eval c n t).2.definition? id = some d := by
  obtain ⟨-, hid, hid', -⟩ := hunresolved.split hes
  have hmem : (file, .type spec id) ∈ es := by simp [hes]
  have hdef := hunresolved.definition id (mem_declaredTypes hmem)
  obtain ⟨h₁, hgrows₁, hscope₁, hkeep₁⟩ := h.step (l := l) (by simp [hes])
  rw [hrun] at h₁ hgrows₁ hscope₁ hkeep₁
  obtain ⟨h₂, -, -, -⟩ := h₁.step (l := [(file, .type spec id)]) (by simp [hes])
  obtain ⟨-, hgrows₃, -, hkeep₃⟩ := h₂.step (l := l') (by simp [hes])
  have heval : (resolveDeclaredTypes es).eval c n t = (resolveDeclaredTypes l').eval c
      ((resolveDeclaredTypes [(file, .type spec id)]).eval c n₁ t₁).1.2
      ((resolveDeclaredTypes [(file, .type spec id)]).eval c n₁ t₁).2 := by
    conv_lhs => rw [hes]
    rw [resolveDeclaredTypes_append, eval_bind, hrun, resolveDeclaredTypes_append, eval_bind]
  rw [heval]
  refine ⟨h₁, hgrows₁, hscope₁, (hkeep₁ id (.of_definition? hdef) hid).trans hdef, hgrows₃, ?_⟩
  rintro ⟨rhs, params⟩ hd
  exact (hkeep₃ id (.of_definition? hd) hid').trans hd

theorem exists_params_of_mem (h : ResolvingTypes plan es c n t) (hunresolved : Unresolved t es)
    (hmem : (file, .type spec id) ∈ es) :
    ∃ rhs params, ((resolveDeclaredTypes es).eval c n t).2.definition? id = some (rhs, params) ∧
      params.length = (spec.typeParams.flatMap (·.names)).length ∧
      ∀ p ∈ params, ((resolveDeclaredTypes es).eval c n t).2.HasType p ∧
        (((resolveDeclaredTypes es).eval c n t).2.get p).isTypeParam = true ∧ ¬ t.HasType p := by
  obtain ⟨l, l', hes⟩ := List.append_of_mem hmem
  obtain ⟨h₁, hgrows₁, -, hdef₁, hgrows₂, hafter⟩ := h.definition?_after hunresolved hes rfl
  obtain ⟨rhs, params, hdef, hlength, hparams⟩ := h₁.exists_params hmem hdef₁
  refine ⟨rhs, params, hafter _ hdef, hlength, fun p hp => ?_⟩
  obtain ⟨hhas, hparam, hnew⟩ := hparams p hp
  exact ⟨hgrows₂.hasType hhas, (hgrows₂.isTypeParam_get hhas).trans hparam, fun hold => hnew (hgrows₁.hasType hold)⟩

variable {g : Ident} {args : List TypeExpr}

theorem definition?_of_later (h : ResolvingTypes plan es c n t) (hunresolved : Unresolved t es)
    (hes : es = l ++ ([(file, .type spec id)] ++ l')) (hgmem : gid ∈ declaredTypes l')
    (happlies : file.Applies spec g args) (hscope : n.scope.find? g.name = some (.typeName gid)) :
    ∃ params, ((resolveDeclaredTypes es).eval c n t).2.definition? id = some (gid, params) := by
  obtain ⟨h₁, -, hscope₁, hdef₁, -, hafter⟩ := h.definition?_after hunresolved hes rfl
  obtain ⟨-, -, hid, hnot⟩ := hunresolved.split hes
  have hmem : (file, .type spec id) ∈ es := by simp [hes]
  have hgdef : t.definition? gid = some (.invalid, []) := by
    refine hunresolved.definition gid ?_
    rw [hes, declaredTypes_append, declaredTypes_append]
    simp [hgmem]
  obtain ⟨-, -, -, hkeep⟩ := h.step (l := l) (by simp [hes])
  have hgdef₁ := (hkeep gid (.of_definition? hgdef) (hnot gid hgmem)).trans hgdef
  have hne : id ≠ gid := fun heq => hid (heq ▸ hgmem)
  obtain ⟨params, hdef⟩ := h₁.definition?_of_unresolved hmem happlies (hscope₁ ▸ hscope) hne hdef₁ hgdef₁
  exact ⟨params, hafter _ hdef⟩

theorem definition?_of_earlier (h : ResolvingTypes plan es c n t) (hunresolved : Unresolved t es)
    (hes : es = l ++ ([(file, .type spec id)] ++ l')) (hgmem : (gfile, .type gspec gid) ∈ l)
    (happlies : file.Applies spec g args) (hscope : n.scope.find? g.name = some (.typeName gid))
    (hlength : args.length = (gspec.typeParams.flatMap (·.names)).length) (hargs : args ≠ []) :
    ∃ inst params, ((resolveDeclaredTypes es).eval c n t).2.definition? id = some (inst, params) ∧
      ((resolveDeclaredTypes es).eval c n t).2.IsInstance inst gid := by
  obtain ⟨h₁, hgrows₁, hscope₁, hdef₁, hgrows₂, hafter⟩ := h.definition?_after hunresolved hes rfl
  obtain ⟨hl, hid, -, -⟩ := hunresolved.split hes
  have hmem : (file, .type spec id) ∈ es := by simp [hes]
  obtain ⟨rhs, params, hgdef₁, hparams, hnew⟩ := (h.mono (l := l) (by simp [hes])).exists_params_of_mem hl hgmem
  have hne : id ≠ gid := fun heq => hid (heq ▸ mem_declaredTypes hgmem)
  have hold : DenotesOld t { c with file } n.scope :=
    ⟨h.wf, ⟨(h.entries _ hmem).1, h.context.packages⟩, h.notes.scope⟩
  have hsome : params ≠ [] := by
    rintro rfl
    exact hargs (List.length_eq_zero_iff.1 (hlength.trans hparams.symm))
  obtain ⟨inst, params', hdef, hinst⟩ := h₁.definition?_of_resolved hmem (hscope₁ ▸ hold) happlies (hscope₁ ▸ hscope)
    hne hdef₁ hgdef₁ (hlength.trans hparams.symm) hsome hnew
  exact ⟨inst, params', hafter _ hdef, hinst.of_grows hgrows₂⟩

end ResolvingTypes

/-! ## The whole check -/

theorem declaredTypes_entriesFrom (path : String) (type func : Nat) (ds : List (CurrentFile × Declaration)) :
    declaredTypes (entriesFrom path type func ds) = (List.range' type (newTypesOf path ds).length).map TypeId.mk := by
  induction ds generalizing type func with
  | nil => rfl
  | cons p ds ih =>
    obtain ⟨file, d⟩ := p
    have hcons : declaredTypes (entriesFrom path type func ((file, d) :: ds)) =
        declaredTypes [(file, d.entry type func)] ++
          declaredTypes (entriesFrom path (type + (d.newTypes path).length) (func + (d.newFuncs path file.id).length) ds) :=
      ResolvingTypes.declaredTypes_append [(file, d.entry type func)] _
    rw [hcons, ih]
    cases d with
    | type spec => simp [newTypesOf, declaredTypes, Declaration.entry, Declaration.newTypes, List.range'_succ]
    | _ => simp [newTypesOf, declaredTypes, Declaration.entry, Declaration.newTypes]

theorem unresolved_enterAll (ds : List (CurrentFile × Declaration)) (c : Context) (n : Notes) (t : Table) :
    ResolvingTypes.Unresolved ((enterAll ds).eval c n t).2 ((enterAll ds).eval c n t).1.1 := by
  constructor
  · obtain ⟨n', heval, -⟩ := eval_enterAll ds c n t
    rw [heval, declaredTypes_entriesFrom]
    exact List.Nodup.map (fun _ _ h => TypeId.mk.inj h) List.nodup_range'
  · intro id hid
    obtain ⟨⟨file, e⟩, he, heq⟩ := List.mem_filterMap.1 hid
    cases e with
    | type spec id' =>
      cases heq
      rw [Table.definition?, get_enterAll he]
      rfl
    | _ => cases heq

section Entered

variable {es : List (CurrentFile × Entry)}

theorem resolvingTypes_of_ready (hready : Ready plan c n t) (hsteady : ¬ plan.steady) (hentries : EntriesWF plan t es)
    (hlocals : n.locals = []) (hunresolved : ResolvingTypes.Unresolved t es) {n₁ : Notes} {t₁ : Table}
    (hrun : (resolveAliases es).eval c n { t with deferring := true } = (((), n₁), t₁)) :
    ResolvingTypes (plan.settling (fun _ => False) True) es c n₁ t₁ ∧ ResolvingTypes.Unresolved t₁ es := by
  obtain ⟨hready', -, -, -⟩ := hready.step (sound_beginDeclarations hsteady)
  have hfollows := hready.wf.setDeferring true
  have hentries' := hentries.of_grows hfollows.grows
  have hsettled := hready'.settle (fun id (hid : id ∈ declaredTypes es) =>
    hfollows.grows.hasType (.of_definition? (hunresolved.definition id hid))) True
  obtain ⟨hready₁, hstep, -, -⟩ := hsettled.step (sound_resolveAliases (hentries'.settling _ _))
  have hlocals₁ := keeps_resolveAliases es c n { t with deferring := true }
  have heval : (liftM Build.beginDeclarations : Checking Unit).eval c n t = (((), n), { t with deferring := true }) := rfl
  rw [heval] at hready₁ hstep
  rw [hrun] at hlocals₁ hready₁ hstep
  refine ⟨⟨hready₁.settle (fun _ hid => hid.elim) True, (hentries'.of_grows hstep.grows).settling _ _,
    hlocals₁.trans hlocals, hstep.steady trivial⟩, hunresolved.nodup, fun id hid => ?_⟩
  rw [hstep.settled id hid]
  exact (hfollows.definitions id (.of_definition? (hunresolved.definition id hid))).trans (hunresolved.definition id hid)

/-- The last phase of a check comes after the types have been resolved. -/
theorem eval_checkEntries {n₁ : Notes} {t₁ : Table}
    (hrun : (resolveAliases es).eval c n { t with deferring := true } = (((), n₁), t₁)) :
    (checkEntries es).eval c n t = (checkMembers es).eval c
      ((resolveDeclaredTypes es).eval c n₁ t₁).1.2 ((resolveDeclaredTypes es).eval c n₁ t₁).2 := by
  have hbegin : (checkEntries es).eval c n t = (do
      resolveAliases es
      resolveDeclaredTypes es
      checkMembers es).eval c n { t with deferring := true } := rfl
  rw [hbegin, eval_bind, hrun, eval_bind]

/-- A definition that a declared type gets stays until the end of the check. -/
theorem definition?_checkEntries (hready : Ready plan c n t) (hsteady : ¬ plan.steady) (hentries : EntriesWF plan t es)
    (hsettled : ∀ id ∈ declaredTypes es, ¬ plan.settled id) {n₁ : Notes} {t₁ : Table}
    (hrun : (resolveAliases es).eval c n { t with deferring := true } = (((), n₁), t₁)) :
    ((resolveDeclaredTypes es).eval c n₁ t₁).2.Grows ((checkEntries es).eval c n t).2 ∧
      ∀ id d, ((resolveDeclaredTypes es).eval c n₁ t₁).2.definition? id = some d →
        ((checkEntries es).eval c n t).2.definition? id = some d := by
  obtain ⟨hready₁, hstep₁, -, -⟩ := hready.step (sound_beginDeclarations hsteady)
  have hentries₁ := hentries.of_grows hstep₁.grows
  obtain ⟨hready₂, hstep₂, -, -⟩ := hready₁.step (sound_resolveAliases hentries₁)
  have heval : (liftM Build.beginDeclarations : Checking Unit).eval c n t = (((), n), { t with deferring := true }) := rfl
  rw [heval] at hready₂ hstep₂ hentries₁
  rw [hrun] at hready₂ hstep₂
  have hentries₂ := hentries₁.of_grows hstep₂.grows
  obtain ⟨hready₃, hstep₃, -, -⟩ := hready₂.step (sound_resolveDeclaredTypes hentries₂ hsettled)
  have hentries₃ := hentries₂.of_grows hstep₃.grows
  rw [eval_checkEntries hrun]
  obtain ⟨-, hstep₄, -, -⟩ := hready₃.step (sound_checkMembers hsteady hentries₃)
  refine ⟨hstep₄.grows, ?_⟩
  rintro id ⟨rhs, params⟩ hdef
  exact (definition?_eval hready₃ (.of_definition? hdef) fun settled =>
    sound_checkMembers (fun h => h) (hentries₃.settling settled False)).trans hdef

end Entered

end UnusedMethods.Typing
