import UnusedMethods.Proofs.Soundness
import UnusedMethods.Proofs.Scopes

/-!
# Instances that type expressions ask for

While the declarations of a package are read, an expression such as `G[int]` denotes an instance of `G` if the type
parameters of `G` are known by then, and `G` itself if they are not.
-/

namespace UnusedMethods.Types

open Table (HasType HasFunc)

variable {t : Table}

/-! ## Instances while declarations are read -/

theorem Table.named_of_definition? {id rhs : TypeId} {params : List TypeId} (h : t.definition? id = some (rhs, params)) :
    ∃ d, t.get id = .named d ∧ d.origin = none ∧ d.rhs = rhs ∧ d.typeParams = params := by
  unfold Table.definition? Ty.definition? at h
  split at h
  · rename_i d hget
    split at h
    · rename_i horigin
      obtain ⟨rfl, rfl⟩ := Prod.mk.inj (Option.some.inj h)
      exact ⟨d, hget, by simpa using horigin, rfl, rfl⟩
    · cases h
  · cases h

theorem Table.named?_of_get {id : TypeId} {d : Named} (h : t.get id = .named d) : t.named? id = some d := by
  rw [Table.named?, h]

theorem Table.exists_expansionBound (t : Table) : ∃ n, t.expansionBound = n + 1 :=
  Nat.exists_eq_succ_of_ne_zero (Nat.mul_ne_zero (Nat.succ_ne_zero _) (Nat.succ_ne_zero _))

theorem Table.HasType.of_definition? {id rhs : TypeId} {params : List TypeId} (h : t.definition? id = some (rhs, params)) :
    t.HasType id := by
  obtain ⟨d, hget, -⟩ := Table.named_of_definition? h
  exact Table.hasType_of_get_ne_invalid (by rw [hget]; exact nofun)

theorem Table.definition?_setRhs {id rhs : TypeId} {params : List TypeId} (h : t.definition? id = some (rhs, params))
    (rhs' : TypeId) : (t.setRhs id rhs').definition? id = some (rhs', params) := by
  obtain ⟨d, hget, horigin, -, rfl⟩ := Table.named_of_definition? h
  rw [Table.definition?, Table.setRhs, Table.modifyNamed, Table.get_modifyType_self (.of_definition? h), hget]
  simp [Ty.definition?, horigin]

theorem Table.definition?_setTypeParams {id rhs : TypeId} {params : List TypeId}
    (h : t.definition? id = some (rhs, params)) (params' : List TypeId) :
    (t.setTypeParams id params').definition? id = some (rhs, params') := by
  obtain ⟨d, hget, horigin, rfl, -⟩ := Table.named_of_definition? h
  rw [Table.definition?, Table.setTypeParams, Table.modifyNamed, Table.get_modifyType_self (.of_definition? h), hget]
  simp [Ty.definition?, horigin]

theorem Build.run_instantiate_of_nil {g rhs : TypeId} (h : t.definition? g = some (rhs, [])) (args : List TypeId) :
    (Build.instantiate g args).run t = (g, t) := by
  obtain ⟨d, hget, horigin, -, hparams⟩ := Table.named_of_definition? h
  obtain ⟨n, hn⟩ := t.exists_expansionBound
  have hrun : (Build.instantiate g args).run t =
      (StateT.run (Expansion.instantiate t.expansionBound g args 0) t).getD (default, t) := rfl
  rw [hrun, hn]
  simp [Expansion.instantiate, Table.named?_of_get hget, horigin, hparams]

theorem Table.get_of_find? {p : Ty → Bool} {id : TypeId} (h : t.find? p = some id) : p (t.get id) = true := by
  obtain ⟨i, hi, rfl⟩ := Option.map_eq_some_iff.1 h
  obtain ⟨hlt, hp, -⟩ := Array.findIdx?_eq_some_iff_getElem.1 hi
  rwa [Table.get, Array.getElem?_eq_getElem hlt, Option.getD_some]

/-- The type is an instance of a generic type. -/
def Table.IsInstance (t : Table) (id g : TypeId) : Prop := ∃ d, t.get id = .named d ∧ d.origin = some g

theorem Table.IsInstance.of_grows {t' : Table} {id g : TypeId} (h : t.IsInstance id g) (hgrows : t.Grows t') :
    t'.IsInstance id g := by
  obtain ⟨d, hget, horigin⟩ := h
  obtain ⟨d', hget', -, -, horigin', -⟩ := hgrows.named hget
  exact ⟨d', hget', horigin'.trans horigin⟩

/-- While declarations are read, a generic type has an instance for every list of arguments of the right length that are
not its own parameters. An instance of it may stand for the type. -/
theorem Build.isInstance_instantiate {g : TypeId} {d d' : Named} {args : List TypeId} (hd : t.named? g = some d)
    (hd' : t.named? (d.origin.getD g) = some d') (hparams : d'.typeParams ≠ []) (hlength : args.length = d'.typeParams.length)
    (hother : args ≠ d'.typeParams) (hdeferring : t.deferring = true) :
    ((Build.instantiate g args).run t).2.IsInstance ((Build.instantiate g args).run t).1 (d.origin.getD g) := by
  obtain ⟨n, hn⟩ := t.exists_expansionBound
  have hrun : (Build.instantiate g args).run t =
      (StateT.run (Expansion.instantiate t.expansionBound g args 0) t).getD (default, t) := rfl
  rw [hrun, hn]
  cases hinst : t.instance? (d.origin.getD g) args with
  | some id =>
    have hresult : StateT.run (Expansion.instantiate (n + 1) g args 0) t = some (id, t) := by
      simp [Expansion.instantiate, hd, hd', hparams, hlength, hother, hinst]
    rw [hresult]
    have hfound := Table.get_of_find? hinst
    split at hfound
    · rename_i inst hget
      simp only [Bool.and_eq_true, decide_eq_true_eq] at hfound
      exact ⟨inst, hget, hfound.1⟩
    · cases hfound
  | none =>
    have hresult : StateT.run (Expansion.instantiate (n + 1) g args 0) t =
        some ((Build.push (.named
          { name := d'.name, package := d'.package, rhs := .invalid, methods := [], typeParams := [],
            origin := some (d.origin.getD g), typeArgs := args, expanded := false })).run t) := by
      simp [Expansion.instantiate, hd, hd', hparams, hlength, hother, hinst, hdeferring]
      rfl
    rw [hresult]
    exact ⟨_, Build.get_push t _, rfl⟩

/-! ## Type parameters -/

/-- The computation does not give a type parameter. -/
def Build.GivesNoParam (t : Table) (x : Build TypeId) : Prop := ((x.run t).2.get (x.run t).1).isTypeParam = false

namespace Build

theorem givesNoParam_push {ty : Ty} (hty : ty.isTypeParam = false) (t : Table) : GivesNoParam t (push ty) := by
  rw [GivesNoParam, get_push, hty]

theorem givesNoParam_findOrPush {p : Ty → Bool} (hp : ∀ ty, p ty = true → ty.isTypeParam = false) {ty : Ty}
    (hty : ty.isTypeParam = false) (t : Table) :
    GivesNoParam t (do
      match (← get).find? p with
      | some id => return id
      | none => push ty) := by
  cases hfind : t.find? p with
  | some id =>
    have hrun : StateT.run (do
        match (← get).find? p with
        | some id => return id
        | none => push ty : Build TypeId) t = (id, t) := by
      show (match t.find? p with
        | some id => (pure id : Build TypeId)
        | none => push ty) t = (id, t)
      rw [hfind]
      rfl
    rw [GivesNoParam, hrun]
    exact hp _ (Table.get_of_find? hfind)
  | none =>
    have hrun : StateT.run (do
        match (← get).find? p with
        | some id => return id
        | none => push ty : Build TypeId) t = (push ty).run t := by
      show (match t.find? p with
        | some id => (pure id : Build TypeId)
        | none => push ty) t = (push ty).run t
      rw [hfind]
      rfl
    rw [GivesNoParam, hrun]
    exact givesNoParam_push hty t

theorem givesNoParam_pointer (t : Table) (elem : TypeId) : GivesNoParam t (pointer elem) :=
  givesNoParam_findOrPush (fun ty h => by cases ty <;> first | rfl | cases h) rfl t

theorem givesNoParam_slice (t : Table) (elem : TypeId) : GivesNoParam t (slice elem) :=
  givesNoParam_findOrPush (fun ty h => by cases ty <;> first | rfl | cases h) rfl t

/-- While declarations are read, an interface is entered without its method set. -/
theorem run_interface (hdeferring : t.deferring = true) (explicit : List FuncId) (embedded : List TypeId) :
    (interface explicit embedded).run t =
      (push (.interface { explicit, embedded, methods := [], complete := false, hasTerms := false })).run t := by
  obtain ⟨n, hn⟩ := t.exists_expansionBound
  have hrun : (interface explicit embedded).run t =
      (StateT.run (Expansion.newInterface t.expansionBound explicit embedded) t).getD (default, t) := rfl
  have hresult : StateT.run (Expansion.newInterface (n + 1) explicit embedded) t =
      some ((push (.interface
        { explicit, embedded, methods := [], complete := false, hasTerms := false })).run t) := by
    unfold Expansion.newInterface
    show StateT.run (if (!t.deferring) = true then _ else (pure ⟨t.types.size⟩ : Expansion TypeId)) _ = _
    rw [if_neg (by simp [hdeferring])]
    rfl
  rw [hrun, hn, hresult]
  rfl

theorem givesNoParam_interface (hdeferring : t.deferring = true) (explicit : List FuncId) (embedded : List TypeId) :
    GivesNoParam t (interface explicit embedded) := by
  rw [GivesNoParam, run_interface hdeferring]
  exact givesNoParam_push rfl t

theorem givesNoParam_instantiate (hwf : t.WF) (hdeferring : t.deferring = true) (g : TypeId) (args : List TypeId) :
    GivesNoParam t (instantiate g args) := by
  obtain ⟨n, hn⟩ := t.exists_expansionBound
  have hrun : (instantiate g args).run t =
      (StateT.run (Expansion.instantiate t.expansionBound g args 0) t).getD (default, t) := rfl
  have hinvalid : (t.get .invalid).isTypeParam = false := 
    hwf.base.isTypeParam_get Table.WF.predeclared.hasType_invalid
  rw [GivesNoParam, hrun, hn]
  cases hd : t.named? g with
  | none => simpa [Expansion.instantiate, hd] using hinvalid
  | some d =>
    cases hd' : t.named? (d.origin.getD g) with
    | none => simpa [Expansion.instantiate, hd, hd'] using hinvalid
    | some d' =>
      have horigin : (t.get (d.origin.getD g)).isTypeParam = false := by
        rw [Expansion.named?_eq_some hd']
        rfl
      by_cases hparams : d'.typeParams = []
      · simpa [Expansion.instantiate, hd, hd', hparams] using horigin
      by_cases hlength : args.length = d'.typeParams.length
      · by_cases hown : args = d'.typeParams
        · simpa [Expansion.instantiate, hd, hd', hparams, hown] using horigin
        · obtain ⟨inst, hget, -⟩ := isInstance_instantiate hd hd' hparams hlength hown hdeferring
          rw [hrun, hn] at hget
          rw [hget]
          rfl
      · simpa [Expansion.instantiate, hd, hd', hparams, hlength] using hinvalid

end Build

end UnusedMethods.Types

namespace UnusedMethods.Typing

open Syntax UnusedMethods.Types Checking

variable {plan : Plan} {base : Table} {c : Context} {n : Notes} {t : Table}

/-! ## Names that denote old types -/

/-- A local name denotes the type. -/
def Notes.HasLocal (n : Notes) (id : TypeId) : Prop := ∃ s ∈ n.locals, ∃ name, s.find? name = some (.typeName id)

theorem hasLocal_congr {n' : Notes} (h : n'.scopes = n.scopes) {id : TypeId} : n'.HasLocal id ↔ n.HasLocal id := by
  rw [Notes.HasLocal, (Prod.mk.inj h).2, Notes.HasLocal]

/-- Outside of local scopes, names denote only what an earlier table has. -/
structure DenotesOld (base : Table) (c : Context) (s : Scope) : Prop where
  wf : base.WF
  context : c.WF base
  scope : s.WF base

namespace DenotesOld

theorem typeNamed? (h : DenotesOld base c n.scope) {name : String} {id : TypeId}
    (hid : ((Checking.typeNamed? name).eval c n t).1.1 = some id) : base.HasType id ∨ n.HasLocal id := by
  unfold Checking.typeNamed? at hid
  rw [Checking.eval_bind] at hid
  split at hid
  · rename_i id' hobj
    cases hid
    have heval : (Checking.lookup name).eval c n t =
        (((n.locals ++ [c.file.scope, n.scope, .predeclared]).findSome? (·.find? name), n), t) := rfl
    rw [heval] at hobj
    obtain ⟨s, hs, hfind⟩ := List.exists_of_findSome?_eq_some hobj
    simp only [List.mem_append, List.mem_cons, List.not_mem_nil, or_false] at hs
    rcases hs with hs | rfl | rfl | rfl
    · exact .inr ⟨s, hs, name, hfind⟩
    · exact .inl (h.context.file.find? hfind)
    · exact .inl (h.scope.find? hfind)
    · exact .inl ((Scope.WF.predeclared h.wf).find? hfind)
  · cases hid

theorem qualifiedType? (h : DenotesOld base c n.scope) {package name : String} {id : TypeId}
    (hid : ((Checking.qualifiedType? package name).eval c n t).1.1 = some id) : base.HasType id := by
  unfold Checking.qualifiedType? Checking.qualified at hid
  rw [Checking.eval_bind, Checking.eval_bind] at hid
  split at hid
  · rename_i id' hobj
    cases hid
    split at hobj
    · obtain ⟨p, hp, hfind⟩ := Option.bind_eq_some_iff.1 hobj
      exact (h.context.packages _ p hp).find? hfind
    · cases hobj
  · cases hid

theorem resolveType (h : DenotesOld base c n.scope) (hready : Ready plan c n t) (hsteady : plan.steady)
    (hdeferring : t.deferring = true) (e : TypeExpr) (hnames : ∀ x ∈ e.funcNames, plan.declares c.file.index x)
    (hparam : (((resolveType e).eval c n t).2.get ((resolveType e).eval c n t).1.1).isTypeParam = true) :
    base.HasType ((resolveType e).eval c n t).1.1 ∨ n.HasLocal ((resolveType e).eval c n t).1.1 := by
  have hold : ∀ o : Option TypeId, (∀ id, o = some id → base.HasType id ∨ n.HasLocal id) →
      base.HasType (o.getD .invalid) ∨ n.HasLocal (o.getD .invalid) := by
    intro o ho
    cases o with
    | none => exact .inl h.wf.hasType_invalid
    | some id => exact ho id rfl
  -- what is built is no type parameter
  have hbuild : ∀ (t' : Table) (x : Build TypeId), Build.GivesNoParam t' x →
      ((x.run t').2.get (x.run t').1).isTypeParam = true → base.HasType (x.run t').1 ∨ n.HasLocal (x.run t').1 := by
    intro t' x hx hparam
    rw [hx] at hparam
    cases hparam
  cases e with
  | name id => exact hold _ fun id hid => h.typeNamed? hid
  | qualified package name => exact hold _ fun id hid => .inl (h.qualifiedType? hid)
  | generic b args =>
    obtain ⟨hb, hargs⟩ := List.forall_mem_append.1 hnames
    obtain ⟨hready₁, hstep₁, -, -⟩ := hready.step (sound_resolveType b hb)
    obtain ⟨hready₂, hstep₂, -, -⟩ := hready₁.step (sound_resolveTypes args hargs)
    have hdeferring₂ := (hstep₂.steady hsteady).trans ((hstep₁.steady hsteady).trans hdeferring)
    rw [Typing.resolveType, eval_bind, eval_bind] at hparam ⊢
    split
    · exact .inl h.wf.hasType_invalid
    · rename_i hvalid
      rw [if_neg hvalid] at hparam
      exact hbuild _ _ (Build.givesNoParam_instantiate hready₂.wf hdeferring₂ _ _) hparam
  | pointer elem => exact hbuild _ _ (Build.givesNoParam_pointer _ _) hparam
  | slice elem => exact hbuild _ _ (Build.givesNoParam_slice _ _) hparam
  | array len elem => exact hbuild _ _ (Build.givesNoParam_push rfl _) hparam
  | map key value => exact hbuild _ _ (Build.givesNoParam_push rfl _) hparam
  | chan dir elem => exact hbuild _ _ (Build.givesNoParam_push rfl _) hparam
  | func sig =>
    obtain ⟨params, results, variadic⟩ := sig
    exact hbuild _ _ (Build.givesNoParam_push rfl _) hparam
  | interface methods embeds =>
    obtain ⟨hmethods, hembeds⟩ := List.forall_mem_append.1 hnames
    obtain ⟨hready₁, hstep₁, -, -⟩ := hready.step (sound_resolveMethods methods hmethods)
    obtain ⟨-, hstep₂, -, -⟩ := hready₁.step (sound_resolveTypes embeds hembeds)
    have hdeferring₂ := (hstep₂.steady hsteady).trans ((hstep₁.steady hsteady).trans hdeferring)
    exact hbuild _ _ (Build.givesNoParam_interface hdeferring₂ _ _) hparam
  | struct fields => exact hbuild _ _ (Build.givesNoParam_push rfl _) hparam
  | union terms => exact hbuild _ _ (Build.givesNoParam_push rfl _) hparam
  | tilde elem => exact hbuild _ _ (Build.givesNoParam_push rfl _) hparam
  | bad => exact .inl h.wf.hasType_invalid

theorem resolveTypes (h : DenotesOld base c n.scope) (hready : Ready plan c n t) (hsteady : plan.steady)
    (hdeferring : t.deferring = true) (es : List TypeExpr)
    (hnames : ∀ x ∈ TypeExpr.funcNamesAll es, plan.declares c.file.index x) :
    ((resolveTypes es).eval c n t).1.1.length = es.length ∧
      ∀ id ∈ ((resolveTypes es).eval c n t).1.1, (((resolveTypes es).eval c n t).2.get id).isTypeParam = true →
        base.HasType id ∨ n.HasLocal id := by
  induction es generalizing n t with
  | nil => exact ⟨rfl, nofun⟩
  | cons e es ih =>
    obtain ⟨he, hes⟩ := List.forall_mem_append.1 hnames
    obtain ⟨hready₁, hstep₁, -, hid₁⟩ := hready.step (sound_resolveType e he)
    obtain ⟨-, hstep₂, -, -⟩ := hready₁.step (sound_resolveTypes es hes)
    have hscopes := (quiet_resolveType (P := fun _ => True) e fun _ _ => trivial).scopes c n t
    obtain ⟨hlength, hrest⟩ := ih ((Prod.mk.inj hscopes).1 ▸ h) hready₁ ((hstep₁.steady hsteady).trans hdeferring) hes
    rw [Typing.resolveTypes, eval_bind, eval_bind, eval_pure]
    refine ⟨congrArg (· + 1) hlength, fun id hid hparam => ?_⟩
    rcases List.mem_cons.1 hid with rfl | hid
    · rw [hstep₂.grows.isTypeParam_get hid₁] at hparam
      exact h.resolveType hready hsteady hdeferring e he hparam
    · exact (hrest id hid hparam).imp_right (hasLocal_congr hscopes).1

end DenotesOld

/-! ## Instances that are asked for -/

/-- A type name denotes a declared type where nothing hides it. -/
theorem eval_typeNamed? {name : String} {id : TypeId} (hlocals : ∀ s ∈ n.locals, s.find? name = none)
    (hfile : c.file.scope.find? name = none) (hscope : n.scope.find? name = some (.typeName id)) :
    (Checking.typeNamed? name).eval c n t = ((some id, n), t) := by
  have hlookup : (Checking.lookup name).eval c n t = ((some (.typeName id), n), t) := by
    have heval : (Checking.lookup name).eval c n t =
        (((n.locals ++ [c.file.scope, n.scope, .predeclared]).findSome? (·.find? name), n), t) := rfl
    rw [heval, List.findSome?_append, List.findSome?_eq_none_iff.2 hlocals, Option.none_or, List.findSome?_cons, hfile,
      List.findSome?_cons, hscope]
  unfold Checking.typeNamed?
  rw [eval_bind, hlookup, eval_pure]

theorem eval_resolveType_generic {g : Ident} {id : TypeId} (hg : (Checking.typeNamed? g.name).eval c n t = ((some id, n), t))
    (hvalid : id ≠ .invalid) (args : List TypeExpr) {ids : List TypeId} {n' : Notes} {t' : Table}
    (hargs : (resolveTypes args).eval c n t = ((ids, n'), t')) :
    (resolveType (.generic (.name g) args)).eval c n t =
      ((((Build.instantiate id ids).run t').1, n'), ((Build.instantiate id ids).run t').2) := by
  have hname : (resolveType (.name g)).eval c n t = ((id, n), t) := by
    rw [resolveType, eval_bind, hg, eval_pure, Option.getD_some]
  rw [resolveType, eval_bind, hname, eval_bind, hargs, if_neg hvalid]
  rfl

theorem ne_invalid_of_definition? (hwf : t.WF) {id rhs : TypeId} {params : List TypeId}
    (h : t.definition? id = some (rhs, params)) : id ≠ .invalid := by
  rintro rfl
  obtain ⟨d, hget, -⟩ := Table.named_of_definition? h
  obtain ⟨ty, hty, hbecomes⟩ := hwf.base.types _ _ Table.WF.predeclared.hasType_invalid.getElem?
  rw [Table.get_eq_of_getElem? hty] at hget
  rw [hget] at hbecomes
  cases hbecomes

section Use

variable {g : Ident} {id rhs : TypeId} {params : List TypeId} {args : List TypeExpr}

theorem resolveType_of_undeclared (hready : Ready plan c n t) (hsettled : plan.settled id)
    (hg : (Checking.typeNamed? g.name).eval c n t = ((some id, n), t)) (hdef : t.definition? id = some (rhs, []))
    (hnames : ∀ x ∈ TypeExpr.funcNamesAll args, plan.declares c.file.index x) :
    ((resolveType (.generic (.name g) args)).eval c n t).1.1 = id := by
  obtain ⟨-, hstep, -, -⟩ := hready.step (sound_resolveTypes args hnames)
  rw [eval_resolveType_generic hg (ne_invalid_of_definition? hready.wf hdef) args rfl]
  exact congrArg Prod.fst (Build.run_instantiate_of_nil ((hstep.settled id hsettled).trans hdef) _)

/-- A generic type whose parameters have been declared has an instance for every list of arguments of the right length in
which no name denotes one of these parameters. -/
theorem resolveType_of_declared (hold : DenotesOld base c n.scope) (hready : Ready plan c n t) (hsteady : plan.steady)
    (hdeferring : t.deferring = true) (hsettled : plan.settled id)
    (hg : (Checking.typeNamed? g.name).eval c n t = ((some id, n), t)) (hdef : t.definition? id = some (rhs, params))
    (hnames : ∀ x ∈ TypeExpr.funcNamesAll args, plan.declares c.file.index x) (hlength : args.length = params.length)
    (hne : params ≠ [])
    (hparams : ∀ p ∈ params, t.HasType p ∧ (t.get p).isTypeParam = true ∧ ¬ base.HasType p ∧ ¬ n.HasLocal p) :
    ((resolveType (.generic (.name g) args)).eval c n t).2.IsInstance
      ((resolveType (.generic (.name g) args)).eval c n t).1.1 id := by
  obtain ⟨-, hstep, -, -⟩ := hready.step (sound_resolveTypes args hnames)
  obtain ⟨hlength', hids⟩ := hold.resolveTypes hready hsteady hdeferring args hnames
  obtain ⟨d, hget, horigin, -, rfl⟩ := Table.named_of_definition? ((hstep.settled id hsettled).trans hdef)
  have hd := Table.named?_of_get hget
  have hself : d.origin.getD id = id := by rw [horigin, Option.getD_none]
  -- the first argument cannot be the first parameter
  have hother : ((resolveTypes args).eval c n t).1.1 ≠ d.typeParams := by
    intro heq
    obtain ⟨p, hp⟩ := List.exists_mem_of_ne_nil _ hne
    obtain ⟨hhas, hparam, hnew, hlocal⟩ := hparams p hp
    have hparam' := (hstep.grows.isTypeParam_get hhas).trans hparam
    rcases hids p (heq ▸ hp) hparam' with h | h
    · exact hnew h
    · exact hlocal h
  have hinst := Build.isInstance_instantiate hd (hself.symm ▸ hd) hne (hlength'.trans hlength) hother
    ((hstep.steady hsteady).trans hdeferring)
  rw [eval_resolveType_generic hg (ne_invalid_of_definition? hready.wf hdef) args rfl]
  rwa [hself] at hinst

end Use

end UnusedMethods.Typing
