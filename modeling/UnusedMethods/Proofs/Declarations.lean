import UnusedMethods.Proofs.Packages

/-!
# Entering declarations

What `enterAll` does to the table and to the notes, in closed form: the types and functions of the declarations are added
to the table in the order of the declarations, and the names are let denote them. It follows that the order between
declarations of different kinds does not matter, neither for what is entered nor for any later phase.
-/

namespace UnusedMethods.Typing

open Syntax UnusedMethods.Types

variable {α : Type} {ds : List (CurrentFile × Declaration)}

/-! ## One declaration -/

/-- Kinds of declarations. -/
inductive DeclarationKind where
  | alias
  | type
  | func
  | method
  | var
  | const
deriving DecidableEq

/-- A declared type of which only the name is known. -/
def declaredType (path : String) (spec : TypeSpec) : Named where
  name := spec.name.name
  package := some path
  rhs := .invalid
  methods := []
  typeParams := []
  origin := none
  typeArgs := []
  expanded := true

/-- A declared function of which only the name is known. -/
def declaredFunc (path : String) (file : Nat) (f : FuncDecl) : Func :=
  { Func.ofName f.name.name .func with package := some path, pos := some ⟨file, f.name.pos⟩ }

namespace Declaration

/-- The kind of a declaration. -/
def kind : Declaration → DeclarationKind
  | .alias _ => .alias
  | .type _ => .type
  | .func _ => .func
  | .method _ _ => .method
  | .var _ => .var
  | .consts _ => .const

/-- What is added to the types for a declaration. -/
def newTypes (path : String) : Declaration → List Ty
  | .type spec => [.named (declaredType path spec)]
  | _ => []

/-- What is added to the functions for a declaration. -/
def newFuncs (path : String) (file : Nat) : Declaration → List Func
  | .func f => [declaredFunc path file f]
  | _ => []

/-- What is entered for a declaration, when the next type and the next function get these numbers. -/
def entry (type func : Nat) : Declaration → Entry
  | .alias spec => .alias spec
  | .type spec => .type spec ⟨type⟩
  | .func f => .func f ⟨func⟩
  | .method f recv => .method f recv
  | .var spec => .var spec
  | .consts specs => .consts specs

theorem newTypes_of_kind_ne {d : Declaration} (h : d.kind ≠ .type) (path : String) : d.newTypes path = [] := by
  cases d with
  | type spec => exact absurd rfl h
  | _ => rfl

theorem newFuncs_of_kind_ne {d : Declaration} (h : d.kind ≠ .func) (path : String) (file : Nat) :
    d.newFuncs path file = [] := by
  cases d with
  | func f => exact absurd rfl h
  | _ => rfl

theorem declaration_entry (type func : Nat) (d : Declaration) : (d.entry type func).declaration = d := by
  cases d <;> rfl

end Declaration

/-- What the names of a declaration denote as soon as it has been entered. -/
def Entry.object : Entry → Object
  | .type _ id => .typeName id
  | .func _ id => .func id
  | .var _ => .var .invalid
  | _ => .const .invalid

/-- The names that an entry brings at once, with what they denote. -/
def Entry.bindings (e : Entry) : List (String × Object) :=
  match e with
  | .alias _ => []
  | _ => e.declaration.names.map (·, e.object)

/-- Lets names denote objects, one after the other. -/
def Scope.define (s : Scope) (bindings : List (String × Object)) : Scope :=
  bindings.foldl (fun s b => s.insert b.1 b.2) s

/-- The notes with more package-level names, and with the same facts about files. -/
structure Notes.Defines (n : Notes) (bindings : List (String × Object)) (n' : Notes) : Prop where
  scope : n'.scope = n.scope.define bindings
  locals : n'.locals = n.locals
  infos : n'.infos.map FileInfo.facts = n.infos.map FileInfo.facts

theorem Notes.Defines.refl (n : Notes) : n.Defines [] n := ⟨rfl, rfl, rfl⟩

theorem Notes.Defines.trans {n₁ n₂ n₃ : Notes} {bs₁ bs₂ : List (String × Object)} (h₁ : n₁.Defines bs₁ n₂)
    (h₂ : n₂.Defines bs₂ n₃) : n₁.Defines (bs₁ ++ bs₂) n₃ where
  scope := by
    rw [h₂.scope, h₁.scope]
    exact (List.foldl_append ..).symm
  locals := h₂.locals.trans h₁.locals
  infos := h₂.infos.trans h₁.infos

/-- A record of a declared name is not among the facts about files. -/
theorem map_facts_noteDef (infos : Array FileInfo) (i : Nat) (pos : Pos) (obj : Object) :
    (infos.modify i fun info => { info with defs := (pos, obj) :: info.defs.filter fun d => d.1 != pos }).map
      FileInfo.facts = infos.map FileInfo.facts := by
  ext j : 1
  · simp
  · simp only [Array.getElem_map, Array.getElem_modify]
    split <;> rfl

theorem eval_forM_cons (a : α) (as : List α) (f : α → Checking Unit) (c : Context) (n : Notes) (t : Table) :
    ((a :: as).forM f).eval c n t = (as.forM f).eval c ((f a).eval c n t).1.2 ((f a).eval c n t).2 := rfl

theorem eval_enterIdents (obj : Object) (idents : List Ident) (c : Context) (n : Notes) (t : Table) :
    Checking.eval (idents.forM fun name => do
      if !name.isBlank then
        Checking.definePackageLevel name.name obj) c n t =
      (((), { n with scope := n.scope.define ((namesOf idents).map (·, obj)) }), t) := by
  induction idents generalizing n with
  | nil => rfl
  | cons x idents ih =>
    rw [eval_forM_cons]
    cases hblank : x.isBlank with
    | true => 
      have hnames : namesOf (x :: idents) = namesOf idents := by simp [namesOf, hblank]
      rw [hnames]
      exact ih n
    | false =>
      have hnames : namesOf (x :: idents) = x.name :: namesOf idents := by simp [namesOf, hblank]
      rw [hnames]
      exact ih { n with scope := n.scope.insert x.name obj }

theorem eval_enterNames (obj : Object) (spec : ValueSpec) (c : Context) (n : Notes) (t : Table) :
    (enterNames obj spec).eval c n t =
      (((), { n with scope := n.scope.define ((namesOf spec.names).map (·, obj)) }), t) :=
  eval_enterIdents obj spec.names c n t

theorem eval_enterNames_all (obj : Object) (specs : List ValueSpec) (c : Context) (n : Notes) (t : Table) :
    (specs.forM (enterNames obj) : Checking Unit).eval c n t =
      (((), { n with scope := n.scope.define ((namesOf (specs.flatMap (·.names))).map (·, obj)) }), t) := by
  induction specs generalizing n with
  | nil => rfl
  | cons spec specs ih =>
    rw [eval_forM_cons, eval_enterNames, ih]
    simp [namesOf, Scope.define]

theorem eval_declare (x : Ident) (obj : Object) (c : Context) (n : Notes) (t : Table) :
    ∃ n', (Checking.declare .package x obj).eval c n t = (((), n'), t) ∧ n.Defines ((namesOf [x]).map (·, obj)) n' := by
  unfold Checking.declare
  cases hblank : x.isBlank with
  | true =>
    have hnames : namesOf [x] = [] := by simp [namesOf, hblank]
    rw [hnames]
    exact ⟨n, rfl, .refl n⟩
  | false =>
    have hnames : namesOf [x] = [x.name] := by simp [namesOf, hblank]
    rw [hnames]
    exact ⟨_, rfl, rfl, rfl, map_facts_noteDef ..⟩

theorem eval_enterFunc (f : FuncDecl) (c : Context) (n : Notes) (t : Table) :
    ∃ n', (enterFunc f).eval c n t =
        ((⟨t.funcs.size⟩, n'), { t with funcs := t.funcs.push (declaredFunc c.path c.file.id f) }) ∧
      n.Defines ((Declaration.func f).names.map (·, .func ⟨t.funcs.size⟩)) n' := by
  unfold enterFunc
  by_cases hname : (f.name.name != "init" && !f.name.isBlank) = true
  · have hnames : (Declaration.func f).names = [f.name.name] := by simp_all [Declaration.names, namesOf]
    rw [hnames]
    simp only [if_pos hname]
    exact ⟨_, rfl, rfl, rfl, map_facts_noteDef ..⟩
  · have hnames : (Declaration.func f).names = [] := by simp_all [Declaration.names, namesOf]
    rw [hnames]
    simp only [if_neg hname]
    exact ⟨_, rfl, rfl, rfl, map_facts_noteDef ..⟩

theorem eval_enter (d : Declaration) (c : Context) (n : Notes) (t : Table) :
    ∃ n', (enter d).eval c n t = ((d.entry t.types.size t.funcs.size, n'),
        { t with types := t.types ++ (d.newTypes c.path).toArray, funcs := t.funcs ++ (d.newFuncs c.path c.file.id).toArray }) ∧
      n.Defines (d.entry t.types.size t.funcs.size).bindings n' := by
  cases d with
  | «alias» spec => exact ⟨n, rfl, .refl n⟩
  | type spec =>
    obtain ⟨n', heval, hdefines⟩ := eval_declare spec.name (.typeName ⟨t.types.size⟩) c n
      { t with types := t.types.push (.named (declaredType c.path spec)) }
    have henter : (enter (.type spec)).eval c n t = Checking.eval (do
        Checking.declare .package spec.name (.typeName ⟨t.types.size⟩)
        return Entry.type spec ⟨t.types.size⟩) c n { t with types := t.types.push (.named (declaredType c.path spec)) } :=
      rfl
    refine ⟨n', ?_, hdefines⟩
    rw [henter, Checking.eval_bind, heval]
    simp [Checking.eval_pure, Declaration.entry, Declaration.newTypes, Declaration.newFuncs]
  | func f =>
    obtain ⟨n', heval, hdefines⟩ := eval_enterFunc f c n t
    refine ⟨n', ?_, hdefines⟩
    unfold enter
    rw [Checking.eval_bind, heval]
    simp [Checking.eval_pure, Declaration.entry, Declaration.newTypes, Declaration.newFuncs]
  | method f recv => exact ⟨n, rfl, .refl n⟩
  | var spec =>
    refine ⟨{ n with scope := n.scope.define ((namesOf spec.names).map (·, .var .invalid)) }, ?_, rfl, rfl, rfl⟩
    unfold enter
    rw [Checking.eval_bind, eval_enterNames]
    simp [Checking.eval_pure, Declaration.entry, Declaration.newTypes, Declaration.newFuncs]
  | consts specs =>
    refine ⟨{ n with scope := n.scope.define ((namesOf (specs.flatMap (·.names))).map (·, .const .invalid)) }, ?_,
      rfl, rfl, rfl⟩
    unfold enter
    rw [Checking.eval_bind, eval_enterNames_all]
    simp [Checking.eval_pure, Declaration.entry, Declaration.newTypes, Declaration.newFuncs]

/-! ## All declarations -/

/-- What is entered for declarations, when the next type and the next function get these numbers. -/
def entriesFrom (path : String) (type func : Nat) : List (CurrentFile × Declaration) → List (CurrentFile × Entry)
  | [] => []
  | (file, d) :: ds =>
    (file, d.entry type func) ::
      entriesFrom path (type + (d.newTypes path).length) (func + (d.newFuncs path file.id).length) ds

/-- What is added to the types for declarations. -/
def newTypesOf (path : String) (ds : List (CurrentFile × Declaration)) : List Ty := ds.flatMap (·.2.newTypes path)

/-- What is added to the functions for declarations. -/
def newFuncsOf (path : String) (ds : List (CurrentFile × Declaration)) : List Func :=
  ds.flatMap fun p => p.2.newFuncs path p.1.id

/-- The names that entries bring at once. -/
def bindingsOf (entries : List (CurrentFile × Entry)) : List (String × Object) := entries.flatMap (·.2.bindings)

theorem eval_enterAll (ds : List (CurrentFile × Declaration)) (c : Context) (n : Notes) (t : Table) :
    ∃ n', (enterAll ds).eval c n t = ((entriesFrom c.path t.types.size t.funcs.size ds, n'),
        { t with types := t.types ++ (newTypesOf c.path ds).toArray, funcs := t.funcs ++ (newFuncsOf c.path ds).toArray }) ∧
      n.Defines (bindingsOf (entriesFrom c.path t.types.size t.funcs.size ds)) n' := by
  induction ds generalizing n t with
  | nil => exact ⟨n, rfl, .refl n⟩
  | cons p ds ih =>
    obtain ⟨file, d⟩ := p
    obtain ⟨n₁, hd, hdefines₁⟩ := eval_enter d { c with file } n t
    obtain ⟨n₂, hds, hdefines₂⟩ := ih n₁ { t with
      types := t.types ++ (d.newTypes c.path).toArray, funcs := t.funcs ++ (d.newFuncs c.path file.id).toArray }
    have hcons : (enterAll ((file, d) :: ds)).eval c n t = Checking.eval (do
        let e ← Checking.inFile file (enter d)
        let es ← enterAll ds
        return (file, e) :: es) c n t := by
      unfold enterAll
      rw [List.mapM_cons]
      rfl
    have hfile : (Checking.inFile file (enter d)).eval c n t = (enter d).eval { c with file } n t := rfl
    have htypes : (t.types ++ (d.newTypes c.path).toArray).size = t.types.size + (d.newTypes c.path).length := by simp
    have hfuncs : (t.funcs ++ (d.newFuncs c.path file.id).toArray).size = t.funcs.size + (d.newFuncs c.path file.id).length := by
      simp
    dsimp only at hds hdefines₂
    rw [htypes, hfuncs] at hds hdefines₂
    refine ⟨n₂, ?_, hdefines₁.trans hdefines₂⟩
    rw [hcons, Checking.eval_bind, hfile, hd, Checking.eval_bind, hds]
    simp [Checking.eval_pure, entriesFrom, newTypesOf, newFuncsOf]

theorem getElem?_newTypesOf {path : String} {type func : Nat} {file : CurrentFile} {spec : TypeSpec} {id : TypeId}
    (h : (file, .type spec id) ∈ entriesFrom path type func ds) :
    ∃ i, id.index = type + i ∧ (newTypesOf path ds)[i]? = some (.named (declaredType path spec)) := by
  induction ds generalizing type func with
  | nil => cases h
  | cons p ds ih =>
    obtain ⟨file', d⟩ := p
    rcases List.mem_cons.1 h with heq | h
    · cases d with
      | type spec' =>
        cases heq
        exact ⟨0, rfl, rfl⟩
      | _ => cases heq
    · obtain ⟨i, hid, hget⟩ := ih h
      have hcons : newTypesOf path ((file', d) :: ds) = d.newTypes path ++ newTypesOf path ds := rfl
      refine ⟨(d.newTypes path).length + i, by omega, ?_⟩
      rw [hcons, List.getElem?_append_right (by omega), Nat.add_sub_cancel_left, hget]

theorem get_enterAll {c : Context} {n : Notes} {t : Table} {file : CurrentFile} {spec : TypeSpec} {id : TypeId}
    (h : (file, .type spec id) ∈ ((enterAll ds).eval c n t).1.1) :
    ((enterAll ds).eval c n t).2.get id = .named (declaredType c.path spec) := by
  obtain ⟨n', heval, -⟩ := eval_enterAll ds c n t
  rw [heval] at h ⊢
  obtain ⟨i, hid, hget⟩ := getElem?_newTypesOf h
  rw [Table.get, hid, Array.getElem?_append_right (by omega)]
  simp [hget]

/-! ## Names -/

/-- The package-level names that declarations declare. -/
def namesIn (ds : List (CurrentFile × Declaration)) : List String := ds.flatMap (·.2.names)

theorem names_bindings (e : Entry) : (e.bindings.map (·.1)).Sublist e.declaration.names := by
  unfold Entry.bindings
  split
  · exact List.nil_sublist _
  · simp [Function.comp_def]

theorem names_bindingsOf (path : String) (type func : Nat) (ds : List (CurrentFile × Declaration)) :
    ((bindingsOf (entriesFrom path type func ds)).map (·.1)).Sublist (namesIn ds) := by
  induction ds generalizing type func with
  | nil => exact List.nil_sublist _
  | cons p ds ih =>
    have hd := names_bindings (p.2.entry type func)
    rw [Declaration.declaration_entry] at hd
    simp only [bindingsOf, entriesFrom, namesIn, List.flatMap_cons, List.map_append]
    exact hd.append (ih ..)

/-- What names denote after names that are all different have been defined. -/
theorem find?_define (bs : List (String × Object)) (hnodup : (bs.map (·.1)).Nodup) (s : Scope) (name : String)
    (obj : Object) :
    (s.define bs).find? name = some obj ↔
      (name, obj) ∈ bs ∨ name ∉ bs.map (·.1) ∧ s.find? name = some obj := by
  induction bs generalizing s with
  | nil => simp [Scope.define]
  | cons b bs ih =>
    obtain ⟨hb, hbs⟩ := List.nodup_cons.1 hnodup
    have hdefine : s.define (b :: bs) = (s.insert b.1 b.2).define bs := rfl
    rw [hdefine, ih hbs, Checking.Sound.find?_insert]
    by_cases hname : name = b.1
    · subst hname
      have hnot : (b.1, obj) ∉ bs := fun h => hb (List.mem_map.2 ⟨_, h, rfl⟩)
      simp [hnot, hb, Prod.ext_iff, eq_comm]
    · simp [hname, Prod.ext_iff]

/-! ## One kind after the other -/

/-- The declarations of a kind, in their order. -/
def declarationsOfKind (k : DeclarationKind) (ds : List (CurrentFile × Declaration)) : List (CurrentFile × Declaration) :=
  ds.filter fun p => p.2.kind = k

/-- The entries for declarations of a kind, in their order. -/
def entriesOfKind (k : DeclarationKind) (es : List (CurrentFile × Entry)) : List (CurrentFile × Entry) :=
  es.filter fun p => p.2.declaration.kind = k

/-- Where no type is declared, the number of the next type does not matter; likewise for functions. -/
theorem entriesFrom_congr (path : String) {type type' func func' : Nat} (htype : type = type' ∨ ∀ p ∈ ds, p.2.kind ≠ .type)
    (hfunc : func = func' ∨ ∀ p ∈ ds, p.2.kind ≠ .func) :
    entriesFrom path type func ds = entriesFrom path type' func' ds := by
  induction ds generalizing type type' func func' with
  | nil => rfl
  | cons p ds ih =>
    obtain ⟨file, d⟩ := p
    have hentry : d.entry type func = d.entry type' func' := by
      cases d with
      | type spec => simp_all [Declaration.entry, Declaration.kind]
      | func f => simp_all [Declaration.entry, Declaration.kind]
      | _ => rfl
    rw [entriesFrom, entriesFrom, hentry]
    congr 1
    refine ih (htype.imp (fun h => by rw [h]) fun h p hp => h p ?_) (hfunc.imp (fun h => by rw [h]) fun h p hp => h p ?_)
    · exact List.mem_cons_of_mem _ hp
    · exact List.mem_cons_of_mem _ hp

theorem entriesOfKind_entriesFrom (k : DeclarationKind) (path : String) (type func : Nat)
    (ds : List (CurrentFile × Declaration)) :
    entriesOfKind k (entriesFrom path type func ds) = entriesFrom path type func (declarationsOfKind k ds) := by
  induction ds generalizing type func with
  | nil => rfl
  | cons p ds ih =>
    obtain ⟨file, d⟩ := p
    have hkinds : ∀ k', k ≠ k' → ∀ p ∈ declarationsOfKind k ds, p.2.kind ≠ k' := by
      intro k' hk' p hp
      have hp : p.2.kind = k := by simpa using (List.mem_filter.1 hp).2
      rwa [hp]
    unfold entriesOfKind declarationsOfKind at ih ⊢
    rw [entriesFrom, List.filter_cons, List.filter_cons, Declaration.declaration_entry]
    by_cases hkind : d.kind = k
    · simp only [hkind, decide_true, if_true, entriesFrom, ih]
    · simp only [hkind, decide_false, Bool.false_eq_true, if_false, ih]
      -- what is left out has no part in the numbers of this kind
      apply entriesFrom_congr
      · by_cases htype : d.kind = .type
        · exact .inr (hkinds _ fun h => hkind (htype.trans h.symm))
        · exact .inl (by rw [Declaration.newTypes_of_kind_ne htype]; rfl)
      · by_cases hfunc : d.kind = .func
        · exact .inr (hkinds _ fun h => hkind (hfunc.trans h.symm))
        · exact .inl (by rw [Declaration.newFuncs_of_kind_ne hfunc]; rfl)

theorem flatMap_filter_of_nil {β : Type} {p : α → Bool} {f : α → List β} (hf : ∀ a, p a = false → f a = []) (as : List α) :
    (as.filter p).flatMap f = as.flatMap f := by
  induction as with
  | nil => rfl
  | cons a as ih =>
    rw [List.filter_cons, List.flatMap_cons]
    cases hp : p a with
    | true => simp [ih]
    | false => simp [ih, hf a hp]

theorem newTypesOf_ofKind (path : String) (ds : List (CurrentFile × Declaration)) :
    newTypesOf path (declarationsOfKind .type ds) = newTypesOf path ds :=
  flatMap_filter_of_nil (fun p hp => Declaration.newTypes_of_kind_ne (by simpa using hp) path) ds

theorem newFuncsOf_ofKind (path : String) (ds : List (CurrentFile × Declaration)) :
    newFuncsOf path (declarationsOfKind .func ds) = newFuncsOf path ds :=
  flatMap_filter_of_nil (fun p hp => Declaration.newFuncs_of_kind_ne (by simpa using hp) path p.1.id) ds

/-! ## The phases -/

/-- A phase that does nothing with entries of other kinds goes through those of its kind. -/
theorem forEach_ofKind (k : DeclarationKind) {f : Entry → Checking Unit}
    (hf : ∀ e, e.declaration.kind ≠ k → f e = pure ()) (es : List (CurrentFile × Entry)) :
    Checking.forEach es f = Checking.forEach (entriesOfKind k es) f := by
  induction es with
  | nil => rfl
  | cons p es ih =>
    have hcons : ∀ q qs, Checking.forEach (q :: qs) f = Checking.inFile q.1 (f q.2) >>= fun _ => Checking.forEach qs f :=
      fun _ _ => rfl
    unfold entriesOfKind at ih ⊢
    rw [List.filter_cons, hcons, ih]
    by_cases hkind : p.2.declaration.kind = k
    · rw [if_pos (by simpa using hkind), hcons]
    · rw [if_neg (by simpa using hkind), hf p.2 hkind]
      rfl

/-- Steps that give nothing may be left out when all that is given is put together. -/
theorem mapM_flatten_filter {β : Type} {p : α → Bool} {f : α → Checking (List β)} (hf : ∀ a, p a = false → f a = pure [])
    (as : List α) :
    (do return (← as.mapM f).flatten) = (do return (← (as.filter p).mapM f).flatten : Checking (List β)) := by
  induction as with
  | nil => rfl
  | cons a as ih =>
    have hcons : ∀ as', (do return (← (a :: as').mapM f).flatten : Checking (List β)) = (do
        let here ← f a
        let rest ← (do return (← as'.mapM f).flatten)
        return here ++ rest) := by
      intro as'
      simp only [List.mapM_cons, bind_assoc, pure_bind, List.flatten_cons]
    rw [hcons, ih, List.filter_cons]
    cases hp : p a with
    | true => rw [if_pos rfl, hcons]
    | false => simp [hf a hp]

theorem attachMethods_ofKind (es : List (CurrentFile × Entry)) :
    attachMethods es = attachMethods (entriesOfKind .method es) := by
  refine mapM_flatten_filter (fun p hp => ?_) es
  obtain ⟨file, e⟩ := p
  cases e with
  | method f recv => simp [Entry.declaration, Declaration.kind] at hp
  | _ => rfl

theorem declaredTypes_ofKind (es : List (CurrentFile × Entry)) :
    declaredTypes es = declaredTypes (entriesOfKind .type es) := by
  unfold declaredTypes entriesOfKind
  rw [List.filterMap_filter]
  congr 1
  funext p
  obtain ⟨file, e⟩ := p
  cases e <;> rfl

theorem checkEntries_congr {es es' : List (CurrentFile × Entry)} (h : ∀ k, entriesOfKind k es = entriesOfKind k es') :
    checkEntries es = checkEntries es' := by
  have hphase : ∀ (k : DeclarationKind) (f : Entry → Checking Unit), (∀ e, e.declaration.kind ≠ k → f e = pure ()) →
      Checking.forEach es f = Checking.forEach es' f := by
    intro k f hf
    rw [forEach_ofKind k hf es, forEach_ofKind k hf es', h]
  have hmethods : attachMethods es = attachMethods es' := by
    rw [attachMethods_ofKind, attachMethods_ofKind es', h]
  have htypes : declaredTypes es = declaredTypes es' := by
    rw [declaredTypes_ofKind, declaredTypes_ofKind es', h]
  unfold checkEntries resolveAliases resolveDeclaredTypes checkMembers
  rw [hmethods, htypes, hphase .alias _ ?_, hphase .type _ ?_, hphase .func _ ?_, hphase .const _ ?_, hphase .var _ ?_,
    hphase .var _ ?_, hphase .var _ ?_, hphase .func _ ?_]
  all_goals
    intro e he
    cases e <;> first | rfl | exact absurd rfl he

end UnusedMethods.Typing
