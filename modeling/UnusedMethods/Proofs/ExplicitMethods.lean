import Mathlib.Data.List.Forall2
import UnusedMethods.Proofs.DeclaredPlaces

/-!
# The methods that interfaces declare themselves

A declared type may be written as an interface. When its right side is resolved, a function is entered for each of the
methods that are written there; it goes into the list of explicit methods of the interface, and is on record at the place
of the method's name. All this stays as it is until the check is over. Functions that are entered later have higher numbers,
so no two methods are the same function.
-/

namespace UnusedMethods.Syntax

/-- The methods that are written in an interface. -/
def TypeExpr.ownMethods : TypeExpr → List MethodSpec
  | .interface methods _ => methods
  | _ => []

end UnusedMethods.Syntax

namespace UnusedMethods.Typing

open Syntax UnusedMethods.Types Checking

/-! ## New functions -/

/-- Functions in ascending order that are in one table, and not yet in another. -/
structure NewFuncs (t t' : Table) (fs : List FuncId) : Prop where
  ascending : fs.Pairwise fun f g => f.index < g.index
  between : ∀ f ∈ fs, t.funcs.size ≤ f.index ∧ f.index < t'.funcs.size

namespace NewFuncs

variable {t t₀ t₁ t₂ t₃ : Table} {fs gs : List FuncId}

theorem nil : NewFuncs t t₁ [] := ⟨.nil, by simp⟩

theorem append (hf : NewFuncs t t₁ fs) (hg : NewFuncs t₁ t₂ gs) (h : t.Grows t₁) (h' : t₁.Grows t₂) :
    NewFuncs t t₂ (fs ++ gs) := by
  have hsize := h.funcs_size
  have hsize' := h'.funcs_size
  constructor
  · refine List.pairwise_append.2 ⟨hf.ascending, hg.ascending, fun f hfs g hgs => ?_⟩
    have hlt := (hf.between f hfs).2
    have hle := (hg.between g hgs).1
    omega
  · intro f hmem
    rcases List.mem_append.1 hmem with hfs | hgs
    · have hbetween := hf.between f hfs
      omega
    · have hbetween := hg.between f hgs
      omega

theorem widen (hf : NewFuncs t₁ t₂ fs) (h : t₀.Grows t₁) (h' : t₂.Grows t₃) : NewFuncs t₀ t₃ fs := by
  have hsize := h.funcs_size
  have hsize' := h'.funcs_size
  refine ⟨hf.ascending, fun f hmem => ?_⟩
  have hbetween := hf.between f hmem
  omega

theorem nodup (hf : NewFuncs t t₁ fs) : fs.Nodup :=
  hf.ascending.imp fun hlt heq => by simp [heq] at hlt

end NewFuncs

/-! ## Recorded methods -/

/-- The function is on record for the method, and has its name. The records of a file say what the names at its places
denote. -/
structure RecordedAs (records : Pos → Option Object) (t : Table) (m : MethodSpec) (f : FuncId) : Prop where
  record : records m.name.pos = some (.func f)
  has : t.HasFunc f
  name : (t.func f).name = m.name.name

/-- The functions that are on record for methods. -/
def recordedFuncs (records : Pos → Option Object) (ms : List MethodSpec) : List FuncId :=
  ms.filterMap fun m =>
    match records m.name.pos with
    | some (.func f) => some f
    | _ => none

section Recorded

variable {records records' : Pos → Option Object} {t t' : Table} {ms : List MethodSpec} {fs : List FuncId}

theorem RecordedAs.of_grows {m : MethodSpec} {f : FuncId} (h : RecordedAs records t m f) (hgrows : t.Grows t')
    (hsame : records' m.name.pos = records m.name.pos) : RecordedAs records' t' m f :=
  ⟨hsame.trans h.record, hgrows.hasFunc h.has, (hgrows.func h.has).name.trans h.name⟩

/-- As long as the records are left alone, they stay what they are. -/
theorem forall₂_of_grows (h : List.Forall₂ (RecordedAs records t) ms fs) (hgrows : t.Grows t')
    (hsame : ∀ m ∈ ms, records' m.name.pos = records m.name.pos) : List.Forall₂ (RecordedAs records' t') ms fs := by
  induction h with
  | nil => exact .nil
  | cons hm _ ih =>
    obtain ⟨hhead, htail⟩ := List.forall_mem_cons.1 hsame
    exact .cons (hm.of_grows hgrows hhead) (ih htail)

theorem recordedFuncs_eq (h : List.Forall₂ (RecordedAs records t) ms fs) : recordedFuncs records ms = fs := by
  induction h with
  | nil => rfl
  | cons hm _ ih =>
    unfold recordedFuncs at ih ⊢
    rw [List.filterMap_cons, hm.record, ih]

theorem recordedFuncs_congr (hsame : ∀ m ∈ ms, records' m.name.pos = records m.name.pos) :
    recordedFuncs records' ms = recordedFuncs records ms :=
  List.filterMap_congr fun m hm => by rw [hsame m hm]

/-- The declared type is an interface, and the functions on record for the methods are its explicit methods. -/
def DeclaresMethods (records : Pos → Option Object) (t : Table) (id : TypeId) (methods : List MethodSpec) : Prop :=
  ∃ rhs params i, t.definition? id = some (rhs, params) ∧ t.get rhs = .interface i ∧
    List.Forall₂ (RecordedAs records t) methods i.explicit

theorem DeclaresMethods.of_grows {id : TypeId} (h : DeclaresMethods records t id ms) (hgrows : t.Grows t')
    (hdefinition : ∀ d, t.definition? id = some d → t'.definition? id = some d)
    (hsame : ∀ m ∈ ms, records' m.name.pos = records m.name.pos) : DeclaresMethods records' t' id ms := by
  obtain ⟨rhs, params, i, hid, hget, hforall⟩ := h
  obtain ⟨i', hget', hexplicit, -⟩ := hgrows.interface hget
  exact ⟨rhs, params, i', hdefinition _ hid, hget', hexplicit ▸ forall₂_of_grows hforall hgrows hsame⟩

end Recorded

/-! ## Methods of an interface -/

section Methods

variable {plan : Plan} {c : Context} {n : Notes} {t : Table}

/-- A method as it is written in an interface. -/
def interfaceMethod (c : Context) (name : Ident) (sig : TypeId) : Func :=
  { Func.ofName name.name .interfaceMethod with
    sig, package := some c.path, pos := some ⟨c.file.id, name.pos⟩ }

/-- Enters a method of an interface. -/
def enterMethod (name : Ident) (sig : TypeId) : Checking FuncId := do
  let id ← Build.newFunc (interfaceMethod (← read) name sig)
  Checking.noteDef name.pos (.func id)
  return id

theorem eval_resolveMethods_cons (name : Ident) (sig : FuncType) (ms : List MethodSpec) (c : Context) (n : Notes) (t : Table) :
    (resolveMethods (⟨name, sig⟩ :: ms)).eval c n t = Checking.eval (do
      let id ← enterMethod name (← resolveSignature sig)
      return id :: (← resolveMethods ms)) c n t := rfl

theorem sound_enterMethod {t₀ : Table} {name : Ident} {sig : TypeId} (hname : plan.declares c.file.index name)
    (hsig : t₀.HasType sig) : Sound plan c t₀ (enterMethod name sig) fun id t => t.HasFunc id := by
  refine .bind .readContext fun context t₁ h₁ _ _ => ?_
  refine .bind (.lift (Build.sound_newFunc ⟨?_, nofun⟩)) fun id t₂ h₂ _ hid => ?_
  · simpa [interfaceMethod, Func.parts, Func.ofName] using h₁.hasType hsig
  refine .bind (.noteDef hid.1 fun f hf => ⟨name, hname, rfl, ?_⟩) fun _ t₃ h₃ _ _ => .pure fun t ht _ => ?_
  · cases hf
    rw [hid.2]
    rfl
  · exact (h₃.trans ht).hasFunc hid.1

theorem quiet_enterMethod {P : Pos → Prop} (name : Ident) (sig : TypeId) (hname : P name.pos) :
    Quiet P (enterMethod name sig) :=
  .bind (.reads .readContext) fun _ => .bind (.lift _) fun _ => .bind (.noteDef hname _) fun _ => .pure _

theorem enterMethod_spec (hfile : c.file.index < n.infos.size) (name : Ident) (sig : TypeId) (sig' : FuncType) (t : Table) :
    RecordedAs (((enterMethod name sig).eval c n t).1.2.def? c.file.index) ((enterMethod name sig).eval c n t).2 ⟨name, sig'⟩
        ((enterMethod name sig).eval c n t).1.1 ∧
      NewFuncs t ((enterMethod name sig).eval c n t).2 [((enterMethod name sig).eval c n t).1.1] := by
  have heval : (enterMethod name sig).eval c n t =
      ((⟨t.funcs.size⟩, ((Checking.noteDef name.pos (.func ⟨t.funcs.size⟩)).eval c n t).1.2),
        { t with funcs := t.funcs.push (interfaceMethod c name sig) }) := rfl
  have hsize : (t.funcs.push (interfaceMethod c name sig)).size = t.funcs.size + 1 := Array.size_push ..
  rw [heval]
  refine ⟨⟨def?_noteDef hfile _ _ t, ?_, ?_⟩, List.pairwise_singleton .., fun f hf => ?_⟩
  · show t.funcs.size < (t.funcs.push _).size
    omega
  · show ((t.funcs.push (interfaceMethod c name sig))[t.funcs.size]?.getD default).name = name.name
    rw [Array.getElem?_push_size]
    rfl
  · rw [List.mem_singleton.1 hf]
    show t.funcs.size ≤ t.funcs.size ∧ t.funcs.size < (t.funcs.push _).size
    omega

/-- For each method that is written, a function of its name is entered and on record. -/
theorem resolveMethods_spec (hready : Ready plan c n t) (hfile : c.file.index < n.infos.size) (ms : List MethodSpec)
    (hnames : ∀ x ∈ MethodSpec.funcNamesAll ms, plan.declares c.file.index x)
    (hnodup : (placesOf (MethodSpec.funcNamesAll ms)).Nodup) :
    List.Forall₂ (RecordedAs (((resolveMethods ms).eval c n t).1.2.def? c.file.index) ((resolveMethods ms).eval c n t).2) ms
        ((resolveMethods ms).eval c n t).1.1 ∧
      NewFuncs t ((resolveMethods ms).eval c n t).2 ((resolveMethods ms).eval c n t).1.1 := by
  induction ms generalizing n t with
  | nil => exact ⟨.nil, .nil⟩
  | cons m ms ih =>
    obtain ⟨name, sig⟩ := m
    obtain ⟨hname, hrest⟩ := List.forall_mem_cons.1 hnames
    obtain ⟨hsig, hms⟩ := List.forall_mem_append.1 hrest
    have hplaces : placesOf (MethodSpec.funcNamesAll (⟨name, sig⟩ :: ms)) =
        name.pos :: (placesOf sig.funcNames ++ placesOf (MethodSpec.funcNamesAll ms)) := by
      simp [placesOf, MethodSpec.funcNamesAll]
    rw [hplaces] at hnodup
    obtain ⟨hpos, hnodup⟩ := List.nodup_cons.1 hnodup
    have hnodup' := (List.nodup_append.1 hnodup).2.1
    rw [eval_resolveMethods_cons, eval_bind, eval_bind, eval_bind, eval_pure]
    -- the signature
    obtain ⟨hready₁, hstep₁, -, hid₁⟩ := hready.step (sound_resolveSignature sig hsig)
    have hsize₁ : _ = n.infos.size := (quiet_resolveSignature (P := fun _ => True) sig fun _ _ => trivial).records.size c n t
    generalize (resolveSignature sig).eval c n t = r₁ at *
    obtain ⟨⟨id₁, n₁⟩, t₁⟩ := r₁
    dsimp only at *
    have hfile₁ : c.file.index < n₁.infos.size := by omega
    -- the method itself
    obtain ⟨hready₂, hstep₂, -, -⟩ := hready₁.step (sound_enterMethod hname hid₁)
    have hsize₂ : _ = n₁.infos.size := (quiet_enterMethod (P := fun _ => True) name id₁ trivial).records.size c n₁ t₁
    obtain ⟨hrecorded, hnew⟩ := enterMethod_spec hfile₁ name id₁ sig t₁
    generalize (enterMethod name id₁).eval c n₁ t₁ = r₂ at *
    obtain ⟨⟨id₂, n₂⟩, t₂⟩ := r₂
    dsimp only at *
    -- the other methods leave its record alone
    have hfile₂ : c.file.index < n₂.infos.size := by omega
    obtain ⟨-, hstep₃, -, -⟩ := hready₂.step (sound_resolveMethods ms hms)
    obtain ⟨hforall, hnew'⟩ := ih hready₂ hfile₂ hms hnodup'
    have hkeep := (quiet_resolveMethods (P := (· ∈ placesOf (MethodSpec.funcNamesAll ms))) ms fun x hx =>
      mem_placesOf hx).records.def?
      c n₂ t₂ c.file.index name.pos fun _ hmem => hpos (List.mem_append_right _ hmem)
    exact ⟨.cons (hrecorded.of_grows hstep₃.grows hkeep) hforall,
      (hnew.append hnew' hstep₂.grows hstep₃.grows).widen hstep₁.grows (.refl _)⟩

/-- An interface literal denotes an interface whose explicit methods are those that are written. -/
theorem resolveType_interface (hready : Ready plan c n t) (hsteady : plan.steady) (hdeferring : t.deferring = true)
    (hfile : c.file.index < n.infos.size) (methods : List MethodSpec) (embeds : List TypeExpr)
    (hnames : ∀ x ∈ (TypeExpr.interface methods embeds).funcNames, plan.declares c.file.index x)
    (hnodup : (placesOf (TypeExpr.interface methods embeds).funcNames).Nodup) :
    ∃ i, ((resolveType (.interface methods embeds)).eval c n t).2.get
          ((resolveType (.interface methods embeds)).eval c n t).1.1 = .interface i ∧
      List.Forall₂ (RecordedAs (((resolveType (.interface methods embeds)).eval c n t).1.2.def? c.file.index)
        ((resolveType (.interface methods embeds)).eval c n t).2) methods i.explicit ∧
      NewFuncs t ((resolveType (.interface methods embeds)).eval c n t).2 i.explicit := by
  obtain ⟨hmethods, hembeds⟩ := List.forall_mem_append.1 hnames
  have hplaces : placesOf (TypeExpr.interface methods embeds).funcNames =
      placesOf (MethodSpec.funcNamesAll methods) ++ placesOf (TypeExpr.funcNamesAll embeds) := placesOf_append ..
  obtain ⟨hnodup', -, hdisjoint⟩ := List.nodup_append.1 (hplaces ▸ hnodup)
  -- methods first, then what is embedded, then the interface
  obtain ⟨hready₁, hstep₁, -, hfs⟩ := hready.step (sound_resolveMethods methods hmethods)
  obtain ⟨hforall, hnew⟩ := resolveMethods_spec hready hfile methods hmethods hnodup'
  have heval : (resolveType (.interface methods embeds)).eval c n t = Checking.eval (do
      let explicit ← resolveMethods methods
      let embedded ← resolveTypes embeds
      Build.interface explicit embedded) c n t := rfl
  rw [heval, eval_bind, eval_bind]
  generalize (resolveMethods methods).eval c n t = r₁ at *
  obtain ⟨⟨fs, n₁⟩, t₁⟩ := r₁
  dsimp only at *
  obtain ⟨hready₂, hstep₂, -, hes⟩ := hready₁.step (sound_resolveTypes embeds hembeds)
  have hkeep := (quiet_resolveTypes (P := (· ∈ placesOf (TypeExpr.funcNamesAll embeds))) embeds fun x hx =>
    mem_placesOf hx).records.def? c n₁ t₁ c.file.index
  generalize (resolveTypes embeds).eval c n₁ t₁ = r₂ at *
  obtain ⟨⟨es, n₂⟩, t₂⟩ := r₂
  dsimp only at *
  have hdeferring₂ : t₂.deferring = true := ((hstep₂.steady hsteady).trans (hstep₁.steady hsteady)).trans hdeferring
  have hrun : (liftM (Build.interface fs es) : Checking TypeId).eval c n₂ t₂ =
      ((((Build.interface fs es).run t₂).1, n₂), ((Build.interface fs es).run t₂).2) := rfl
  have hgrows : t₂.Grows ((Build.interface fs es).run t₂).2 :=
    (Build.sound_interface (fun f hf => hstep₂.grows.hasMethod (hfs f hf)) hes t₂ (.refl t₂) hready₂.wf).1.grows
  rw [hrun]
  rw [Build.run_interface hdeferring₂] at hgrows ⊢
  refine ⟨_, Build.get_push t₂ _, ?_, hnew.widen (.refl t) (hstep₂.grows.trans hgrows)⟩
  refine forall₂_of_grows hforall (hstep₂.grows.trans hgrows) fun m hm => hkeep m.name.pos fun _ hmem => ?_
  exact hdisjoint _ (mem_placesOf (MethodSpec.name_mem_funcNamesAll hm)) _ hmem rfl

end Methods

/-! ## Declared types -/

/-- The methods that are written in a declared type. -/
def Declaration.ownMethods : Declaration → List MethodSpec
  | .type spec => spec.type.ownMethods
  | _ => []

/-- The functions that are on record for the methods of declared types. -/
def methodFuncs (n : Notes) (ds : List (CurrentFile × Declaration)) : List FuncId :=
  ds.flatMap fun p => recordedFuncs (n.def? p.1.index) p.2.ownMethods

theorem mem_funcNames_of_mem_ownMethods {spec : TypeSpec} {m : MethodSpec} (hm : m ∈ spec.type.ownMethods) :
    m.name ∈ spec.funcNames := by
  cases htype : spec.type with
  | interface methods embeds =>
    rw [htype] at hm
    refine List.mem_append_right _ ?_
    rw [htype]
    exact List.mem_append_left _ (MethodSpec.name_mem_funcNamesAll hm)
  | _ =>
    rw [htype] at hm
    cases hm

theorem methodFuncs_congr {n n' : Notes} {ds : List (CurrentFile × Declaration)} (h : ∀ p ∈ ds, ∀ spec, p.2 = .type spec →
      ∀ x ∈ spec.funcNames, n'.def? p.1.index x.pos = n.def? p.1.index x.pos) : methodFuncs n' ds = methodFuncs n ds := by
  refine List.flatMap_congr fun p hp => ?_
  obtain ⟨file, d⟩ := p
  cases d with
  | type spec => exact recordedFuncs_congr fun m hm => h _ hp spec rfl _ (mem_funcNames_of_mem_ownMethods hm)
  | _ => rfl

/-- Types are resolved without a change of the number of files. -/
theorem size_resolveDeclaredTypes (es : List (CurrentFile × Entry)) :
    Keeps (fun n => n.infos.size) (resolveDeclaredTypes es) := by
  refine .forEach fun p _ => ?_
  split
  · exact (quiet_resolveDeclaredType (P := fun _ => True) _ _ fun _ _ => trivial).records.size
  · exact .pure _

theorem size_resolveAliases (es : List (CurrentFile × Entry)) : Keeps (fun n => n.infos.size) (resolveAliases es) := by
  refine .forEach fun p _ => ?_
  split
  · exact (enters_resolveAlias (P := fun _ => True) _ fun _ _ => trivial).records.size
  · exact .pure _

theorem Placed.of_size {es : List (CurrentFile × Entry)} {n n' : Notes} (h : Placed es n) (hsize : n'.infos.size = n.infos.size) :
    Placed es n' :=
  ⟨h.nodup, h.recv, fun q hq => hsize ▸ h.index q hq⟩

theorem Placed.tail {es : List (CurrentFile × Entry)} {n : Notes} {q : CurrentFile × Entry} (h : Placed (q :: es) n) :
    Placed es n := by
  have hcons : placesIn (declarationsFor (q :: es)) =
      q.2.declaration.places.map (q.1.index, ·) ++ placesIn (declarationsFor es) := List.flatMap_cons
  have hnodup := hcons ▸ h.nodup
  exact ⟨(List.nodup_append.1 hnodup).2.1, fun q' hq' => h.recv q' (List.mem_cons_of_mem _ hq'),
    fun q' hq' => h.index q' (List.mem_cons_of_mem _ hq')⟩

namespace ResolvingTypes

variable {plan : Plan} {c : Context} {n : Notes} {t : Table} {es : List (CurrentFile × Entry)} {file : CurrentFile}
variable {spec : TypeSpec} {id : TypeId}

theorem resolveDeclaredType_spec (h : ResolvingTypes plan es c n t) (hmem : (file, .type spec id) ∈ es)
    (hdef : t.definition? id = some (.invalid, [])) (hfile : file.index < n.infos.size) (hnodup : (placesOf spec.funcNames).Nodup)
    {methods : List MethodSpec} {embeds : List TypeExpr} (htype : spec.type = .interface methods embeds) :
    DeclaresMethods (((resolveDeclaredTypes [(file, .type spec id)]).eval c n t).1.2.def? file.index)
        ((resolveDeclaredTypes [(file, .type spec id)]).eval c n t).2 id methods ∧
      NewFuncs t ((resolveDeclaredTypes [(file, .type spec id)]).eval c n t).2
        (recordedFuncs (((resolveDeclaredTypes [(file, .type spec id)]).eval c n t).1.2.def? file.index) methods) := by
  have hnames := (h.entries _ hmem).2.funcNames
  have hready := (h.toReady.inFile (h.entries _ hmem).1).settle (fun id (hid : False) => hid.elim) True
  obtain ⟨n', t', params, hright, hgrows, hinfos, hresult⟩ := exists_rightSide hready (fun hid => hid) h.locals hdef hnames
  have heval : (resolveDeclaredTypes [(file, .type spec id)]).eval c n t = 
    (((), ((resolveDeclaredType spec id).eval { c with file } n t).1.2), ((resolveDeclaredType spec id).eval { c with file } n t).2) :=
    rfl
  rw [heval]
  -- as many files are known when the right side is resolved
  have hsize : n'.infos.size = n.infos.size := by
    have hall := (quiet_resolveDeclaredType (P := fun _ => True) spec id fun _ _ => trivial).records.size { c with file } n t
    have hside := (quiet_resolveType (P := fun _ => True) spec.type fun _ _ => trivial).records.size { c with file } n' t'
    dsimp only at hall hside
    rw [← hside, ← hinfos, hall]
  have hplaces : (placesOf spec.type.funcNames).Nodup := by
    have happend : placesOf spec.funcNames =
        placesOf (spec.typeParams.flatMap (·.funcNames)) ++ placesOf spec.type.funcNames := placesOf_append ..
    exact (List.nodup_append.1 (happend ▸ hnodup)).2.1
  have hside := (List.forall_mem_append.1 hnames).2
  rw [htype] at hgrows hinfos hresult hplaces hside
  obtain ⟨i, hget, hforall, hnew⟩ := resolveType_interface hright.ready trivial ((hright.step.steady trivial).trans h.deferring)
    (hsize ▸ hfile) methods embeds hside hplaces
  obtain ⟨i', hget', hexplicit, -⟩ := hgrows.interface hget
  have hrecords : ∀ pos, ((resolveDeclaredType spec id).eval { c with file } n t).1.2.def? file.index pos =
      ((resolveType (.interface methods embeds)).eval { c with file } n' t').1.2.def? file.index pos := by
    intro pos
    rw [Notes.def?, Notes.def?, hinfos]
  have hforall' := forall₂_of_grows hforall hgrows fun m _ => hrecords m.name.pos
  refine ⟨⟨_, params, i', hresult, hget', hexplicit ▸ hforall'⟩, ?_⟩
  rw [recordedFuncs_eq hforall']
  exact hnew.widen hright.step.grows hgrows

theorem step_spec (h : ResolvingTypes plan es c n t) {q : CurrentFile × Entry} (hq : q ∈ es) (hunresolved : Unresolved t es)
    (hplaced : Placed es n) :
    (∀ spec id methods embeds, q.2 = .type spec id → spec.type = .interface methods embeds →
      DeclaresMethods (((resolveDeclaredTypes [q]).eval c n t).1.2.def? q.1.index) ((resolveDeclaredTypes [q]).eval c n t).2 id
        methods) ∧
      NewFuncs t ((resolveDeclaredTypes [q]).eval c n t).2
        (recordedFuncs (((resolveDeclaredTypes [q]).eval c n t).1.2.def? q.1.index) q.2.declaration.ownMethods) := by
  obtain ⟨file, e⟩ := q
  cases e with
  | type spec id =>
    have hdef := hunresolved.definition id (mem_declaredTypes hq)
    have hplaces : (spec.name.pos :: placesOf spec.funcNames).Nodup := hplaced.nodup_places hq
    have hnodup := (List.nodup_cons.1 hplaces).2
    constructor
    · intro spec' id' methods embeds heq htype
      cases heq
      exact (h.resolveDeclaredType_spec hq hdef (hplaced.index _ hq) hnodup htype).1
    · show NewFuncs t _ (recordedFuncs _ spec.type.ownMethods)
      cases htype : spec.type with
      | interface methods embeds => exact (h.resolveDeclaredType_spec hq hdef (hplaced.index _ hq) hnodup htype).2
      | _ => exact .nil
  | _ => exact ⟨fun _ _ _ _ heq => (by cases heq), .nil⟩

/-- When all declared types have been resolved, those written as interfaces are interfaces with the methods that are
written, and all these are different functions. -/
theorem resolveDeclaredTypes_spec (h : ResolvingTypes plan es c n t) (hunresolved : Unresolved t es) (hplaced : Placed es n) :
    (∀ file spec id methods embeds, (file, .type spec id) ∈ es → spec.type = .interface methods embeds →
      DeclaresMethods (((resolveDeclaredTypes es).eval c n t).1.2.def? file.index) ((resolveDeclaredTypes es).eval c n t).2 id
        methods) ∧
      NewFuncs t ((resolveDeclaredTypes es).eval c n t).2
        (methodFuncs ((resolveDeclaredTypes es).eval c n t).1.2 (declarationsFor es)) := by
  induction es generalizing n t with
  | nil => exact ⟨fun _ _ _ _ _ hmem => (by cases hmem), .nil⟩
  | cons q es ih =>
    have hq : q ∈ q :: es := List.mem_cons_self ..
    obtain ⟨h₁, hgrows₁, -, hkeep₁⟩ := h.step (l := [q]) (by simp)
    obtain ⟨hmethods₁, hnew₁⟩ := h.step_spec hq hunresolved hplaced
    have hsize : _ = n.infos.size := size_resolveDeclaredTypes [q] c n t
    have heval : (resolveDeclaredTypes (q :: es)).eval c n t = (resolveDeclaredTypes es).eval c
      ((resolveDeclaredTypes [q]).eval c n t).1.2 ((resolveDeclaredTypes [q]).eval c n t).2 := rfl
    rw [heval]
    generalize (resolveDeclaredTypes [q]).eval c n t = r₁ at *
    obtain ⟨⟨⟨⟩, n₁⟩, t₁⟩ := r₁
    dsimp only at *
    have hids : declaredTypes (q :: es) = declaredTypes [q] ++ declaredTypes es := declaredTypes_append [q] es
    obtain ⟨-, hnodup, hdisjoint⟩ := List.nodup_append.1 (hids ▸ hunresolved.nodup)
    have hunresolved₁ : Unresolved t₁ es := by
      refine ⟨hnodup, fun id hid => ?_⟩
      have hdef := hunresolved.definition id (by rw [hids]; simp [hid])
      exact (hkeep₁ id (.of_definition? hdef) fun hid' => hdisjoint id hid' id hid rfl).trans hdef
    have h₁' := h₁.mono (l := es) (List.subset_cons_self ..)
    obtain ⟨hmethods₂, hnew₂⟩ := ih h₁' hunresolved₁ (hplaced.of_size hsize).tail
    obtain ⟨-, hgrows₂, -, hkeep₂⟩ := h₁'.step (l := es) (List.Subset.refl _)
    -- the other types leave the records for this one alone
    have hrecords : ∀ spec id, q.2 = .type spec id → ∀ x ∈ spec.funcNames,
        ((resolveDeclaredTypes es).eval c n₁ t₁).1.2.def? q.1.index x.pos = n₁.def? q.1.index x.pos := by
      intro spec id heq x hx
      refine (keeps_resolveDeclaredTypes_def? fun q' hq' spec' id' heq' hindex hpos => ?_).def? c n₁ t₁
      have hplace : x.pos ∈ q.2.declaration.places := by
        rw [heq]
        exact List.mem_cons_of_mem _ (mem_placesOf hx)
      refine avoids_of_nodup hplaced.nodup hplace hq' hindex ?_
      rw [heq']
      exact List.mem_cons_of_mem _ hpos
    constructor
    · intro file spec id methods embeds hmem htype
      rcases List.mem_cons.1 hmem with rfl | hmem
      · have hid : id ∉ declaredTypes es := fun hid => hdisjoint id (mem_declaredTypes (List.mem_singleton_self _)) id hid rfl
        refine (hmethods₁ spec id methods embeds rfl htype).of_grows hgrows₂ (fun d hd => ?_) fun m hm => ?_
        · exact (hkeep₂ id (.of_definition? hd) hid).trans hd
        · refine hrecords spec id rfl m.name (mem_funcNames_of_mem_ownMethods ?_)
          rw [htype]
          exact hm
      · exact hmethods₂ file spec id methods embeds hmem htype
    · have hhead : recordedFuncs (((resolveDeclaredTypes es).eval c n₁ t₁).1.2.def? q.1.index) q.2.declaration.ownMethods =
          recordedFuncs (n₁.def? q.1.index) q.2.declaration.ownMethods := by
        refine recordedFuncs_congr fun m hm => ?_
        cases he : q.2 with
        | type spec id =>
          rw [he] at hm
          exact hrecords spec id he m.name (mem_funcNames_of_mem_ownMethods hm)
        | _ =>
          rw [he] at hm
          cases hm
      have hcons : methodFuncs ((resolveDeclaredTypes es).eval c n₁ t₁).1.2 (declarationsFor (q :: es)) =
          recordedFuncs (((resolveDeclaredTypes es).eval c n₁ t₁).1.2.def? q.1.index) q.2.declaration.ownMethods ++
            methodFuncs ((resolveDeclaredTypes es).eval c n₁ t₁).1.2 (declarationsFor es) := List.flatMap_cons
      rw [hcons, hhead]
      exact hnew₁.append hnew₂ hgrows₁ hgrows₂

end ResolvingTypes

/-! ## The whole check -/

section Check

variable {plan : Plan} {c : Context} {n : Notes} {t : Table} {es : List (CurrentFile × Entry)}

/-- After the check, declared types that are written as interfaces are interfaces with the methods that are written, and all
these are different functions. -/
theorem checkEntries_spec (hready : Ready plan c n t) (hsteady : ¬ plan.steady) (hentries : EntriesWF plan t es)
    (hsettled : ∀ id ∈ declaredTypes es, ¬ plan.settled id) (hlocals : n.locals = [])
    (hunresolved : ResolvingTypes.Unresolved t es) (hplaced : Placed es n) :
    (∀ file spec id methods embeds, (file, .type spec id) ∈ es → spec.type = .interface methods embeds →
      DeclaresMethods (((checkEntries es).eval c n t).1.2.def? file.index) ((checkEntries es).eval c n t).2 id methods) ∧
      (methodFuncs ((checkEntries es).eval c n t).1.2 (declarationsFor es)).Nodup := by
  obtain ⟨⟨⟨⟨⟩, n₁⟩, t₁⟩, haliases⟩ : ∃ r, (resolveAliases es).eval c n { t with deferring := true } = r := ⟨_, rfl⟩
  obtain ⟨hresolving, hunresolved₁⟩ := resolvingTypes_of_ready hready hsteady hentries hlocals hunresolved haliases
  obtain ⟨hgrows, hkeep⟩ := definition?_checkEntries hready hsteady hentries hsettled haliases
  have hsize : _ = n.infos.size := size_resolveAliases es c n { t with deferring := true }
  rw [haliases] at hsize
  obtain ⟨hmethods, hnew⟩ := hresolving.resolveDeclaredTypes_spec hunresolved₁ (hplaced.of_size hsize)
  -- what is checked after the types leaves their records alone
  have hrecords : ∀ file spec id, (file, .type spec id) ∈ es → ∀ x ∈ spec.funcNames,
      ((checkEntries es).eval c n t).1.2.def? file.index x.pos =
        ((resolveDeclaredTypes es).eval c n₁ t₁).1.2.def? file.index x.pos := by
    intro file spec id hmem x hx
    rw [eval_checkEntries haliases]
    exact (hplaced.keeps_checkMembers hmem (List.mem_cons_of_mem _ (mem_placesOf hx))).def? c _ _
  constructor
  · intro file spec id methods embeds hmem htype
    refine (hmethods file spec id methods embeds hmem htype).of_grows hgrows (hkeep id) fun m hm => ?_
    refine hrecords file spec id hmem m.name (mem_funcNames_of_mem_ownMethods ?_)
    rw [htype]
    exact hm
  · have hsame : methodFuncs ((checkEntries es).eval c n t).1.2 (declarationsFor es) =
        methodFuncs ((resolveDeclaredTypes es).eval c n₁ t₁).1.2 (declarationsFor es) := by
      refine methodFuncs_congr fun p hp spec heq => ?_
      obtain ⟨⟨file, e⟩, hmem, rfl⟩ := List.mem_map.1 hp
      cases e with
      | type spec' id =>
        cases heq
        exact hrecords file spec id hmem
      | _ => cases heq
    rw [hsame]
    exact hnew.nodup

end Check

end UnusedMethods.Typing
