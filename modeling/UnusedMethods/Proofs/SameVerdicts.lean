import UnusedMethods.Proofs.Accounting
import UnusedMethods.Proofs.CheckingInStep
import UnusedMethods.Proofs.RegisteredMethods
import UnusedMethods.Proofs.WalkOrder

/-!
# Packages that correspond get the same verdict

If the tables of two packages correspond, and so do the records about their files, then the same methods are registered
for them, the same bindings are made, and a method is used in one if and only if it is used in the other.
-/

namespace UnusedMethods.Methods

open Syntax UnusedMethods.Types Typing

variable {u v : CheckedPackage} {filter : PathFilter} {f g : FuncId}

section Alike

variable (k : Correspondence)

/-- The declarations say the same, of methods and interfaces that correspond. -/
structure MethodDeclaration.Alike (d e : MethodDeclaration) : Prop where
  interfaceName : e.interfaceName = d.interfaceName
  interface : k.types d.interface e.interface
  method : k.funcs d.method e.method
  name : e.name = d.name
  path : e.path = d.path
  pos : e.pos = d.pos
  generic : e.generic = d.generic

/-- The same file, with records that correspond. -/
def FileAlike (f g : File × FileInfo) : Prop := g.1 = f.1 ∧ f.2.Alike k g.2

/-- The same is met in files about which the records correspond. -/
def MetAlike (e e' : Met) : Prop := e'.2 = e.2 ∧ e.1.Alike k e'.1

end Alike

variable {k : Correspondence} {s t : Table}

theorem FileInfo.Alike.def? {x y : FileInfo} (h : x.Alike k y) (pos : Pos) :
    Option.Rel (Object.Alike k) (x.def? pos) (y.def? pos) := lookup_keyed h.defs pos

theorem FileInfo.Alike.use? {x y : FileInfo} (h : x.Alike k y) (id : Nat) :
    Option.Rel (Object.Alike k) (x.use? id) (y.use? id) := lookup_keyed h.uses id

/-! ## Registries -/

theorem forall₂_collectSpec (h : k.Between s t) {x y : FileInfo} (hxy : x.Alike k y) (options : Options) (path : String)
    (spec : TypeSpec) :
    List.Forall₂ (MethodDeclaration.Alike k) (collectSpec s options path x spec) (collectSpec t options path y spec) := by
  unfold collectSpec
  cases spec.type with
  | interface methods embeds =>
    rcases optionRel_cases (FileInfo.Alike.def? hxy spec.name.pos) with ⟨hx, hy⟩ | ⟨obj, obj', hx, hy, hobj⟩ <;> rw [hx, hy]
    · exact .nil
    cases hobj with
    | @typeName a b hab =>
      dsimp only
      have hinterface := h.reads.underlying hab
      have hnamed : (t.named? b).isNone = (s.named? a).isNone := by
        rw [← Option.not_isSome, ← Option.not_isSome, isSome_of_optionRel (h.reads.named? hab)]
      have hinterface? : (t.interface? (t.underlying b)).isNone = (s.interface? (s.underlying a)).isNone := by
        rw [← Option.not_isSome, ← Option.not_isSome, isSome_of_optionRel (h.interface? hinterface)]
      rw [hnamed, hinterface?]
      split
      · exact .nil
      refine List.rel_filterMap (R := Eq) (fun m m' hm => ?_) (List.forall₂_same.2 fun _ _ => rfl)
      subst hm
      rcases optionRel_cases (FileInfo.Alike.def? hxy m.name.pos) with ⟨hx, hy⟩ | ⟨obj, obj', hx, hy, hobj⟩ <;> rw [hx, hy]
      · exact .none
      cases hobj with
      | func hfg => exact .some ⟨rfl, hinterface, hfg, rfl, rfl, rfl, rfl⟩
      | _ => exact .none
    | _ => exact .nil
  | _ => exact .nil

theorem forall₂_declarations (h : k.Between u.table v.table)
    (hfiles : List.Forall₂ (FileAlike k) (u.files filter) (v.files filter)) (options : Options) :
    List.Forall₂ (MethodDeclaration.Alike k) (u.declarations filter options) (v.declarations filter options) := by
  refine List.rel_flatMap hfiles fun f g hfg => ?_
  obtain ⟨hsame, hinfo⟩ := hfg
  rw [collectFile_eq_flatMap, collectFile_eq_flatMap, hsame]
  refine List.rel_flatMap (R := Eq) (List.forall₂_same.2 fun _ _ => rfl) fun spec spec' hspec => ?_
  subst hspec
  exact forall₂_collectSpec h hinfo options f.1.path spec

theorem mem_methods_iff (h : k.Between s t) {ds es : List MethodDeclaration}
    (hlist : List.Forall₂ (MethodDeclaration.Alike k) ds es) (hfg : k.funcs f g) :
    g ∈ es.map (·.method) ↔ f ∈ ds.map (·.method) := by
  rw [List.mem_map, List.mem_map]
  constructor
  · rintro ⟨e, he, rfl⟩
    obtain ⟨d, hd, hde⟩ := exists_of_mem_right hlist he
    exact ⟨d, hd, h.funcs.1 hde.method hfg⟩
  · rintro ⟨d, hd, rfl⟩
    obtain ⟨e, he, hde⟩ := exists_of_mem_left hlist hd
    exact ⟨e, he, h.funcs.2 hde.method hfg⟩

theorem Registry.forall₂_add (h : k.Between s t) {r r' : Registry}
    (hr : List.Forall₂ (MethodDeclaration.Alike k) r.entries r'.entries) {d e : MethodDeclaration} (hde : d.Alike k e) :
    List.Forall₂ (MethodDeclaration.Alike k) (r.add d).entries (r'.add e).entries := by
  have hiff := mem_methods_iff h hr hde.method
  unfold Registry.add
  by_cases hd : d.method ∈ r.entries.map (·.method)
  · rw [dif_pos hd, dif_pos (hiff.2 hd)]
    exact hr
  · rw [dif_neg hd, dif_neg (mt hiff.1 hd)]
    exact List.rel_append hr (.cons hde .nil)

theorem Registry.forall₂_ofDeclarations (h : k.Between s t) {ds es : List MethodDeclaration}
    (hlist : List.Forall₂ (MethodDeclaration.Alike k) ds es) :
    List.Forall₂ (MethodDeclaration.Alike k) (Registry.ofDeclarations ds).entries (Registry.ofDeclarations es).entries := by
  have hsorted : List.Forall₂ (MethodDeclaration.Alike k) (ds.mergeSort fun a b => (a.comparePlace b).isLE)
      (es.mergeSort fun a b => (a.comparePlace b).isLE) := by
    refine Correspondence.Between.mergeSort_rel (fun d e d' e' hde hde' => ?_) hlist
    rw [MethodDeclaration.comparePlace, MethodDeclaration.comparePlace, hde.path, hde.pos, hde'.path, hde'.pos]
  have hfold : ∀ {xs ys : List MethodDeclaration} {r r' : Registry}, List.Forall₂ (MethodDeclaration.Alike k) xs ys →
      List.Forall₂ (MethodDeclaration.Alike k) r.entries r'.entries →
      List.Forall₂ (MethodDeclaration.Alike k) (xs.foldl Registry.add r).entries (ys.foldl Registry.add r').entries := by
    intro xs ys r r' hxys hr
    induction hxys generalizing r r' with
    | nil => exact hr
    | cons hxy _ ih => exact ih (Registry.forall₂_add h hr hxy)
  exact hfold hsorted .nil

theorem forall₂_collect (h : k.Between u.table v.table)
    (hfiles : List.Forall₂ (FileAlike k) (u.files filter) (v.files filter)) (options : Options) :
    List.Forall₂ (MethodDeclaration.Alike k) (collect u filter options).entries (collect v filter options).entries := by
  rw [collect_eq_ofDeclarations, collect_eq_ofDeclarations]
  exact Registry.forall₂_ofDeclarations h (forall₂_declarations h hfiles options)

/-! ## Bindings -/

theorem bind_address (b : Bindings) (t : Table) (info : FileInfo) (var : String) (node : Node) (operand : Expr) :
    b.bind t info var (.unary node "&" operand) =
      match (info.type? node.id).map t.deref with
      | some (elem, true) =>
        match t.named? elem with
        | some d => { b with pointees := (var, d.name) :: b.pointees }
        | none => b
      | _ => b := rfl

theorem bind_unary (b : Bindings) (t : Table) (info : FileInfo) (var : String) (node : Node) {op : String} (operand : Expr)
    (hop : op ≠ "&") : b.bind t info var (.unary node op operand) = b := by
  simp [Bindings.bind, hop]

theorem bind_eq (h : k.Between s t) {x y : FileInfo} (hxy : x.Alike k y) (b : Bindings) (var : String) (value : Expr) :
    b.bind t y var value = b.bind s x var value := by
  cases value with
  | ident node name =>
    unfold Bindings.bind
    dsimp only
    rcases optionRel_cases (FileInfo.Alike.use? hxy node.id) with ⟨hx, hy⟩ | ⟨obj, obj', hx, hy, hobj⟩ <;> rw [hx, hy]
    cases hobj with
    | var hab | const hab =>
      dsimp only
      rcases optionRel_cases (h.reads.named? hab) with ⟨hd, he⟩ | ⟨d, e, hd, he, hde⟩ <;> rw [hd, he]
      dsimp only
      rw [hde.name]
    | _ => rfl
  | unary node op operand =>
    by_cases hop : op = "&"
    · subst hop
      rw [bind_address, bind_address]
      rcases optionRel_cases (hxy.type? h node.id) with ⟨hx, hy⟩ | ⟨a, a', hx, hy, hab⟩ <;> rw [hx, hy]
      · rfl
      obtain ⟨helem, hpointer⟩ := h.reads.deref hab
      rw [Option.map_some, Option.map_some, ← Prod.eta (s.deref a), ← Prod.eta (t.deref a'), hpointer]
      cases (s.deref a).2 with
      | false => rfl
      | true =>
        dsimp only
        rcases optionRel_cases (h.reads.named? helem) with ⟨hd, he⟩ | ⟨d, e, hd, he, hde⟩ <;> rw [hd, he]
        dsimp only
        rw [hde.name]
    · rw [bind_unary _ _ _ _ _ _ hop, bind_unary _ _ _ _ _ _ hop]
  | _ => rfl

theorem record_eq (h : k.Between s t) {x y : FileInfo} (hxy : x.Alike k y) (b : Bindings) (spec : ValueSpec) :
    b.record t y spec = b.record s x spec := by
  unfold Bindings.record
  split
  · rename_i name value _ _
    rcases optionRel_cases (FileInfo.Alike.def? hxy name.pos) with ⟨hx, hy⟩ | ⟨obj, obj', hx, hy, hobj⟩ <;> rw [hx, hy]
    cases hobj with
    | var hab =>
      dsimp only
      rw [h.isInterface hab, bind_eq h hxy]
    | _ => rfl
  · rfl

theorem bindingsAfter_eq (h : k.Between s t) {before before' : List Met} (hbefore : List.Forall₂ (MetAlike k) before before') :
    bindingsAfter t before' = bindingsAfter s before := by
  have hfold : ∀ b : Bindings, before'.foldl (Bindings.note t) b = before.foldl (Bindings.note s) b := by
    induction hbefore with
    | nil => exact fun _ => rfl
    | @cons e e' _ _ hee' _ ih =>
      intro b
      have hnote : b.note t e' = b.note s e := by
        unfold Bindings.note
        rw [hee'.1]
        split
        · exact record_eq h hee'.2 b _
        · rfl
      rw [List.foldl_cons, List.foldl_cons, hnote]
      exact ih _
  exact hfold .empty

/-! ## Selected methods -/

/-- A selector picks methods that correspond, or no method in either. -/
theorem selects_cases {x y : FileInfo} (hxy : x.Alike k y) (node : Node) :
    (∃ called recv called' recv', Selects x node called recv ∧ Selects y node called' recv' ∧ k.funcs called called' ∧
      k.types recv recv') ∨
    (∀ called recv, ¬ Selects x node called recv) ∧ ∀ called recv, ¬ Selects y node called recv := by
  have hrel : Option.Rel (Selection.Alike k) (x.selection? node.id) (y.selection? node.id) := lookup_keyed hxy.selections node.id
  unfold Selects
  rcases optionRel_cases hrel with ⟨hx, hy⟩ | ⟨sel, sel', hx, hy, hsel⟩ <;> rw [hx, hy]
  · exact .inr ⟨nofun, nofun⟩
  by_cases hkind : sel.kind = .methodVal ∨ sel.kind = .methodExpr
  · rcases optionRel_cases hsel.method with ⟨hm, hm'⟩ | ⟨m, m', hm, hm', hmm'⟩
    · refine .inr ⟨?_, ?_⟩
      · rintro called recv ⟨_, heq, -, -, hmethod⟩
        cases heq
        rw [hm] at hmethod
        cases hmethod
      · rintro called recv ⟨_, heq, -, -, hmethod⟩
        cases heq
        rw [hm'] at hmethod
        cases hmethod
    · exact .inl ⟨m, sel.recv, m', sel'.recv, ⟨sel, rfl, hkind, rfl, hm⟩, ⟨sel', rfl, hsel.kind ▸ hkind, rfl, hm'⟩, hmm',
        hsel.recv⟩
  · refine .inr ⟨?_, ?_⟩
    · rintro called recv ⟨_, heq, hkind', -⟩
      cases heq
      exact hkind hkind'
    · rintro called recv ⟨_, heq, hkind', -⟩
      cases heq
      rw [hsel.kind] at hkind'
      exact hkind hkind'

/-- Corresponding methods are the same or not in both tables. -/
theorem funcs_eq_iff (h : k.Between s t) {f' g' : FuncId} (hfg : k.funcs f g) (hfg' : k.funcs f' g') : g = g' ↔ f = f' :=
  (Relator.rel_eq h.funcs hfg hfg').symm

theorem isOrigin_eq (h : k.Between s t) (mode : GenericMatch) (hfg : k.funcs f g) {d e : MethodDeclaration}
    (hde : d.Alike k e) {a b : TypeId} (hab : k.types a b) : isOrigin t mode g e b = isOrigin s mode f d a := by
  unfold isOrigin
  have horigin : Option.Rel k.types ((s.named? a).bind (·.origin)) ((t.named? b).bind (·.origin)) := by
    rcases optionRel_cases (h.reads.named? hab) with ⟨hx, hy⟩ | ⟨x, y, hx, hy, hxy⟩ <;> rw [hx, hy]
    · exact .none
    · exact hxy.origin
  rcases optionRel_cases horigin with ⟨hx, hy⟩ | ⟨o, o', hx, hy, ho⟩ <;> rw [hx, hy]
  dsimp only
  have hne : (o' != b) = (o != a) := by
    rw [Bool.eq_iff_iff, bne_iff_ne, bne_iff_ne]
    exact not_congr (h.reads.eq_iff ho hab)
  rw [hne, hde.generic]
  congr 1
  cases mode with
  | heuristic =>
    dsimp only
    rcases optionRel_cases (h.reads.named? ho) with ⟨hx, hy⟩ | ⟨x, y, hx, hy, hxy⟩ <;> rw [hx, hy]
    · rfl
    · rw [Option.any_some, Option.any_some, hxy.name, hde.interfaceName]
  | strict =>
    dsimp only
    rcases optionRel_cases (h.func hfg).origin with ⟨hx, hy⟩ | ⟨x, y, hx, hy, hxy⟩ <;> rw [hx, hy, decide_eq_decide]
    · exact ⟨nofun, nofun⟩
    · rw [Option.some.injEq, Option.some.injEq]
      exact funcs_eq_iff h hxy hde.method

theorem ofSelection_eq (h : k.Between s t) (mode : GenericMatch) (hfg : k.funcs f g) {d e : MethodDeclaration}
    (hde : d.Alike k e) {a b : TypeId} (hab : k.types a b) :
    Decision.ofSelection t mode g e (some b) = Decision.ofSelection s mode f d (some a) := by
  have hname : sameName t g e = sameName s f d := by
    rw [sameName, sameName, h.reads.name hfg, h.reads.name hde.method]
  have hshape : sameShape t g e = sameShape s f d := by
    rw [sameShape, sameShape, h.identical (h.func hfg).sig (h.func hde.method).sig]
  rw [Decision.ofSelection_eq, Decision.ofSelection_eq]
  unfold Decision.ofReceiver?
  rw [Option.filter_some, Option.filter_some, h.reads.isInvalid hab, hname, hshape]
  cases s.isInvalid a with
  | true => rfl
  | false =>
    show Decision.ofReceiver t mode g e b = Decision.ofReceiver s mode f d a
    unfold Decision.ofReceiver
    rw [hname, hshape, isOrigin_eq h mode hfg hde hab, h.isInterface hab, h.identical hab hde.interface,
      h.satisfies hab hde.interface, if_congr (funcs_eq_iff h hfg hde.method) rfl rfl]

/-! ## Uses -/

/-- What two walks go by corresponds. -/
structure Search.Alike (k : Correspondence) (x y : Search) : Prop where
  tables : k.Between x.table y.table
  infos : List.Forall₂ (FileInfo.Alike k) x.unit.package.infos y.unit.package.infos
  registry : List.Forall₂ (MethodDeclaration.Alike k) x.registry.entries y.registry.entries
  mode : y.mode = x.mode

theorem Registry.eq_iff_method_eq (r : Registry) {d e : MethodDeclaration} (hd : d ∈ r.entries) (he : e ∈ r.entries) :
    d = e ↔ d.method = e.method :=
  ⟨congrArg _, List.inj_on_of_nodup_map r.distinct hd he⟩

/-- A list that corresponds to one with something in the middle has something that corresponds in the middle. -/
theorem exists_middle_right {α β : Type} {R : α → β → Prop} {before after : List α} {a : α} {bs : List β}
    (h : List.Forall₂ R (before ++ a :: after) bs) :
    ∃ before' b after', bs = before' ++ b :: after' ∧ List.Forall₂ R before before' ∧ R a b := by
  induction before generalizing bs with
  | nil =>
    cases h with
    | cons hab _ => exact ⟨[], _, _, rfl, .nil, hab⟩
  | cons x before ih =>
    cases h with
    | cons hxy h =>
      obtain ⟨before', b, after', rfl, hbefore, hab⟩ := ih h
      exact ⟨_ :: before', b, after', rfl, .cons hxy hbefore, hab⟩

theorem isFmtFunction_iff (h : k.Between s t) {x y : FileInfo} (hxy : x.Alike k y) (func : Expr) :
    IsFmtFunction t y func ↔ IsFmtFunction s x func := by
  refine and_congr_right fun _ => ?_
  rcases optionRel_cases (FileInfo.Alike.use? hxy func.id) with ⟨hx, hy⟩ | ⟨obj, obj', hx, hy, hobj⟩ <;> rw [hx, hy]
  · simp
  cases hobj with
  | @func f g hfg =>
    have hpackage : (t.func g).package = (s.func f).package := (h.func hfg).package
    simp [hpackage]
  | _ => simp

namespace Search.Alike

variable {x y : Search} {before before' : List Met} {info info' : FileInfo} {d e : MethodDeclaration} {item : Item}

theorem sole_iff (h : x.Alike k y) (hd : d ∈ x.registry.entries) (he : e ∈ y.registry.entries) (hde : d.Alike k e) :
    (∀ e' ∈ y.registry.entries, e'.interfaceName = e.interfaceName → e' = e) ↔
      ∀ d' ∈ x.registry.entries, d'.interfaceName = d.interfaceName → d' = d := by
  have hsame : ∀ {d' e' : MethodDeclaration}, d' ∈ x.registry.entries → e' ∈ y.registry.entries → d'.Alike k e' →
      ((e'.interfaceName = e.interfaceName → e' = e) ↔ (d'.interfaceName = d.interfaceName → d' = d)) := by
    intro d' e' hd' he' hde'
    rw [hde'.interfaceName, hde.interfaceName, y.registry.eq_iff_method_eq he' he, x.registry.eq_iff_method_eq hd' hd,
      funcs_eq_iff h.tables hde'.method hde.method]
  constructor
  · intro hall d' hd'
    obtain ⟨e', he', hde'⟩ := exists_of_mem_left h.registry hd'
    exact (hsame hd' he' hde').1 (hall e' he')
  · intro hall e' he'
    obtain ⟨d', hd', hde'⟩ := exists_of_mem_right h.registry he'
    exact (hsame hd' he' hde').2 (hall d' hd')

theorem any_named_eq (h : x.Alike k y) {a b : TypeId} (hab : k.types a b) (name : String) :
    ((y.table.named? b).any fun d => d.origin.isNone && d.name = name) =
      (x.table.named? a).any fun d => d.origin.isNone && d.name = name := by
  rcases optionRel_cases (h.tables.reads.named? hab) with ⟨hx, hy⟩ | ⟨d, e, hx, hy, hde⟩ <;> rw [hx, hy]
  have horigin : e.origin.isNone = d.origin.isNone := by
    rw [← Option.not_isSome, ← Option.not_isSome, isSome_of_optionRel hde.origin]
  rw [Option.any_some, Option.any_some, horigin, hde.name]

theorem declaredTypes_right (h : x.Alike k y) {name : String} {a : TypeId}
    (ha : a ∈ declaredTypesNamed x.table x.unit.package name) :
    ∃ b, k.types a b ∧ b ∈ declaredTypesNamed y.table y.unit.package name := by
  obtain ⟨⟨info, hinfo, pos, hdef⟩, hnamed⟩ := mem_declaredTypesNamed_iff.1 ha
  obtain ⟨info', hinfo', halike⟩ := exists_of_mem_left h.infos hinfo
  obtain ⟨⟨pos', obj⟩, hdef', -, hobj⟩ := exists_of_mem_left halike.defs hdef
  cases hobj with
  | typeName hab =>
    refine ⟨_, hab, mem_declaredTypesNamed_iff.2 ⟨⟨info', hinfo', pos', hdef'⟩, ?_⟩⟩
    rw [h.any_named_eq hab]
    exact hnamed

theorem declaredTypes_left (h : x.Alike k y) {name : String} {b : TypeId}
    (hb : b ∈ declaredTypesNamed y.table y.unit.package name) :
    ∃ a, k.types a b ∧ a ∈ declaredTypesNamed x.table x.unit.package name := by
  obtain ⟨⟨info', hinfo', pos', hdef'⟩, hnamed⟩ := mem_declaredTypesNamed_iff.1 hb
  obtain ⟨info, hinfo, halike⟩ := exists_of_mem_right h.infos hinfo'
  obtain ⟨⟨pos, obj⟩, hdef, -, hobj⟩ := exists_of_mem_right halike.defs hdef'
  cases hobj with
  | typeName hab =>
    refine ⟨_, hab, mem_declaredTypesNamed_iff.2 ⟨⟨info, hinfo, pos, hdef⟩, ?_⟩⟩
    rw [← h.any_named_eq hab]
    exact hnamed

theorem boundByAddress_iff (h : x.Alike k y) (hde : d.Alike k e) (b : Bindings) (var : String) :
    y.BoundByAddress b var e ↔ x.BoundByAddress b var d := by
  refine exists_congr fun target => and_congr_right fun _ => ?_
  constructor
  · rintro ⟨id', hid', hsat⟩
    obtain ⟨id, hids, hid⟩ := h.declaredTypes_left hid'
    rw [h.tables.satisfies hids hde.interface] at hsat
    exact ⟨id, hid, hsat⟩
  · rintro ⟨id, hid, hsat⟩
    obtain ⟨id', hids, hid'⟩ := h.declaredTypes_right hid
    rw [← h.tables.satisfies hids hde.interface] at hsat
    exact ⟨id', hid', hsat⟩

theorem justifies_selector_iff (h : x.Alike k y) (hbefore : List.Forall₂ (MetAlike k) before before')
    (hinfo : info.Alike k info') (hde : d.Alike k e) (node : Node) (operand : Expr) (field : Ident) :
    Justifies y before' info' e (.expr (.selector node operand field)) ↔
      Justifies x before info d (.expr (.selector node operand field)) := by
  rcases selects_cases hinfo node with ⟨called, recv, called', recv', hsel, hsel', hcalled, hrecv⟩ | ⟨hnone, hnone'⟩
  · have hsig : y.sameSignature called' e = x.sameSignature called d :=
      h.tables.identical (h.tables.func hde.method).sig (h.tables.func hcalled).sig
    have hcopy : ∀ b var, BoundByCopy b var e ↔ BoundByCopy b var d := by
      intro b var
      rw [BoundByCopy, BoundByCopy, hde.interfaceName]
    rw [Search.justifies_selector_iff hsel', Search.justifies_selector_iff hsel, hde.name, h.tables.reads.name hcalled, h.mode,
      ofSelection_eq h.tables x.mode hcalled hde hrecv, hsig]
    simp only [hcopy, bindingsAfter_eq h.tables hbefore, h.boundByAddress_iff hde]
  · constructor
    · intro hjust
      cases hjust with
      | selected hsel | copied hsel | pointed hsel => exact absurd hsel (hnone' _ _)
    · intro hjust
      cases hjust with
      | selected hsel | copied hsel | pointed hsel => exact absurd hsel (hnone _ _)

theorem justifies_call_iff (h : x.Alike k y) (hinfo : info.Alike k info') (hd : d ∈ x.registry.entries)
    (he : e ∈ y.registry.entries) (hde : d.Alike k e) (node : Node) (func : Expr) (typeArgs : List TypeExpr)
    (args : List Expr) (spread : Bool) :
    Justifies y before' info' e (.expr (.call node func typeArgs args spread)) ↔
      Justifies x before info d (.expr (.call node func typeArgs args spread)) := by
  have harg : ∀ arg : Expr, (∃ id, info'.type? arg.id = some id ∧ y.table.implements id e.interface = true) ↔
      ∃ id, info.type? arg.id = some id ∧ x.table.implements id d.interface = true := by
    intro arg
    rcases optionRel_cases (hinfo.type? h.tables arg.id) with ⟨hx, hy⟩ | ⟨a, b, hx, hy, hab⟩ <;> rw [hx, hy]
    · simp
    · simp [h.tables.implements hab hde.interface]
  rw [Search.justifies_call_iff, Search.justifies_call_iff, isFmtFunction_iff h.tables hinfo, hde.name,
    h.tables.isStringerSignature (h.tables.func hde.method).sig, h.sole_iff hd he hde]
  simp only [harg]

/-- What is met makes a method used if and only if it makes the corresponding method used. -/
theorem justifies_iff (h : x.Alike k y) (hbefore : List.Forall₂ (MetAlike k) before before') (hinfo : info.Alike k info')
    (hd : d ∈ x.registry.entries) (he : e ∈ y.registry.entries) (hde : d.Alike k e) :
    Justifies y before' info' e item ↔ Justifies x before info d item := by
  cases item with
  | varSpec spec => exact ⟨nofun, nofun⟩
  | expr expr =>
    cases expr with
    | selector node operand field => exact h.justifies_selector_iff hbefore hinfo hde node operand field
    | call node func typeArgs args spread => exact h.justifies_call_iff hinfo hd he hde node func typeArgs args spread
    | _ => exact ⟨nofun, nofun⟩

theorem justified_iff (h : x.Alike k y) {walk walk' : List Met} (hwalk : List.Forall₂ (MetAlike k) walk walk')
    (hd : d ∈ x.registry.entries) (he : e ∈ y.registry.entries) (hde : d.Alike k e) :
    Justified y walk' e ↔ Justified x walk d := by
  constructor
  · rintro ⟨earlier', info', item, later', rfl, hjust⟩
    obtain ⟨earlier, ⟨info, item'⟩, later, rfl, hearlier, hmet⟩ := exists_middle_right hwalk.flip
    obtain ⟨hitem, hinfo⟩ := hmet
    cases hitem
    exact ⟨earlier, info, _, later, rfl, (h.justifies_iff hearlier.flip hinfo hd he hde).1 hjust⟩
  · rintro ⟨earlier, info, item, later, rfl, hjust⟩
    obtain ⟨earlier', ⟨info', item'⟩, later', rfl, hearlier, hmet⟩ := exists_middle_right hwalk
    obtain ⟨hitem, hinfo⟩ := hmet
    cases hitem
    exact ⟨earlier', info', _, later', rfl, (h.justifies_iff hearlier hinfo hd he hde).2 hjust⟩

end Search.Alike

/-! ## Reports -/

theorem contains_track_iff_justified {registry : Registry} {options : Options} {d : MethodDeclaration}
    (hd : d ∈ registry.entries) : (track u registry filter options).contains d.method = true ↔
      Justified ⟨u, registry, options.genericMatch⟩ (u.walk filter) d := by
  rw [UsedSet.contains, List.contains_iff_mem, mem_methods_track_iff]
  constructor
  · rintro ⟨e, he, heq, hjust⟩
    obtain rfl := (registry.eq_iff_method_eq he hd).2 heq
    exact hjust
  · intro hjust
    exact ⟨d, hd, rfl, hjust⟩

/-- Whether the analysis of a package finds that a method is used. -/
def CheckedPackage.finds (u : CheckedPackage) (filter : PathFilter) (options : Options) (d : MethodDeclaration) : Bool :=
  (track u (collect u filter options) filter options).contains d.method

theorem analyzeUnit_eq {options : Options} (hpath : v.package.path = u.package.path)
    (hentries : List.Forall₂ (fun d e => Diagnostic.ofDeclaration e = .ofDeclaration d ∧
      v.finds filter options e = u.finds filter options d) (collect u filter options).entries (collect v filter options).entries) :
    analyzeUnit v filter options = analyzeUnit u filter options := by
  have hunused : List.Forall₂ Eq
      (((collect u filter options).unusedEntries (track u (collect u filter options) filter options)).map
        Diagnostic.ofDeclaration)
      (((collect v filter options).unusedEntries (track v (collect v filter options) filter options)).map
        Diagnostic.ofDeclaration) := by
    refine List.rel_map (fun _ _ hde => hde.1.symm) (List.rel_filter (fun d e hde => ?_) hentries)
    show (!u.finds filter options d) = true ↔ (!v.finds filter options e) = true
    rw [hde.2]
  have hdiagnostics : (analyzeUnit v filter options).diagnostics = (analyzeUnit u filter options).diagnostics := by
    show report _ _ = report _ _
    rw [report_eq fun _ hd => used_of_mem_collect hd, report_eq fun _ hd => used_of_mem_collect hd]
    exact congrArg Diagnostic.sort (List.forall₂_eq_eq_eq ▸ hunused).symm
  have hdeclared : (analyzeUnit v filter options).declared = (analyzeUnit u filter options).declared :=
    hentries.length_eq.symm
  -- what is declared and not reported is used
  have hused : (analyzeUnit v filter options).used = (analyzeUnit u filter options).used := by
    have htotal := (analyzeUnit_accounts u filter options).total
    have htotal' := (analyzeUnit_accounts v filter options).total
    rw [hdiagnostics] at htotal'
    omega
  have hpackage : (analyzeUnit v filter options).package = (analyzeUnit u filter options).package := hpath
  calc analyzeUnit v filter options = ⟨(analyzeUnit v filter options).package, (analyzeUnit v filter options).declared,
        (analyzeUnit v filter options).used, (analyzeUnit v filter options).diagnostics⟩ := rfl
    _ = analyzeUnit u filter options := by rw [hpackage, hdeclared, hused, hdiagnostics]

end UnusedMethods.Methods
