import Mathlib.Data.List.Perm.Basic
import UnusedMethods.Proofs.GenericDefinitions

/-!
# What is recorded at the places of package-level names

The declarations of a package stand at places of their own if no two names of a file stand at the same place. What is
recorded for one declaration is then left alone when the others are checked, in this phase and in all later ones. In
particular a declared type is on record at the place of its name when the check is over.
-/

namespace UnusedMethods.Typing

open Syntax UnusedMethods.Types Checking

/-! ## The places of declarations -/

/-- The places of the names in a declaration. -/
def Declaration.places : Declaration → List Pos
  | .alias spec | .type spec => spec.places
  | .func f | .method f _ => f.places
  | .var spec => spec.places
  | .consts specs => ValueSpec.placesAll specs

/-- The places of the names in declarations, with the files in which they are. -/
def placesIn (ds : List (CurrentFile × Declaration)) : List (Nat × Pos) :=
  ds.flatMap fun p => p.2.places.map (p.1.index, ·)

/-- The places of names in types that are called `_`. Nothing is declared by them. -/
def blankPlaces : TopDecl → List Pos
  | .decl (.type specs) => (specs.filter (·.name.isBlank)).flatMap TypeSpec.places
  | _ => []

theorem mem_placesIn {ds : List (CurrentFile × Declaration)} {file : CurrentFile} {d : Declaration} (hd : (file, d) ∈ ds)
    {pos : Pos} (hpos : pos ∈ d.places) : (file.index, pos) ∈ placesIn ds :=
  List.mem_flatMap.2 ⟨_, hd, List.mem_map_of_mem hpos⟩

theorem placesAll_eq_flatMap (specs : List ValueSpec) : ValueSpec.placesAll specs = specs.flatMap ValueSpec.places := by
  induction specs with
  | nil => rfl
  | cons s ss ih => rw [ValueSpec.placesAll, ih, List.flatMap_cons]

theorem perm_places_group (group : TopDecl) :
    ((declarationsOf group).flatMap Declaration.places ++ blankPlaces group).Perm group.places := by
  cases group with
  | func f =>
    unfold declarationsOf
    cases hrecv : f.recv <;> simp [hrecv, blankPlaces, Declaration.places, TopDecl.places]
  | decl d =>
    cases d with
    | var specs =>
      show ((specs.map Declaration.var).flatMap Declaration.places ++ []).Perm (ValueSpec.placesAll specs)
      rw [placesAll_eq_flatMap, List.append_nil, List.flatMap_map]
      exact .refl _
    | const specs =>
      show ([Declaration.consts specs].flatMap Declaration.places ++ []).Perm (ValueSpec.placesAll specs)
      simp [Declaration.places]
    | type specs =>
      show ((specs.filterMap typeDeclaration?).flatMap Declaration.places ++
        (specs.filter (·.name.isBlank)).flatMap TypeSpec.places).Perm (specs.flatMap TypeSpec.places)
      induction specs with
      | nil => exact .refl _
      | cons spec specs ih =>
        by_cases hblank : spec.name.isBlank = true
        · have hnone : typeDeclaration? spec = none := by simp [typeDeclaration?, hblank]
          rw [List.filterMap_cons_none hnone, List.filter_cons, if_pos hblank, List.flatMap_cons, List.flatMap_cons]
          exact (List.perm_append_comm_assoc ..).trans (ih.append_left _)
        · obtain ⟨d, hsome, hplaces⟩ : ∃ d, typeDeclaration? spec = some d ∧ d.places = spec.places := by
            by_cases halias : spec.isAlias = true
            · exact ⟨.alias spec, by simp [typeDeclaration?, hblank, halias], rfl⟩
            · exact ⟨.type spec, by simp [typeDeclaration?, hblank, halias], rfl⟩
          rw [List.filterMap_cons_some hsome, List.filter_cons, if_neg hblank, List.flatMap_cons, List.flatMap_cons, hplaces,
            List.append_assoc]
          exact ih.append_left _

/-- The declarations of a file stand at places of their own, and not at those of types that declare nothing. -/
theorem nodup_places {file : SourceFile} (h : file.PlacesApart) :
    ((file.decls.flatMap declarationsOf).flatMap Declaration.places ++ file.decls.flatMap blankPlaces).Nodup := by
  have hperm : ((file.decls.flatMap declarationsOf).flatMap Declaration.places ++ file.decls.flatMap blankPlaces).Perm
      file.places := by
    rw [List.flatMap_assoc]
    refine (List.flatMap_append_perm ..).trans (List.Perm.flatMap_left _ fun group _ => ?_)
    exact perm_places_group group
  exact hperm.nodup_iff.2 h

theorem placesIn_declarationsIn (files : List (CurrentFile × SourceFile)) :
    placesIn (declarationsIn files) =
      files.flatMap fun q => ((q.2.decls.flatMap declarationsOf).flatMap Declaration.places).map (q.1.index, ·) := by
  rw [placesIn, declarationsIn, List.flatMap_assoc]
  refine List.flatMap_congr fun q _ => ?_
  rw [List.flatMap_map, List.map_flatMap]

section Files

variable {files : List (CurrentFile × SourceFile)}

theorem nodup_placesIn (hindex : (files.map (·.1.index)).Nodup) (hapart : ∀ q ∈ files, q.2.PlacesApart) :
    (placesIn (declarationsIn files)).Nodup := by
  rw [placesIn_declarationsIn, List.nodup_flatMap]
  constructor
  · intro q hq
    exact List.Nodup.map (fun _ _ h => (Prod.mk.inj h).2) (List.nodup_append.1 (nodup_places (hapart q hq))).1
  · refine (List.pairwise_map.1 hindex).imp fun hne p hp hp' => ?_
    obtain ⟨pos, -, rfl⟩ := List.mem_map.1 hp
    obtain ⟨pos', -, heq⟩ := List.mem_map.1 hp'
    exact hne (Prod.mk.inj heq).1.symm

/-- No declaration stands at the place of a type that declares nothing. -/
theorem not_mem_placesIn_of_blank (hindex : (files.map (·.1.index)).Nodup) (hapart : ∀ q ∈ files, q.2.PlacesApart)
    {q : CurrentFile × SourceFile} (hq : q ∈ files) {pos : Pos} (hpos : pos ∈ q.2.decls.flatMap blankPlaces) :
    (q.1.index, pos) ∉ placesIn (declarationsIn files) := by
  rw [placesIn_declarationsIn]
  intro hmem
  obtain ⟨q', hq', hmem⟩ := List.mem_flatMap.1 hmem
  obtain ⟨pos', hpos', heq⟩ := List.mem_map.1 hmem
  obtain ⟨hsame, rfl⟩ := Prod.mk.inj heq
  obtain rfl := List.inj_on_of_nodup_map hindex hq' hq hsame
  exact (List.nodup_append.1 (nodup_places (hapart q' hq))).2.2 pos' hpos' pos' hpos rfl

end Files

/-! ## Entries -/

/-- The declarations for which something has been entered. -/
def declarationsFor (es : List (CurrentFile × Entry)) : List (CurrentFile × Declaration) :=
  es.map fun q => (q.1, q.2.declaration)

/-- The entry has no name at the place. -/
def Avoids (file : Nat) (pos : Pos) (q : CurrentFile × Entry) : Prop :=
  q.1.index = file → pos ∉ q.2.declaration.places

section Entries

variable {es : List (CurrentFile × Entry)}

theorem declaration_eq_of_mem_places (hnodup : (placesIn (declarationsFor es)).Nodup) {q q' : CurrentFile × Entry}
    (hq : q ∈ es) (hq' : q' ∈ es) (hindex : q.1.index = q'.1.index) {pos : Pos} (hpos : pos ∈ q.2.declaration.places)
    (hpos' : pos ∈ q'.2.declaration.places) : q.2.declaration = q'.2.declaration := by
  by_contra hne
  have hdisjoint := (List.nodup_flatMap.1 hnodup).2
  have : Std.Symm (Function.onFun List.Disjoint fun p : CurrentFile × Declaration => p.2.places.map (p.1.index, ·)) :=
    ⟨fun _ _ h _ hp hq => h hq hp⟩
  refine hdisjoint.forall (List.mem_map_of_mem hq) (List.mem_map_of_mem hq') (fun heq => hne (Prod.mk.inj heq).2)
    (List.mem_map_of_mem hpos) ?_
  exact List.mem_map.2 ⟨pos, hpos', by rw [hindex]⟩

/-- The entries before and after one have no names at its places. -/
theorem avoids_of_nodup {q : CurrentFile × Entry} (hnodup : (placesIn (declarationsFor (q :: es))).Nodup) {pos : Pos}
    (hpos : pos ∈ q.2.declaration.places) {q' : CurrentFile × Entry} (hq' : q' ∈ es) : Avoids q.1.index pos q' := by
  intro hindex hpos'
  have hcons : placesIn (declarationsFor (q :: es)) =
      q.2.declaration.places.map (q.1.index, ·) ++ placesIn (declarationsFor es) := List.flatMap_cons
  rw [hcons, List.nodup_append] at hnodup
  refine hnodup.2.2 (q.1.index, pos) (List.mem_map_of_mem hpos) (q.1.index, pos) ?_ rfl
  rw [← hindex]
  exact mem_placesIn (List.mem_map.2 ⟨q', hq', rfl⟩) hpos'

theorem avoids_of_not_mem {file : Nat} {pos : Pos} (h : (file, pos) ∉ placesIn (declarationsFor es))
    {q : CurrentFile × Entry} (hq : q ∈ es) : Avoids file pos q := by
  rintro rfl hpos
  exact h (mem_placesIn (List.mem_map.2 ⟨q, hq, rfl⟩) hpos)

end Entries

/-! ## The phases -/

/-- A step that leaves a part alone, and then one that does so for every result which the first can have. -/
theorem Checking.Keeps.bindOf {α β γ : Type} {part : Notes → γ} {x : Checking α} {f : α → Checking β} {Q : α → Prop}
    (hx : Keeps part x) (hQ : ∀ c n t, Q (x.eval c n t).1.1) (hf : ∀ a, Q a → Keeps part (f a)) : Keeps part (x >>= f) := by
  intro c n t
  rw [eval_bind, hf _ (hQ c n t) c _ _]
  exact hx c n t

section Phases

variable {es : List (CurrentFile × Entry)} {file : Nat} {pos : Pos}

/-- A phase leaves a record alone if it is not about one of the places at which the phase records something. -/
theorem keeps_forEach {α : Type} {items : List (CurrentFile × α)} {f : α → Checking Unit}
    (h : ∀ q ∈ items, ∃ P, Records P (f q.2) ∧ (q.1.index = file → ¬ P pos)) :
    Keeps (fun n => n.recordAt file pos) (Checking.forEach items f) := by
  refine .forM fun q hq => ?_
  obtain ⟨P, hrecords, hP⟩ := h q hq
  exact hrecords.keeps_inFile hP

/-- A phase that checks entries of some kinds leaves alone what is recorded for others. -/
theorem keeps_phase {f : Entry → Checking Unit}
    (hf : ∀ q ∈ es, (∀ P : Pos → Prop, Records P (f q.2)) ∨
      Avoids file pos q ∧ ∀ P : Pos → Prop, (∀ p ∈ q.2.declaration.places, P p) → Records P (f q.2)) :
    Keeps (fun n => n.recordAt file pos) (Checking.forEach es f) := by
  refine keeps_forEach fun q hq => ?_
  rcases hf q hq with hrecords | ⟨havoids, hrecords⟩
  · exact ⟨fun _ => False, hrecords _, fun _ h => h⟩
  · exact ⟨(· ∈ q.2.declaration.places), hrecords _ fun _ h => h, havoids⟩

theorem enters_enter {P : Pos → Prop} (d : Declaration) (h : ∀ p ∈ d.places, P p) : Enters .package P (enter d) := by
  have hnames : ∀ (obj : Object) (spec : ValueSpec), Enters .package P (enterNames obj spec) := by
    refine fun obj spec => .forM fun name _ => ?_
    split
    · exact .definePackageLevel _ _
    · exact .pure _
  cases d with
  | «alias» spec => exact .pure _
  | type spec =>
    obtain ⟨hname, -⟩ := List.forall_mem_cons.1 h
    exact .after (.reads .readContext) fun _ => .after (.lift _) fun _ => .bind (.declare _ hname _) fun _ => .pure _
  | func f =>
    have hname := (FuncDecl.forall_mem_places h).name
    refine .bind (.after (.reads .readContext) fun _ => .after (.lift _) fun id => ?_) fun _ => .pure _
    have hnote : Enters .package P (do
        Checking.noteDef f.name.pos (.func id)
        return id) := .after (.noteDef hname _) fun _ => .pure _
    dsimp only
    split
    · exact .bind (.definePackageLevel _ _) fun _ => hnote
    · exact hnote
  | method f recv => exact .pure _
  | var spec => exact .bind (hnames _ _) fun _ => .pure _
  | consts specs => exact .bind (.forM fun spec _ => hnames _ spec) fun _ => .pure _

theorem keeps_enterAll {ds : List (CurrentFile × Declaration)} (h : (file, pos) ∉ placesIn ds) :
    Keeps (fun n => n.recordAt file pos) (enterAll ds) := by
  refine .mapM fun p hp => .bind ((enters_enter p.2 fun _ h => h).records.keeps_inFile ?_) fun _ => .pure _
  rintro rfl hpos
  exact h (mem_placesIn hp hpos)

theorem keeps_resolveAliases_def? (h : ∀ q ∈ es, q.2.declaration.kind = .alias → Avoids file pos q) :
    Keeps (fun n => n.recordAt file pos) (resolveAliases es) := by
  refine keeps_phase fun q hq => ?_
  obtain ⟨f, e⟩ := q
  cases e with
  | «alias» spec => exact .inr ⟨h _ hq rfl, fun P hP => (enters_resolveAlias spec hP).records⟩
  | _ => exact .inl fun P => (Quiet.pure _).records

theorem keeps_resolveDeclaredTypes_def?
    (h : ∀ q ∈ es, ∀ spec id, q.2 = .type spec id → q.1.index = file → pos ∉ placesOf spec.funcNames) :
    Keeps (fun n => n.recordAt file pos) (resolveDeclaredTypes es) := by
  refine keeps_forEach fun q hq => ?_
  obtain ⟨f, e⟩ := q
  cases e with
  | type spec id =>
    refine ⟨(· ∈ placesOf spec.funcNames), (quiet_resolveDeclaredType spec id fun x hx => ?_).records, h _ hq spec id rfl⟩
    exact mem_placesOf hx
  | _ => exact ⟨fun _ => False, (Quiet.pure _).records, fun _ h => h⟩

/-- What a step that goes through a list gives comes from the elements of the list. -/
theorem exists_of_mem_mapM {α β : Type} {f : α → Checking β} {as : List α} {c : Context} {n : Notes} {t : Table} {b : β}
    (h : b ∈ ((as.mapM f).eval c n t).1.1) : ∃ a ∈ as, ∃ n' t', b = ((f a).eval c n' t').1.1 := by
  induction as generalizing n t with
  | nil => cases h
  | cons a as ih =>
    rw [List.mapM_cons, eval_bind, eval_bind, eval_pure] at h
    rcases List.mem_cons.1 h with rfl | h
    · exact ⟨a, by simp, n, t, rfl⟩
    · obtain ⟨a', ha', hb⟩ := ih h
      exact ⟨a', by simp [ha'], hb⟩

theorem exists_entry_of_mem_attachMethods {c : Context} {n : Notes} {t : Table} {p : CurrentFile × AttachedMethod}
    (h : p ∈ ((attachMethods es).eval c n t).1.1) : (p.1, .method p.2.decl p.2.recv) ∈ es := by
  unfold attachMethods at h
  rw [eval_bind, eval_pure] at h
  obtain ⟨ms, hms, hp⟩ := List.mem_flatten.1 h
  obtain ⟨⟨f, e⟩, he, n', t', rfl⟩ := exists_of_mem_mapM hms
  cases e with
  | method decl recv =>
    -- there is at most one attached method for an entry, and it is for the entry
    have heval : ∃ n₁ t₁, p ∈ ((attachMethod decl recv).eval { c with file := f } n₁ t₁).1.1.map (f, ·) := ⟨n', t', hp⟩
    obtain ⟨n₁, t₁, hp⟩ := heval
    obtain ⟨m, hm, rfl⟩ := List.mem_map.1 hp
    unfold attachMethod at hm
    rw [eval_bind] at hm
    split at hm
    · cases hm
    · rw [eval_bind, eval_bind, eval_bind] at hm
      dsimp only at hm
      split at hm
      · rw [eval_bind, eval_bind, eval_pure, List.mem_singleton] at hm
        rw [hm]
        exact he
      · rw [eval_bind, eval_pure, List.mem_singleton] at hm
        rw [hm]
        exact he
  | _ => cases hp

/-- Methods, functions, variables and constants are checked without a record for a type. -/
theorem keeps_checkMembers (hrecv : ∀ q ∈ es, ∀ f recv, q.2 = .method f recv → f.recv = some recv)
    (h : ∀ q ∈ es, q.2.declaration.kind ≠ .type → Avoids file pos q) :
    Keeps (fun n => n.recordAt file pos) (checkMembers es) := by
  have hskip : ∀ P : Pos → Prop, Records P (Pure.pure () : Checking Unit) := fun P => (Quiet.pure ()).records
  have hattach : Keeps (fun n => n.recordAt file pos) (attachMethods es) := by
    refine .bind (.mapM fun q hq => ?_) fun _ => .pure _
    obtain ⟨f, e⟩ := q
    cases e with
    | method decl recv =>
      exact ((quiet_attachMethod decl recv fun _ h => h).bind fun _ => .pure _).records.keeps_inFile (h _ hq nofun)
    | _ => exact .pure _
  refine .bindOf (Q := fun methods => ∀ p ∈ methods, (p.1, .method p.2.decl p.2.recv) ∈ es) hattach
    (fun c n t p hp => exists_entry_of_mem_attachMethods hp) fun methods hmethods => ?_
  refine .bind ?_ fun _ => .bind (.lift _) fun order => .bind (.lift _) fun _ => .bind ?_ fun _ => .bind ?_ fun _ =>
    .bind ?_ fun _ => .bind ?_ fun _ => .bind ?_ fun _ => ?_
  · refine keeps_phase fun q hq => ?_
    obtain ⟨f, e⟩ := q
    cases e with
    | func decl id => exact .inr ⟨h _ hq nofun, fun P hP => (quiet_resolveFunc decl id hP).records⟩
    | _ => exact .inl hskip
  · refine keeps_phase fun q hq => ?_
    obtain ⟨f, e⟩ := q
    cases e with
    | consts specs => exact .inr ⟨h _ hq nofun, fun P hP =>
        (enters_checkConstSpecs .package specs hP).records⟩
    | _ => exact .inl hskip
  · refine keeps_phase fun q hq => ?_
    obtain ⟨f, e⟩ := q
    cases e with
    | var spec => exact .inr ⟨h _ hq nofun, fun P hP => (enters_declareTyped spec hP).records⟩
    | _ => exact .inl hskip
  · refine keeps_phase fun q hq => ?_
    obtain ⟨f, e⟩ := q
    cases e with
    | var spec =>
      refine .inr ⟨h _ hq nofun, fun P hP => ?_⟩
      dsimp only
      split
      · exact (enters_checkVarSpec .package spec hP).records
      · exact hskip P
    | _ => exact .inl hskip
  · refine keeps_phase fun q hq => ?_
    obtain ⟨f, e⟩ := q
    cases e with
    | var spec => exact .inr ⟨h _ hq nofun, fun P hP => (quiet_checkTypedValues spec hP).records⟩
    | _ => exact .inl hskip
  · refine keeps_phase fun q hq => ?_
    obtain ⟨f, e⟩ := q
    cases e with
    | func decl id => exact .inr ⟨h _ hq nofun, fun P hP => (quiet_checkFunc decl id hP).records⟩
    | _ => exact .inl hskip
  · refine keeps_forEach fun p hp => ?_
    have hmem := hmethods p hp
    exact ⟨(· ∈ p.2.decl.places), (quiet_checkMethod p.2 (hrecv _ hmem _ _ rfl) fun _ h => h).records, h _ hmem nofun⟩

theorem keeps_checkEntries (hrecv : ∀ q ∈ es, ∀ f recv, q.2 = .method f recv → f.recv = some recv)
    (h : ∀ q ∈ es, q.2.declaration.kind ≠ .type → Avoids file pos q)
    (htypes : ∀ q ∈ es, ∀ spec id, q.2 = .type spec id → q.1.index = file → pos ∉ placesOf spec.funcNames) :
    Keeps (fun n => n.recordAt file pos) (checkEntries es) := by
  refine .bind (.lift _) fun _ => .bind ?_ fun _ => .bind ?_ fun _ => keeps_checkMembers hrecv h
  · exact keeps_resolveAliases_def? fun q hq hkind => h q hq (by rw [hkind]; exact nofun)
  · exact keeps_resolveDeclaredTypes_def? htypes

theorem keeps_checkEntries_of_not_mem (hrecv : ∀ q ∈ es, ∀ f recv, q.2 = .method f recv → f.recv = some recv)
    (hpos : (file, pos) ∉ placesIn (declarationsFor es)) : Keeps (fun n => n.recordAt file pos) (checkEntries es) := by
  refine keeps_checkEntries hrecv (fun q hq _ => avoids_of_not_mem hpos hq) fun q hq spec id heq hindex hmem => ?_
  refine avoids_of_not_mem hpos hq hindex ?_
  rw [heq]
  exact List.mem_cons_of_mem _ hmem

/-- There are records about the same files as before. -/
theorem size_checkEntries {n : Notes} (hrecv : ∀ q ∈ es, ∀ f recv, q.2 = .method f recv → f.recv = some recv)
    (hindex : ∀ q ∈ es, q.1.index < n.infos.size) (c : Context) (t : Table) :
    ((checkEntries es).eval c n t).1.2.infos.size = n.infos.size := by
  -- no entry is in a file beyond the last one
  have hbeyond : (n.infos.size, ⟨0, 0⟩) ∉ placesIn (declarationsFor es) := by
    intro hmem
    obtain ⟨p, hp, hmem⟩ := List.mem_flatMap.1 hmem
    obtain ⟨q, hq, rfl⟩ := List.mem_map.1 hp
    obtain ⟨pos, -, heq⟩ := List.mem_map.1 hmem
    exact Nat.ne_of_lt (hindex q hq) (Prod.mk.inj heq).1
  exact (keeps_checkEntries_of_not_mem hrecv hbeyond).size c n t

end Phases

/-! ## Declared types -/

theorem def?_noteDef {c : Context} {n : Notes} (hfile : c.file.index < n.infos.size) (pos : Pos) (obj : Object) (t : Table) :
    ((Checking.noteDef pos obj).eval c n t).1.2.def? c.file.index pos = some obj := by
  show ((n.infos.modify c.file.index fun i => { i with defs := (pos, obj) :: i.defs.filter fun d => d.1 != pos })[
    c.file.index]?.bind fun info => info.def? pos) = some obj
  rw [Array.getElem?_modify, if_pos rfl, Array.getElem?_eq_getElem hfile]
  simp [FileInfo.def?]

theorem def?_declare {c : Context} {n : Notes} (hfile : c.file.index < n.infos.size) {x : Ident} (hblank : x.isBlank = false)
    (obj : Object) (t : Table) :
    ((Checking.declare .package x obj).eval c n t).1.2.def? c.file.index x.pos = some obj := by
  unfold Checking.declare
  rw [hblank]
  exact def?_noteDef (n := { n with scope := n.scope.insert x.name obj }) hfile x.pos obj t

theorem eval_enterAll_cons (file : CurrentFile) (d : Declaration) (ds : List (CurrentFile × Declaration)) (c : Context)
    (n : Notes) (t : Table) :
    (enterAll ((file, d) :: ds)).eval c n t = Checking.eval (do
      let es ← enterAll ds
      return (file, ((enter d).eval { c with file } n t).1.1) :: es) c ((enter d).eval { c with file } n t).1.2
      ((enter d).eval { c with file } n t).2 := by
  unfold enterAll
  rw [List.mapM_cons]
  rfl

theorem def?_enterAll {ds : List (CurrentFile × Declaration)} {c : Context} {n : Notes} {t : Table}
    (hnodup : (placesIn ds).Nodup) (hindex : ∀ p ∈ ds, p.1.index < n.infos.size)
    (hblank : ∀ p ∈ ds, ∀ spec, p.2 = .type spec → spec.name.isBlank = false) {file : CurrentFile} {spec : TypeSpec}
    {id : TypeId} (h : (file, .type spec id) ∈ ((enterAll ds).eval c n t).1.1) :
    ((enterAll ds).eval c n t).1.2.def? file.index spec.name.pos = some (.typeName id) := by
  induction ds generalizing n t with
  | nil => cases h
  | cons p ds ih =>
    obtain ⟨file', d⟩ := p
    have hcons : placesIn ((file', d) :: ds) = d.places.map (file'.index, ·) ++ placesIn ds := List.flatMap_cons
    rw [hcons, List.nodup_append] at hnodup
    rw [eval_enterAll_cons, eval_bind, eval_pure] at h ⊢
    rcases List.mem_cons.1 h with heq | h
    · -- this declaration is on record, and the others leave the record alone
      cases d with
      | type spec' =>
        obtain ⟨rfl, heq⟩ := Prod.mk.inj heq
        cases heq
        refine ((keeps_enterAll (fun hmem => ?_)).def? c _ _).trans ?_
        · exact hnodup.2.2 _ (List.mem_map_of_mem (List.mem_cons_self ..)) _ hmem rfl
        · exact def?_declare (c := { c with file := file }) (hindex _ (List.mem_cons_self ..))
            (hblank _ (List.mem_cons_self ..) spec rfl) _ _
      | _ => cases (Prod.mk.inj heq).2
    · refine ih hnodup.2.1 (fun p hp => ?_) (fun p hp => hblank p (List.mem_cons_of_mem _ hp)) h
      have hsize := (enters_enter (P := fun _ => True) d fun _ _ => trivial).records.size { c with file := file' } n t
      dsimp only at hsize
      rw [hsize]
      exact hindex p (List.mem_cons_of_mem _ hp)

/-- The entries of a package: they stand at places of their own in files that there are, and methods have receivers. -/
structure Placed (es : List (CurrentFile × Entry)) (n : Notes) : Prop where
  nodup : (placesIn (declarationsFor es)).Nodup
  recv : ∀ q ∈ es, ∀ f recv, q.2 = .method f recv → f.recv = some recv
  index : ∀ q ∈ es, q.1.index < n.infos.size

namespace Placed

variable {es : List (CurrentFile × Entry)} {n : Notes} {file : CurrentFile} {spec : TypeSpec} {id : TypeId}

/-- The name of a type is none of the names that are in it. -/
theorem nodup_places (h : Placed es n) {q : CurrentFile × Entry} (hq : q ∈ es) : q.2.declaration.places.Nodup := by
  have hnodup := (List.nodup_flatMap.1 h.nodup).1 (q.1, q.2.declaration) (List.mem_map.2 ⟨q, hq, rfl⟩)
  exact List.Nodup.of_map _ hnodup

theorem avoids (h : Placed es n) (hmem : (file, .type spec id) ∈ es) {pos : Pos} (hpos : pos ∈ spec.places)
    {q : CurrentFile × Entry} (hq : q ∈ es) (hkind : q.2.declaration.kind ≠ .type) : Avoids file.index pos q := by
  intro hindex hpos'
  have heq := declaration_eq_of_mem_places h.nodup hq hmem hindex hpos' hpos
  rw [heq] at hkind
  exact hkind rfl

theorem keeps_checkMembers (h : Placed es n) (hmem : (file, .type spec id) ∈ es) {pos : Pos} (hpos : pos ∈ spec.places) :
    Keeps (fun n => n.recordAt file.index pos) (checkMembers es) :=
  Typing.keeps_checkMembers h.recv fun _ hq hkind => h.avoids hmem hpos hq hkind

theorem keeps_name (h : Placed es n) (hmem : (file, .type spec id) ∈ es) :
    Keeps (fun n => n.recordAt file.index spec.name.pos) (checkEntries es) := by
  have hname : spec.name.pos ∈ spec.places := List.mem_cons_self ..
  refine keeps_checkEntries h.recv (fun q hq hkind => h.avoids hmem hname hq hkind) fun q hq spec' id' hq' hindex hpos => ?_
  obtain ⟨file', e⟩ := q
  cases hq'
  have heq := declaration_eq_of_mem_places h.nodup hq hmem hindex (List.mem_cons_of_mem _ hpos) hname
  cases heq
  have hnodup : spec.places.Nodup := h.nodup_places hmem
  exact (List.nodup_cons.1 hnodup).1 hpos

end Placed

end UnusedMethods.Typing
