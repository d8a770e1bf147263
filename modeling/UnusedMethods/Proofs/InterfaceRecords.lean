import UnusedMethods.Proofs.ExplicitMethods

/-!
# Records about the interfaces of a package

What the records about a checked package say about the types that are declared at the top level of its files: a type that is
written as an interface is on record at the place of its name, and so are its methods at the places of theirs; a type that is
called `_` is not on record; no two methods are the same function. This is so at every stage of a program, since the records
about a package and the definitions of its types do not change when further packages are checked.
-/

namespace UnusedMethods.Syntax

/-- The types that are declared at the top level of a file. -/
def SourceFile.typeSpecs (file : SourceFile) : List TypeSpec :=
  file.decls.flatMap fun
    | .decl (.type specs) => specs
    | _ => []

/-- Whether a new type is declared, and not another name for a type. The name `_` declares nothing. -/
def TypeSpec.declaresType (spec : TypeSpec) : Bool := !spec.isAlias && !spec.name.isBlank

end UnusedMethods.Syntax

namespace UnusedMethods.Typing

open Syntax UnusedMethods.Types Checking

variable {spec : TypeSpec}

/-! ## Declarations and type specs -/

theorem typeDeclaration?_of_declaresType (h : spec.declaresType = true) : typeDeclaration? spec = some (.type spec) := by
  unfold TypeSpec.declaresType at h
  simp_all [typeDeclaration?]

theorem mem_declarationsOf_of_mem_typeSpecs {file : SourceFile} (hspec : spec ∈ file.typeSpecs)
    (h : spec.declaresType = true) : .type spec ∈ file.decls.flatMap declarationsOf := by
  obtain ⟨group, hgroup, hspec⟩ := List.mem_flatMap.1 hspec
  refine List.mem_flatMap.2 ⟨group, hgroup, ?_⟩
  split at hspec
  · exact List.mem_filterMap.2 ⟨spec, hspec, typeDeclaration?_of_declaresType h⟩
  · cases hspec

theorem mem_blankPlaces_of_mem_typeSpecs {file : SourceFile} (hspec : spec ∈ file.typeSpecs)
    (hblank : spec.name.isBlank = true) : spec.name.pos ∈ file.decls.flatMap blankPlaces := by
  obtain ⟨group, hgroup, hspec⟩ := List.mem_flatMap.1 hspec
  refine List.mem_flatMap.2 ⟨group, hgroup, ?_⟩
  split at hspec
  · refine List.mem_flatMap.2 ⟨spec, List.mem_filter.2 ⟨hspec, hblank⟩, ?_⟩
    exact List.mem_cons_self ..
  · cases hspec

theorem of_mem_declarationsOf {group : TopDecl} {d : Declaration} (hd : d ∈ declarationsOf group) :
    (∀ spec, d = .type spec → spec.name.isBlank = false) ∧ ∀ f recv, d = .method f recv → f.recv = some recv := by
  unfold declarationsOf at hd
  split at hd
  · obtain ⟨spec, -, hd⟩ := List.mem_filterMap.1 hd
    unfold typeDeclaration? at hd
    split at hd
    · cases hd
    · rename_i hblank
      split at hd
      · cases hd
        exact ⟨nofun, nofun⟩
      · cases hd
        refine ⟨fun spec' heq => ?_, nofun⟩
        cases heq
        simpa using hblank
  · obtain ⟨spec, -, rfl⟩ := List.mem_map.1 hd
    exact ⟨nofun, nofun⟩
  · obtain rfl := List.mem_singleton.1 hd
    exact ⟨nofun, nofun⟩
  · split at hd
    · rename_i recv hrecv
      obtain rfl := List.mem_singleton.1 hd
      refine ⟨nofun, fun f recv' heq => ?_⟩
      cases heq
      exact hrecv
    · obtain rfl := List.mem_singleton.1 hd
      exact ⟨nofun, nofun⟩

theorem of_mem_declarationsIn {files : List (CurrentFile × SourceFile)} {p : CurrentFile × Declaration}
    (hp : p ∈ declarationsIn files) :
    (∃ q ∈ files, q.1 = p.1) ∧ (∀ spec, p.2 = .type spec → spec.name.isBlank = false) ∧
      ∀ f recv, p.2 = .method f recv → f.recv = some recv := by
  obtain ⟨q, hq, hp⟩ := List.mem_flatMap.1 hp
  obtain ⟨d, hd, rfl⟩ := List.mem_map.1 hp
  obtain ⟨group, -, hd⟩ := List.mem_flatMap.1 hd
  exact ⟨⟨q, hq, rfl⟩, of_mem_declarationsOf hd⟩

/-- The functions that are on record for the methods of a type which a file declares. -/
def specFuncs (records : Pos → Option Object) (spec : TypeSpec) : List FuncId :=
  if spec.declaresType then recordedFuncs records spec.type.ownMethods else []

theorem flatMap_recordedFuncs (records : Pos → Option Object) (file : SourceFile) :
    ((file.decls.flatMap declarationsOf).flatMap fun d => recordedFuncs records d.ownMethods) =
      file.typeSpecs.flatMap (specFuncs records) := by
  have hgroup : ∀ group : TopDecl, ((declarationsOf group).flatMap fun d => recordedFuncs records d.ownMethods) =
      (match group with
        | .decl (.type specs) => specs
        | _ => []).flatMap (specFuncs records) := by
    intro group
    have hnone : ∀ ds : List Declaration, (∀ d ∈ ds, d.ownMethods = []) →
        (ds.flatMap fun d => recordedFuncs records d.ownMethods) = [] := by
      intro ds hds
      refine List.flatMap_eq_nil_iff.2 fun d hd => ?_
      rw [hds d hd]
      rfl
    cases group with
    | func f =>
      refine hnone _ fun d hd => ?_
      rw [declarationsOf] at hd
      split at hd <;> obtain rfl := List.mem_singleton.1 hd <;> rfl
    | decl d =>
      cases d with
      | var specs =>
        refine hnone _ fun d hd => ?_
        obtain ⟨spec, -, rfl⟩ := List.mem_map.1 hd
        rfl
      | const specs =>
        refine hnone _ fun d hd => ?_
        obtain rfl := List.mem_singleton.1 hd
        rfl
      | type specs =>
        show ((specs.filterMap typeDeclaration?).flatMap fun d => recordedFuncs records d.ownMethods) =
          specs.flatMap (specFuncs records)
        induction specs with
        | nil => rfl
        | cons spec specs ih =>
          rw [List.flatMap_cons, ← ih, specFuncs]
          by_cases hblank : spec.name.isBlank = true
          · simp [typeDeclaration?, TypeSpec.declaresType, hblank]
          · by_cases halias : spec.isAlias = true
            · simp [typeDeclaration?, TypeSpec.declaresType, hblank, halias, Declaration.ownMethods, recordedFuncs]
            · simp [typeDeclaration?, TypeSpec.declaresType, hblank, halias, Declaration.ownMethods]
  rw [List.flatMap_assoc, SourceFile.typeSpecs, List.flatMap_assoc]
  exact List.flatMap_congr fun group _ => hgroup group

/-! ## Records about a package -/

/-- What the records about a package say about its declared types that are written as interfaces. -/
structure Package.RecordsMethods (t : Table) (p : Package) : Prop where
  /-- There are records about every file. -/
  length : p.infos.length = p.files.length
  /-- A type that is called `_` is not on record. -/
  blank : ∀ q ∈ p.files.zip p.infos, ∀ spec ∈ q.1.tree.typeSpecs, spec.name.isBlank = true → q.2.def? spec.name.pos = none
  /-- A type that is written as an interface is on record, and so are the methods that are written in it. -/
  declares : ∀ q ∈ p.files.zip p.infos, ∀ spec ∈ q.1.tree.typeSpecs, spec.declaresType = true →
    ∀ methods embeds, spec.type = .interface methods embeds →
      ∃ id, q.2.def? spec.name.pos = some (.typeName id) ∧ DeclaresMethods q.2.def? t id methods
  /-- No two methods are the same function. -/
  distinct : ((p.files.zip p.infos).flatMap fun q => q.1.tree.typeSpecs.flatMap (specFuncs q.2.def?)).Nodup

/-- The records about a package stay right as long as definitions stay. -/
theorem Package.RecordsMethods.of_grows {t t' : Table} {p : Package} (h : p.RecordsMethods t) (hgrows : t.Grows t')
    (hdefinition : ∀ id d, t.definition? id = some d → t'.definition? id = some d) : p.RecordsMethods t' where
  length := h.length
  blank := h.blank
  declares q hq spec hspec hdeclares methods embeds htype := by
    obtain ⟨id, hid, hmethods⟩ := h.declares q hq spec hspec hdeclares methods embeds htype
    exact ⟨id, hid, hmethods.of_grows hgrows (hdefinition id) fun _ _ => rfl⟩
  distinct := h.distinct

section Package

variable {t : Table} {packages : Array Package}

variable {source : PackageSource} {n : Notes}

/-- A further package leaves the definitions of types alone. -/
theorem definition?_checkPackage (hwf : t.WF) (hpackages : ∀ p ∈ packages, p.WF t) (byPath : ImportMap) (id : PackageId)
    (source : PackageSource) {x : TypeId} (hx : t.HasType x) :
    ((checkPackage packages byPath id source).run t).2.definition? x = t.definition? x := by
  -- all types of the table are taken for settled
  have hready : Ready (source.openPlan.settling t.HasType False) (source.context packages) source.start t :=
    (Ready.mk hwf (source.context_wf hpackages) source.start_wf).settle (fun _ hid => hid) False
  have hds : DeclarationsWF (source.openPlan.settling t.HasType False) t
      (declarationsIn (source.currentFiles packages byPath)) := (source.currentFiles_wf hpackages byPath).declarationsIn
  obtain ⟨hready₁, hstep₁, -, hentries⟩ := hready.step (sound_enterAll (fun _ _ => trivial) hds)
  have hnew : ∀ y ∈ declaredTypes ((enterAll (declarationsIn (source.currentFiles packages byPath))).eval
      (source.context packages) source.start t).1.1, ¬ t.HasType y := by
    intro y hy
    obtain ⟨n', heval, -⟩ := eval_enterAll (declarationsIn (source.currentFiles packages byPath)) (source.context packages)
      source.start t
    rw [heval, declaredTypes_entriesFrom] at hy
    obtain ⟨i, hi, rfl⟩ := List.mem_map.1 hy
    have hle := (List.mem_range'_1.1 hi).1
    exact Nat.not_lt.2 hle
  obtain ⟨-, hstep₂, -, -⟩ := hready₁.step (sound_checkEntries (fun h => h) hentries hnew)
  rw [run_checkPackage, checkFiles, eval_bind]
  exact (hstep₂.settled x hx).trans (hstep₁.settled x hx)

theorem map_index_currentFiles (source : PackageSource) (packages : Array Package) (byPath : ImportMap) :
    (source.currentFiles packages byPath).map (·.1.index) = List.range source.files.length := by
  refine List.ext_getElem? fun i => ?_
  rw [List.getElem?_map, PackageSource.currentFiles, List.getElem?_mapIdx]
  by_cases hi : i < source.files.length
  · simp [hi]
  · simp [hi]

theorem index_lt_of_mem_declarationsIn {byPath : ImportMap} {p : CurrentFile × Declaration}
    (hp : p ∈ declarationsIn (source.currentFiles packages byPath)) : p.1.index < source.files.length := by
  obtain ⟨⟨q, hq, heq⟩, -⟩ := of_mem_declarationsIn hp
  have hmem := List.mem_map_of_mem (f := fun q : CurrentFile × SourceFile => q.1.index) hq
  rw [map_index_currentFiles, List.mem_range] at hmem
  rw [← heq]
  exact hmem

theorem nodup_index_currentFiles (source : PackageSource) (packages : Array Package) (byPath : ImportMap) :
    ((source.currentFiles packages byPath).map (·.1.index)).Nodup := by
  rw [map_index_currentFiles]
  exact List.nodup_range

theorem placesApart_currentFiles (hapart : ∀ file ∈ source.files, file.tree.PlacesApart) (packages : Array Package)
    (byPath : ImportMap) : ∀ q ∈ source.currentFiles packages byPath, q.2.PlacesApart := by
  intro q hq
  obtain ⟨i, hi, rfl⟩ := List.mem_mapIdx.1 hq
  exact hapart _ (List.getElem_mem hi)

theorem def?_start (source : PackageSource) (file : Nat) (pos : Pos) : source.start.def? file pos = none := by
  rw [Notes.def?, PackageSource.start, List.getElem?_toArray, List.getElem?_map]
  cases source.files[file]? <;> rfl

/-- The entries of a package: each is for a declaration in one of its files, and there are records about every file. -/
theorem enterAll_currentFiles (source : PackageSource) (packages : Array Package) (byPath : ImportMap)
    {es : List (CurrentFile × Entry)} {t' : Table}
    (h : (enterAll (declarationsIn (source.currentFiles packages byPath))).eval (source.context packages) source.start t =
      ((es, n), t')) : declarationsFor es = declarationsIn (source.currentFiles packages byPath) ∧
      (∀ q ∈ es, ∀ f recv, q.2 = .method f recv → f.recv = some recv) ∧
      n.infos.size = source.files.length ∧ ∀ q ∈ es, q.1.index < n.infos.size := by
  have hfor : declarationsFor es = declarationsIn (source.currentFiles packages byPath) := by
    obtain ⟨n', hform, -⟩ := eval_enterAll (declarationsIn (source.currentFiles packages byPath)) (source.context packages)
      source.start t
    rw [h] at hform
    cases hform
    exact map_declaration_entriesFrom ..
  have hdeclared : ∀ q ∈ es, (q.1, q.2.declaration) ∈ declarationsIn (source.currentFiles packages byPath) := by
    intro q hq
    rw [← hfor]
    exact List.mem_map.2 ⟨q, hq, rfl⟩
  have hkeeps : Keeps (fun n => n.infos.size) (enterAll (declarationsIn (source.currentFiles packages byPath))) :=
    .mapM fun p _ => .bind (.inFile (enters_enter (P := fun _ => True) p.2 fun _ _ => trivial).records.size) fun _ => .pure _
  have hsize : n.infos.size = source.files.length := by
    have hstart := hkeeps (source.context packages) source.start t
    rw [h] at hstart
    simpa [PackageSource.start] using hstart
  refine ⟨hfor, fun q hq f recv heq => ?_, hsize, fun q hq => ?_⟩
  · exact (of_mem_declarationsIn (hdeclared q hq)).2.2 f recv (by rw [heq]; rfl)
  · rw [hsize]
    exact index_lt_of_mem_declarationsIn (hdeclared q hq)

/-- The state in which the declarations of a package have been entered. -/
structure EnteredAt (source : PackageSource) (packages : Array Package) (byPath : ImportMap) (es : List (CurrentFile × Entry))
    (n : Notes) (t : Table) : Prop extends Ready source.openPlan (source.context packages) n t where
  entries : EntriesWF source.openPlan t es
  declarations : declarationsFor es = declarationsIn (source.currentFiles packages byPath)
  locals : n.locals = []
  size : n.infos.size = source.files.length
  unresolved : ResolvingTypes.Unresolved t es
  placed : Placed es n
  names : ∀ file spec id, (file, .type spec id) ∈ es → n.def? file.index spec.name.pos = some (.typeName id)
  others : ∀ file pos, (file, pos) ∉ placesIn (declarationsFor es) → n.def? file pos = none

theorem exists_enteredAt (hwf : t.WF) (hpackages : ∀ p ∈ packages, p.WF t) (byPath : ImportMap) (source : PackageSource)
    (hapart : ∀ file ∈ source.files, file.tree.PlacesApart) :
    ∃ es n t', EnteredAt source packages byPath es n t' ∧ ∀ id, (checkPackage packages byPath id source).run t =
      (source.package id ((checkEntries es).eval (source.context packages) n t').1.2,
        ((checkEntries es).eval (source.context packages) n t').2) := by
  have hds := (source.currentFiles_wf hpackages byPath).declarationsIn
  have hready : Ready source.openPlan (source.context packages) source.start t :=
    ⟨hwf, source.context_wf hpackages, source.start_wf⟩
  have hnodup : (placesIn (declarationsIn (source.currentFiles packages byPath))).Nodup :=
    nodup_placesIn (nodup_index_currentFiles source packages byPath) (placesApart_currentFiles hapart packages byPath)
  have hstart : source.start.infos.size = source.files.length := by simp [PackageSource.start]
  obtain ⟨⟨⟨es, n⟩, t'⟩, henter⟩ : ∃ r, (enterAll (declarationsIn (source.currentFiles packages byPath))).eval
    (source.context packages) source.start t = r := ⟨_, rfl⟩
  obtain ⟨hready₁, -, -, hentries⟩ := hready.step (sound_enterAll source.open_openPlan.denotes hds)
  obtain ⟨n', hform, hdefines⟩ := eval_enterAll (declarationsIn (source.currentFiles packages byPath)) (source.context packages)
    source.start t
  have hunresolved := unresolved_enterAll (declarationsIn (source.currentFiles packages byPath)) (source.context packages)
    source.start t
  rw [henter] at hready₁ hentries hform hunresolved
  obtain ⟨hfor, hrecv, hsize, hindex⟩ := enterAll_currentFiles source packages byPath henter
  have hplaced : Placed es n := ⟨by rw [hfor]; exact hnodup, hrecv, hindex⟩
  refine ⟨es, n, t', ⟨hready₁, hentries, hfor, ?_, hsize, hunresolved, hplaced, fun file spec id hmem => ?_,
    fun file pos hpos => ?_⟩, fun id => ?_⟩
  · cases hform
    exact hdefines.locals
  · have hname := def?_enterAll (c := source.context packages) (n := source.start) (t := t) hnodup
      (fun p hp => hstart ▸ index_lt_of_mem_declarationsIn hp) (fun p hp => (of_mem_declarationsIn hp).2.1)
      (by rw [henter]; exact hmem)
    rw [henter] at hname
    exact hname
  · have hother := (keeps_enterAll (hfor ▸ hpos)).def? (source.context packages) source.start t
    rw [henter] at hother
    exact hother.trans (def?_start source file pos)
  · rw [run_checkPackage, checkFiles, eval_bind, henter]

theorem def?_of_getElem? {i : Nat} {info : FileInfo} (h : n.infos.toList[i]? = some info) : n.def? i = info.def? := by
  funext pos
  rw [Array.getElem?_toList] at h
  rw [Notes.def?, h]
  rfl

theorem forall₂_currentFiles (hsize : n.infos.size = source.files.length) (packages : Array Package) (byPath : ImportMap) :
    List.Forall₂ (fun q cur => cur.2 = q.1.tree ∧ n.def? cur.1.index = q.2.def?) (source.files.zip n.infos.toList)
      (source.currentFiles packages byPath) := by
  refine List.forall₂_iff_get.2 ⟨?_, fun i hi hi' => ?_⟩
  · simp [PackageSource.currentFiles, hsize]
  · have hinfo : n.infos.toList[i]? = some ((source.files.zip n.infos.toList).get ⟨i, hi⟩).2 := by simp
    constructor
    · simp [PackageSource.currentFiles]
    · rw [← def?_of_getElem? hinfo]
      simp [PackageSource.currentFiles]

theorem length_infos_checkPackage (byPath : ImportMap) (id : PackageId) (source : PackageSource) :
    ((checkPackage packages byPath id source).run t).1.infos.length = source.files.length := by
  obtain ⟨⟨⟨es, n⟩, t'⟩, henter⟩ : ∃ r, (enterAll (declarationsIn (source.currentFiles packages byPath))).eval
    (source.context packages) source.start t = r := ⟨_, rfl⟩
  obtain ⟨-, hrecv, hsize, hindex⟩ := enterAll_currentFiles source packages byPath henter
  rw [run_checkPackage, checkFiles, eval_bind, henter]
  exact (size_checkEntries hrecv hindex (source.context packages) t').trans hsize

theorem checkPackage_recordsMethods (hwf : t.WF) (hpackages : ∀ p ∈ packages, p.WF t) (byPath : ImportMap) (id : PackageId)
    (source : PackageSource) (hapart : ∀ file ∈ source.files, file.tree.PlacesApart) :
    ((checkPackage packages byPath id source).run t).1.RecordsMethods ((checkPackage packages byPath id source).run t).2 := by
  obtain ⟨es, n, t₁, h, hrun⟩ := exists_enteredAt hwf hpackages byPath source hapart
  obtain ⟨hmethods, hdistinct⟩ := checkEntries_spec h.toReady (fun h => h) h.entries (fun _ _ h => h) h.locals h.unresolved
    h.placed
  have hsize := (size_checkEntries h.placed.recv h.placed.index (source.context packages) t₁).trans h.size
  have hname : ∀ file spec x, (file, .type spec x) ∈ es → _ = n.def? file.index spec.name.pos :=
    fun _ _ _ hmem => (h.placed.keeps_name hmem).def? (source.context packages) n t₁
  have hothers : ∀ i pos, (i, pos) ∉ placesIn (declarationsFor es) → _ = n.def? i pos :=
    fun _ _ hpos => (keeps_checkEntries_of_not_mem h.placed.recv hpos).def? (source.context packages) n t₁
  rw [hrun id]
  generalize (checkEntries es).eval (source.context packages) n t₁ = r at *
  obtain ⟨⟨⟨⟩, n'⟩, t'⟩ := r
  dsimp only at *
  have hfiles := forall₂_currentFiles hsize packages byPath
  have hfile : ∀ q ∈ source.files.zip n'.infos.toList, ∃ cur ∈ source.currentFiles packages byPath,
      cur.2 = q.1.tree ∧ n'.def? cur.1.index = q.2.def? := by
    intro q hq
    obtain ⟨i, hi, rfl⟩ := List.mem_iff_getElem.1 hq
    have hi' : i < (source.currentFiles packages byPath).length := hfiles.length_eq ▸ hi
    exact ⟨_, List.getElem_mem hi', hfiles.get hi hi'⟩
  refine ⟨hsize, fun q hq spec hspec hblank => ?_, fun q hq spec hspec hdeclares methods embeds htype => ?_, ?_⟩
  · -- nothing is declared at the place of the name
    obtain ⟨cur, hcur, htree, hdef⟩ := hfile q hq
    have hpos : (cur.1.index, spec.name.pos) ∉ placesIn (declarationsFor es) := by
      rw [h.declarations]
      refine not_mem_placesIn_of_blank (nodup_index_currentFiles source packages byPath)
        (placesApart_currentFiles hapart packages byPath) hcur (mem_blankPlaces_of_mem_typeSpecs ?_ hblank)
      rw [htree]
      exact hspec
    rw [← hdef, hothers _ _ hpos]
    exact h.others _ _ hpos
  · -- the type has been entered, and stays on record
    obtain ⟨cur, hcur, htree, hdef⟩ := hfile q hq
    have hdeclared : (cur.1, .type spec) ∈ declarationsFor es := by
      rw [h.declarations]
      refine List.mem_flatMap.2 ⟨cur, hcur, List.mem_map_of_mem (mem_declarationsOf_of_mem_typeSpecs ?_ hdeclares)⟩
      rw [htree]
      exact hspec
    obtain ⟨⟨file, e⟩, hmem, heq⟩ := List.mem_map.1 hdeclared
    cases e with
    | type spec' x =>
      cases heq
      refine ⟨x, ?_, ?_⟩
      · rw [← hdef, hname _ _ _ hmem]
        exact h.names _ _ _ hmem
      · rw [← hdef]
        exact hmethods _ _ _ _ _ hmem htype
    | _ => cases heq
  · -- file after file, these are the methods of the declarations
    have heq : ((source.files.zip n'.infos.toList).flatMap fun q => q.1.tree.typeSpecs.flatMap (specFuncs q.2.def?)) =
        methodFuncs n' (declarationsIn (source.currentFiles packages byPath)) := by
      rw [methodFuncs, declarationsIn, List.flatMap_assoc, ← List.forall₂_eq_eq_eq]
      refine List.rel_flatMap hfiles fun q cur hcur => ?_
      rw [List.forall₂_eq_eq_eq, ← hcur.1, ← hcur.2, ← flatMap_recordedFuncs, List.flatMap_map]
    rw [← h.declarations] at heq
    exact heq ▸ hdistinct

end Package

/-- At every stage, there are the right records about the interfaces of a package in whose files names stand at places
of their own. -/
theorem Stage.recordsMethods {t : Table} {packages : Array Package} (h : Stage t packages) {p : Package} (hp : p ∈ packages)
    (hapart : ∀ file ∈ p.files, file.tree.PlacesApart) : p.RecordsMethods t := by
  induction h with
  | start => simp at hp
  | checked h byPath id source ih =>
    obtain ⟨hwf, hpackages⟩ := h.wf
    rcases Array.mem_push.1 hp with hp | rfl
    · refine (ih hp).of_grows (checkPackage_wf hwf hpackages byPath id source).1.grows fun x d hd => ?_
      rw [definition?_checkPackage hwf hpackages byPath id source (.of_definition? hd)]
      exact hd
    · exact checkPackage_recordsMethods hwf hpackages byPath id source hapart
  | unknown _ id path ih =>
    rcases Array.mem_push.1 hp with hp | rfl
    · exact ih hp
    · exact ⟨rfl, nofun, nofun, .nil⟩

end UnusedMethods.Typing
