import Mathlib.Data.List.Flatten
import UnusedMethods.Proofs.InterfaceRecords
import UnusedMethods.Proofs.Registration

/-!
# Which methods are registered

The registry of a package has one entry for each method that is written in an interface which a file of the package
declares, and no other entries. The method of an entry stands among the explicit methods of the interface, at the place
that it has in the text. A method that an interface only takes over from another one is not registered for it.
-/

namespace UnusedMethods.Methods

open Syntax UnusedMethods.Types Typing

/-! ## Written methods -/

/-- A method as it is written in an interface. -/
structure WrittenMethod where
  /-- The file, and its number in the package. -/
  file : File
  fileIndex : Nat
  /-- The declared type that is written as an interface. -/
  spec : TypeSpec
  /-- The method, and its number in the interface. -/
  method : MethodSpec
  index : Nat

/-- Whether the methods of a type count. -/
def Options.admits (options : Options) (spec : TypeSpec) : Bool :=
  spec.declaresType && (options.includeGenerics || spec.typeParams.isEmpty)

/-- The methods that are written in a type. -/
def writtenInSpec (options : Options) (file : File) (fileIndex : Nat) (spec : TypeSpec) : List WrittenMethod :=
  if options.admits spec then
    spec.type.ownMethods.zipIdx.map fun (method, index) => { file, fileIndex, spec, method, index }
  else []

/-- The methods that are written in the interfaces of a package, without the files that a filter leaves out. -/
def writtenMethods (p : Package) (filter : PathFilter) (options : Options) : List WrittenMethod :=
  (p.files.zipIdx.filter fun (file, _) => !filter.ignores file.relPath).flatMap fun (file, i) =>
    file.tree.typeSpecs.flatMap (writtenInSpec options file i)

/-- A declaration registers a method that is written in an interface: the interface is the underlying type of the type that
the name of the interface denotes, and the method has the same number among its explicit methods as in the text. -/
structure Registers (u : CheckedPackage) (w : WrittenMethod) (d : MethodDeclaration) : Prop where
  interfaceName : d.interfaceName = w.spec.name.name
  name : d.name = w.method.name.name
  path : d.path = w.file.path
  pos : d.pos = w.method.name.pos
  generic : d.generic = !w.spec.typeParams.isEmpty
  used : d.used = false
  explicit : ∃ info id i, u.package.infos[w.fileIndex]? = some info ∧ info.def? w.spec.name.pos = some (.typeName id) ∧
    d.interface = u.table.underlying id ∧ u.table.get d.interface = .interface i ∧
    i.explicit.length = w.spec.type.ownMethods.length ∧ i.explicit[w.index]? = some d.method ∧
    (u.table.func d.method).name = w.method.name.name

/-! ## Registries of different methods -/

namespace Registry

theorem entries_add_of_not_mem {r : Registry} {d : MethodDeclaration} (h : d.method ∉ r.entries.map (·.method)) :
    (r.add d).entries = r.entries ++ [d] := by
  rw [add, dif_neg h]

theorem entries_foldl_add {decls : List MethodDeclaration} {r : Registry}
    (h : ((r.entries ++ decls).map (·.method)).Nodup) : (decls.foldl add r).entries = r.entries ++ decls := by
  induction decls generalizing r with
  | nil => simp
  | cons d decls ih =>
    have hnew : d.method ∉ r.entries.map (·.method) := by
      rw [List.map_append, List.nodup_append] at h
      intro hmem
      exact h.2.2 _ hmem _ (List.mem_cons_self ..) rfl
    have hadd := entries_add_of_not_mem hnew
    rw [List.foldl_cons, ih, hadd, List.append_assoc, List.singleton_append]
    rw [hadd, List.append_assoc, List.singleton_append]
    exact h

theorem entries_ofDeclarations {decls : List MethodDeclaration} (h : (decls.map (·.method)).Nodup) :
    (ofDeclarations decls).entries.Perm decls := by
  have hsorted := List.mergeSort_perm decls fun a b => (a.comparePlace b).isLE
  have hnodup := ((hsorted.map (·.method)).nodup_iff).2 h
  rw [ofDeclarations, entries_foldl_add hnodup]
  exact hsorted

end Registry

/-! ## What is found -/

theorem underlying_of_definition? {t : Table} {id rhs : TypeId} {params : List TypeId} {i : Interface}
    (hid : t.definition? id = some (rhs, params)) (hget : t.get rhs = .interface i) : t.underlying id = rhs := by
  obtain ⟨d, hnamed, -, rfl, -⟩ := Table.named_of_definition? hid
  simp [Table.underlying, Table.underlyingWithin, hnamed, hget]

/-- The declaration of a method in an interface. -/
def declarationOf (t : Table) (path : String) (spec : TypeSpec) (id : TypeId) (m : MethodSpec) (f : FuncId) :
    MethodDeclaration :=
  { interfaceName := spec.name.name, interface := t.underlying id, method := f, name := m.name.name, path,
    pos := m.name.pos, generic := !spec.typeParams.isEmpty, used := false }

section Spec

variable {t : Table} {options : Options} {path : String} {info : FileInfo} {spec : TypeSpec}

/-- In a type that does not count nothing is found. -/
theorem collectSpec_eq_nil (hblank : spec.name.isBlank = true → info.def? spec.name.pos = none)
    (h : options.admits spec = false) : collectSpec t options path info spec = [] := by
  unfold collectSpec
  dsimp only
  split
  · rename_i methods embeds id htype hdef
    rw [if_pos]
    have hname : spec.name.isBlank = false := by
      by_contra hne
      rw [hblank (by simpa using hne)] at hdef
      cases hdef
    unfold Options.admits TypeSpec.declaresType at h
    cases halias : spec.isAlias <;> cases hparams : spec.typeParams.isEmpty <;> simp_all
  · rfl

theorem filterMap_declarationOf {id : TypeId} {methods : List MethodSpec} {fs : List FuncId}
    (hmethods : List.Forall₂ (RecordedAs info.def? t) methods fs) :
    (methods.filterMap fun m =>
      match info.def? m.name.pos with
      | some (.func method) => some (declarationOf t path spec id m method)
      | _ => none) = List.zipWith (declarationOf t path spec id) methods fs := by
  induction hmethods with
  | nil => rfl
  | cons hm _ ih => rw [List.filterMap_cons, hm.record, List.zipWith_cons_cons, ← ih]

theorem collectSpec_eq_zipWith {id rhs : TypeId} {params : List TypeId} {i : Interface} {methods : List MethodSpec}
    {embeds : List TypeExpr} (h : options.admits spec = true) (htype : spec.type = .interface methods embeds)
    (hname : info.def? spec.name.pos = some (.typeName id)) (hid : t.definition? id = some (rhs, params))
    (hget : t.get rhs = .interface i) (hmethods : List.Forall₂ (RecordedAs info.def? t) methods i.explicit) :
    collectSpec t options path info spec = List.zipWith (declarationOf t path spec id) methods i.explicit := by
  obtain ⟨d, hnamed, -⟩ := Table.named_of_definition? hid
  have hnamed' : (t.named? id).isNone = false := by simp [Table.named?, hnamed]
  have hinterface : (t.interface? (t.underlying id)).isNone = false := by
    rw [underlying_of_definition? hid hget]
    simp [Table.interface?, Table.underlying, Table.underlyingWithin, hget]
  unfold Options.admits TypeSpec.declaresType at h
  unfold collectSpec
  rw [htype, hname]
  dsimp only
  rw [if_neg]
  · exact filterMap_declarationOf hmethods
  · rw [hnamed', hinterface]
    cases halias : spec.isAlias <;> cases hparams : spec.typeParams.isEmpty <;> simp_all

theorem map_method_zipWith (id : TypeId) {methods : List MethodSpec} {fs : List FuncId} (h : methods.length = fs.length) :
    (List.zipWith (declarationOf t path spec id) methods fs).map (·.method) = fs :=
  List.ext_getElem (by simp [h]) fun _ _ _ => by simp [declarationOf]

end Spec

section Package

variable {t : Table} {p : Package} {options : Options} {file : File} {info : FileInfo} {k : Nat}

theorem collectSpec_written (h : p.RecordsMethods t) (hfile : p.files[k]? = some file) (hinfo : p.infos[k]? = some info)
    {spec : TypeSpec} (hspec : spec ∈ file.tree.typeSpecs) :
    List.Forall₂ (Registers ⟨t, p⟩) (writtenInSpec options file k spec) (collectSpec t options file.path info spec) ∧
      ((collectSpec t options file.path info spec).map (·.method)).Sublist (specFuncs info.def? spec) := by
  have hmem : (file, info) ∈ p.files.zip p.infos := List.mem_of_getElem? (List.getElem?_zip_eq_some.2 ⟨hfile, hinfo⟩)
  cases hadmits : options.admits spec with
  | false =>
    rw [collectSpec_eq_nil (h.blank _ hmem spec hspec) hadmits, writtenInSpec, hadmits]
    exact ⟨.nil, List.nil_sublist _⟩
  | true =>
    have hdeclares : spec.declaresType = true := (Bool.and_eq_true_iff.1 hadmits).1
    rw [writtenInSpec, if_pos hadmits, specFuncs, if_pos hdeclares]
    cases htype : spec.type with
    | interface methods embeds =>
      obtain ⟨id, hname, rhs, params, i, hid, hget, hmethods⟩ := h.declares _ hmem spec hspec hdeclares methods embeds htype
      have hlength := hmethods.length_eq
      rw [collectSpec_eq_zipWith hadmits htype hname hid hget hmethods, map_method_zipWith id hlength]
      constructor
      · refine List.forall₂_iff_get.2 ⟨by simp [TypeExpr.ownMethods, hlength], fun j hj hj' => ?_⟩
        have hj₁ : j < methods.length := by simpa [TypeExpr.ownMethods] using hj
        have hj₂ : j < i.explicit.length := by omega
        have hrecorded := hmethods.get hj₁ hj₂
        simp only [TypeExpr.ownMethods, List.get_eq_getElem, List.getElem_map, List.getElem_zipIdx, List.getElem_zipWith]
        refine ⟨rfl, rfl, rfl, rfl, rfl, rfl, info, id, i, hinfo, hname, rfl, ?_, ?_, ?_, hrecorded.name⟩
        · show t.get (t.underlying id) = _
          rw [underlying_of_definition? hid hget, hget]
        · rw [htype]
          exact hlength.symm
        · simp [declarationOf, hj₂]
      · rw [TypeExpr.ownMethods, recordedFuncs_eq hmethods]
    | _ =>
      have hnil : collectSpec t options file.path info spec = [] := by
        unfold collectSpec
        rw [htype]
      rw [hnil]
      exact ⟨.nil, List.nil_sublist _⟩

theorem collectFile_eq_flatMap (t : Table) (options : Options) (file : File) (info : FileInfo) :
    collectFile t options file info = file.tree.typeSpecs.flatMap (collectSpec t options file.path info) := by
  rw [collectFile, SourceFile.typeSpecs, List.flatMap_assoc]
  refine List.flatMap_congr fun group _ => ?_
  cases group with
  | func f => rfl
  | decl d => cases d <;> rfl

theorem collectFile_written (h : p.RecordsMethods t) (hfile : p.files[k]? = some file) (hinfo : p.infos[k]? = some info) :
    List.Forall₂ (Registers ⟨t, p⟩) (file.tree.typeSpecs.flatMap (writtenInSpec options file k))
        (collectFile t options file info) ∧
      ((collectFile t options file info).map (·.method)).Sublist (file.tree.typeSpecs.flatMap (specFuncs info.def?)) := by
  rw [collectFile_eq_flatMap]
  constructor
  · have hsame : List.Forall₂ (fun a b => a = b ∧ a ∈ file.tree.typeSpecs) file.tree.typeSpecs file.tree.typeSpecs :=
      List.forall₂_same.2 fun _ hspec => ⟨rfl, hspec⟩
    refine List.rel_flatMap hsame fun spec spec' hspec => ?_
    obtain ⟨rfl, hspec⟩ := hspec
    exact (collectSpec_written h hfile hinfo hspec).1
  · rw [List.map_flatMap]
    exact List.Sublist.flatMap_right _ fun spec hspec => (collectSpec_written h hfile hinfo hspec).2

/-- The declarations that are found in a package before they are put in order. -/
def CheckedPackage.declarations (u : CheckedPackage) (filter : PathFilter) (options : Options) : List MethodDeclaration :=
  (u.files filter).flatMap fun q => collectFile u.table options q.1 q.2

theorem collect_eq_ofDeclarations (u : CheckedPackage) (filter : PathFilter) (options : Options) :
    collect u filter options = .ofDeclarations (u.declarations filter options) := by
  unfold collect
  dsimp only
  rw [flatMapHalves_eq, ite_self]
  rfl

theorem nodup_declarations (h : p.RecordsMethods t) (filter : PathFilter) (options : Options) :
    ((CheckedPackage.declarations ⟨t, p⟩ filter options).map (·.method)).Nodup := by
  refine h.distinct.sublist ?_
  rw [CheckedPackage.declarations, List.map_flatMap]
  refine (List.Sublist.flatMap_right _ fun q hq => ?_).trans (List.filter_sublist.flatMap _)
  obtain ⟨i, hfile, hinfo⟩ := CheckedPackage.getElem?_of_mem_files hq
  exact (collectFile_written h hfile hinfo).2

theorem declarations_written (h : p.RecordsMethods t) (filter : PathFilter) (options : Options) :
    List.Forall₂ (Registers ⟨t, p⟩) (writtenMethods p filter options)
      (CheckedPackage.declarations ⟨t, p⟩ filter options) := by
  have hfiles : List.Forall₂ (fun a q => a.1 = q.1 ∧ p.files[a.2]? = some q.1 ∧ p.infos[a.2]? = some q.2) p.files.zipIdx
      (p.files.zip p.infos) := by
    refine List.forall₂_iff_get.2 ⟨by simp [h.length], fun i hi hi' => ?_⟩
    simp
  -- the filter leaves out the same files on both sides
  refine List.rel_flatMap (R := fun a q => a.1 = q.1 ∧ p.files[a.2]? = some q.1 ∧ p.infos[a.2]? = some q.2) ?_ ?_
  · apply List.rel_filter _ hfiles
    intro (file, i) q haq
    obtain ⟨rfl, -⟩ := haq
    exact Iff.rfl
  · intro (file, i) q haq
    obtain ⟨rfl, hfile, hinfo⟩ := haq
    exact (collectFile_written h hfile hinfo).1

end Package

/-- The registry of a package has exactly one entry for each method that is written in an interface which one of its files
declares. -/
theorem collect_written {t : Table} {packages : Array Package} (hstage : Stage t packages) {p : Package} (hp : p ∈ packages)
    (hapart : ∀ file ∈ p.files, file.tree.PlacesApart) (filter : PathFilter) (options : Options) :
    ∃ decls, List.Forall₂ (Registers ⟨t, p⟩) (writtenMethods p filter options) decls ∧
      (collect ⟨t, p⟩ filter options).entries.Perm decls := by
  have hrecords := hstage.recordsMethods hp hapart
  refine ⟨CheckedPackage.declarations ⟨t, p⟩ filter options, declarations_written hrecords filter options, ?_⟩
  rw [collect_eq_ofDeclarations]
  exact Registry.entries_ofDeclarations (nodup_declarations hrecords filter options)

/-- Two interfaces, of which one takes over the method of the other. -/
def readerAndReadWriter : String :=
  "package app\n\ntype Reader interface \x7b Read() \x7d\n\ntype ReadWriter interface \x7b Reader; Write() \x7d\n"

/-- Each method is registered for the interface in which it is written, and `Read` not for `ReadWriter`. -/
theorem read_registered_once : (∀ file ∈ (checkText readerAndReadWriter).1.files, file.tree.PlacesApart) ∧
    ((collect ⟨(checkText readerAndReadWriter).2, (checkText readerAndReadWriter).1⟩ .allowAll .default).entries.map
      fun d => (d.interfaceName, d.name)).Perm [("Reader", "Read"), ("ReadWriter", "Write")] := by
  have hapart : ∀ file ∈ (checkText readerAndReadWriter).1.files, file.tree.PlacesApart := by decide +kernel
  refine ⟨hapart, ?_⟩
  obtain ⟨decls, hwritten, hperm⟩ := collect_written (stage_checkText readerAndReadWriter) (by simp) hapart .allowAll .default
  have hnames : (writtenMethods (checkText readerAndReadWriter).1 .allowAll .default).map
      (fun w => (w.spec.name.name, w.method.name.name)) = [("Reader", "Read"), ("ReadWriter", "Write")] := by decide +kernel
  have hsame : decls.map (fun d => (d.interfaceName, d.name)) =
      (writtenMethods (checkText readerAndReadWriter).1 .allowAll .default).map
        fun w => (w.spec.name.name, w.method.name.name) := by
    rw [← List.forall₂_eq_eq_eq, List.forall₂_map_left_iff, List.forall₂_map_right_iff]
    exact hwritten.flip.imp fun d w hd => Prod.ext hd.interfaceName hd.name
  rw [← hnames, ← hsame]
  exact hperm.map _

end UnusedMethods.Methods
