import UnusedMethods.Proofs.Accounting
import UnusedMethods.Proofs.CalledMethods
import UnusedMethods.Proofs.RegisteredMethods

/-!
# Leaving out generic interfaces

If interfaces with type parameters do not count, their methods are not registered. The other methods keep their
entries, and what makes one of them used does not depend on the rest of the registry: the only test that looks at other
entries looks at those of the same interface. So nothing changes in a report but that the lines about methods of generic
interfaces are gone.
-/

namespace UnusedMethods

/-- Sorting and leaving out elements can be exchanged, as elements of equal rank keep their order. -/
theorem filter_mergeSort {α : Type} {le : α → α → Bool} (htrans : ∀ a b c, le a b → le b c → le a c)
    (htotal : ∀ a b, le a b || le b a) (p : α → Bool) (l : List α) :
    (l.mergeSort le).filter p = (l.filter p).mergeSort le := by
  induction l with
  | nil => simp
  | cons a l ih =>
    obtain ⟨before, after, hsort, hrest, hbefore⟩ := List.mergeSort_cons htrans htotal a l
    have hafter : ∀ b ∈ after, le a b = true := by
      have hsorted := List.pairwise_mergeSort htrans htotal (a :: l)
      rw [hsort, List.pairwise_append, List.pairwise_cons] at hsorted
      exact hsorted.2.1.1
    rw [hrest, List.filter_append] at ih
    rw [hsort, List.filter_append]
    by_cases hp : p a = true
    · obtain ⟨before', after', hsort', hrest', hbefore'⟩ := List.mergeSort_cons htrans htotal a (l.filter p)
      have hafter' : ∀ b ∈ after', le a b = true := by
        have hsorted := List.pairwise_mergeSort htrans htotal (a :: l.filter p)
        rw [hsort', List.pairwise_append, List.pairwise_cons] at hsorted
        exact hsorted.2.1.1
      rw [List.filter_cons_of_pos hp, List.filter_cons_of_pos hp, hsort']
      rw [hrest'] at ih
      -- both lists are split where the elements begin that `a` may stand in front of
      rcases List.append_eq_append_iff.1 ih with ⟨mid, hfirst, hlast⟩ | ⟨mid, hfirst, hlast⟩
      · cases mid with
        | nil => rw [hfirst, hlast, List.append_nil, List.nil_append]
        | cons b mid =>
          have hle : le a b = true := hafter b (List.mem_of_mem_filter (by rw [hlast]; simp))
          have hlt := hbefore' b (by rw [hfirst]; simp)
          simp [hle] at hlt
      · cases mid with
        | nil => rw [hfirst, hlast, List.append_nil, List.nil_append]
        | cons b mid =>
          have hle : le a b = true := hafter' b (by rw [hlast]; simp)
          have hlt := hbefore b (List.mem_of_mem_filter (by rw [hfirst]; simp))
          simp [hle] at hlt
    · rw [List.filter_cons_of_neg hp, List.filter_cons_of_neg hp, ih]

end UnusedMethods

namespace UnusedMethods.Methods

open Syntax UnusedMethods.Types Typing

variable {u : CheckedPackage} {d : MethodDeclaration}

/-! ## Sorting by place -/

instance : Std.TransCmp MethodDeclaration.comparePlace :=
  inferInstanceAs (Std.TransCmp (compareLex (Ordering.byKey MethodDeclaration.path Path.compare)
    (compareLex (compareOn fun d => d.pos.line) (compareOn fun d => d.pos.column))))

theorem isLE_total {α : Type} (cmp : α → α → Ordering) [Std.TransCmp cmp] (a b : α) :
    ((cmp a b).isLE || (cmp b a).isLE) = true := by
  have hswap : cmp b a = (cmp a b).swap := Std.OrientedCmp.eq_swap
  rw [hswap]
  cases cmp a b <;> rfl

theorem filter_sort_declarations (p : MethodDeclaration → Bool) (ds : List MethodDeclaration) :
    (ds.mergeSort fun a b => (a.comparePlace b).isLE).filter p =
      (ds.filter p).mergeSort fun a b => (a.comparePlace b).isLE :=
  filter_mergeSort (fun _ _ _ => Std.TransCmp.isLE_trans) (isLE_total _) p ds

theorem Diagnostic.filter_sort (p : Diagnostic → Bool) (ds : List Diagnostic) :
    (Diagnostic.sort ds).filter p = Diagnostic.sort (ds.filter p) :=
  filter_mergeSort (fun _ _ _ => Std.TransCmp.isLE_trans) (isLE_total _) p ds

/-! ## The registry -/

/-- The options with or without generic interfaces. -/
def Options.generics (options : Options) (counted : Bool) : Options := { options with includeGenerics := counted }

section Spec

variable {t : Table} {options : Options} {path : String} {info : FileInfo} {spec : TypeSpec}

theorem eq_of_mem_collectSpec {d : MethodDeclaration} (h : d ∈ collectSpec t options path info spec) :
    d.interfaceName = spec.name.name ∧ d.generic = !spec.typeParams.isEmpty ∧
      ∃ id, info.def? spec.name.pos = some (.typeName id) := by
  unfold collectSpec at h
  dsimp only at h
  split at h
  · rename_i methods embeds id htype hdef
    split at h
    · cases h
    · obtain ⟨m, -, hm⟩ := List.mem_filterMap.1 h
      split at hm
      · cases hm
        exact ⟨rfl, rfl, id, hdef⟩
      · cases hm
  · cases h

/-- In a type without type parameters the same is found, and in one with type parameters nothing. -/
theorem collectSpec_plain : collectSpec t (options.generics false) path info spec =
    (collectSpec t (options.generics true) path info spec).filter fun d => !d.generic := by
  cases hplain : spec.typeParams.isEmpty with
  | true =>
    have hsame : collectSpec t (options.generics false) path info spec =
        collectSpec t (options.generics true) path info spec := by
      simp [collectSpec, hplain]
    rw [hsame, List.filter_eq_self.2]
    intro d hd
    rw [(eq_of_mem_collectSpec hd).2.1, hplain]
    rfl
  | false =>
    have hnil : collectSpec t (options.generics false) path info spec = [] := by
      simp only [collectSpec, hplain, Options.generics, Bool.not_false, Bool.true_and, Bool.or_true, Bool.true_or,
        if_true]
      split <;> rfl
    rw [hnil, eq_comm, List.filter_eq_nil_iff]
    intro d hd
    rw [(eq_of_mem_collectSpec hd).2.1, hplain]
    simp

end Spec

theorem declarations_plain (u : CheckedPackage) (filter : PathFilter) (options : Options) :
    u.declarations filter (options.generics false) =
      (u.declarations filter (options.generics true)).filter fun d => !d.generic := by
  unfold CheckedPackage.declarations
  rw [List.filter_flatMap]
  refine List.flatMap_congr fun q _ => ?_
  rw [collectFile_eq_flatMap, collectFile_eq_flatMap, List.filter_flatMap]
  exact List.flatMap_congr fun spec _ => collectSpec_plain

theorem entries_collect_plain {filter : PathFilter} {options : Options}
    (hnodup : ((u.declarations filter (options.generics true)).map (·.method)).Nodup) :
    (collect u filter (options.generics false)).entries =
      (collect u filter (options.generics true)).entries.filter fun d => !d.generic := by
  have hentries : ∀ ds : List MethodDeclaration, (ds.map (·.method)).Nodup →
      (Registry.ofDeclarations ds).entries = ds.mergeSort fun a b => (a.comparePlace b).isLE := by
    intro ds hds
    have hsorted := ((List.mergeSort_perm ds fun a b => (a.comparePlace b).isLE).map (·.method)).nodup_iff.2 hds
    rw [Registry.ofDeclarations, Registry.entries_foldl_add hsorted]
    rfl
  rw [collect_eq_ofDeclarations, collect_eq_ofDeclarations, declarations_plain, hentries _ hnodup, hentries,
    filter_sort_declarations]
  exact hnodup.sublist (List.filter_sublist.map _)

/-! ## Interfaces by name -/

/-- The types that the files of a package declare under a name. -/
def declaredSpecs (p : Package) : List TypeSpec :=
  (p.files.flatMap (·.tree.typeSpecs)).filter fun spec => !spec.name.isBlank

/-- Whether a package declares a type without type parameters under a name. -/
def declaresPlain (p : Package) (name : String) : Bool :=
  (declaredSpecs p).any fun spec => spec.name.name = name && spec.typeParams.isEmpty

/-- Every entry of a registry belongs to a declared type. -/
theorem exists_spec_of_mem_collect {t : Table} {p : Package} (h : p.RecordsMethods t) {filter : PathFilter}
    {options : Options} (hd : d ∈ (collect ⟨t, p⟩ filter options).entries) :
    ∃ spec ∈ declaredSpecs p, d.interfaceName = spec.name.name ∧ d.generic = !spec.typeParams.isEmpty := by
  obtain ⟨file, info, hfile, hd⟩ := CheckedPackage.exists_file_of_mem_collect hd
  rw [collectFile_eq_flatMap] at hd
  obtain ⟨spec, hspec, hd⟩ := List.mem_flatMap.1 hd
  obtain ⟨hname, hgeneric, id, hdef⟩ := eq_of_mem_collectSpec hd
  have hmem : (file, info) ∈ p.files.zip p.infos := (List.mem_filter.1 hfile).1
  refine ⟨spec, List.mem_filter.2 ⟨List.mem_flatMap.2 ⟨file, (List.of_mem_zip hmem).1, hspec⟩, ?_⟩, hname, hgeneric⟩
  -- a type that is called `_` is not on record
  cases hblank : spec.name.isBlank with
  | false => rfl
  | true =>
    rw [h.blank _ hmem spec hspec hblank] at hdef
    cases hdef

section Names

variable {t : Table} {p : Package} {filter : PathFilter} {options : Options}

/-- If types have different names, entries of interfaces with one name are generic together. -/
theorem generic_eq_of_interfaceName_eq (h : p.RecordsMethods t) (hnames : ((declaredSpecs p).map (·.name.name)).Nodup)
    {d e : MethodDeclaration} (hd : d ∈ (collect ⟨t, p⟩ filter options).entries)
    (he : e ∈ (collect ⟨t, p⟩ filter options).entries) (hname : e.interfaceName = d.interfaceName) :
    e.generic = d.generic := by
  obtain ⟨spec, hspec, hdname, hdgeneric⟩ := exists_spec_of_mem_collect h hd
  obtain ⟨spec', hspec', hename, hegeneric⟩ := exists_spec_of_mem_collect h he
  have hsame : spec'.name.name = spec.name.name := by rw [← hename, hname, hdname]
  have hspecs := List.inj_on_of_nodup_map hnames hspec' hspec hsame
  rw [hegeneric, hdgeneric, hspecs]

/-- If types have different names, an entry is generic unless a type without type parameters has the name of its
interface. -/
theorem declaresPlain_interfaceName (h : p.RecordsMethods t) (hnames : ((declaredSpecs p).map (·.name.name)).Nodup)
    {d : MethodDeclaration} (hd : d ∈ (collect ⟨t, p⟩ filter options).entries) :
    declaresPlain p d.interfaceName = !d.generic := by
  obtain ⟨spec, hspec, hname, hgeneric⟩ := exists_spec_of_mem_collect h hd
  rw [hgeneric, Bool.not_not, Bool.eq_iff_iff]
  unfold declaresPlain
  simp only [List.any_eq_true, Bool.and_eq_true, decide_eq_true_eq]
  constructor
  · rintro ⟨spec', hspec', hname', hplain⟩
    have hsame := List.inj_on_of_nodup_map hnames hspec' hspec (hname'.trans hname)
    rw [← hsame]
    exact hplain
  · intro hplain
    exact ⟨spec, hspec, hname.symm, hplain⟩

end Names

/-! ## What is used -/

/-- What makes a method used looks at no other entries than those of the same interface. -/
theorem Justified.registry_iff {registry registry' : Registry} {mode : GenericMatch} {walk : List Met}
    (h : ∀ e, e.interfaceName = d.interfaceName → (e ∈ registry.entries ↔ e ∈ registry'.entries)) :
    Justified ⟨u, registry, mode⟩ walk d ↔ Justified ⟨u, registry', mode⟩ walk d := by
  have himp : ∀ registry registry' : Registry,
      (∀ e, e.interfaceName = d.interfaceName → (e ∈ registry.entries ↔ e ∈ registry'.entries)) →
      Justified ⟨u, registry, mode⟩ walk d → Justified ⟨u, registry', mode⟩ walk d := by
    rintro registry registry' h ⟨earlier, info, item, later, hwalk, hjust⟩
    refine ⟨earlier, info, item, later, hwalk, ?_⟩
    cases hjust with
    | selected hsel hname hmatch => exact .selected hsel hname hmatch
    | copied hsel hname hsig hcopy => exact .copied hsel hname hsig hcopy
    | pointed hsel hname hsig hpoints hid hsat => exact .pointed hsel hname hsig hpoints hid hsat
    | formatted hfunc harg htype himpl hname hsig hsole =>
      exact .formatted hfunc harg htype himpl hname hsig fun e he hsame => hsole e ((h e hsame).2 he) hsame
  exact ⟨himp registry registry' h, himp registry' registry fun e hsame => (h e hsame).symm⟩

theorem contains_track_method_iff {registry : Registry} {filter : PathFilter} {options : Options} (hd : d ∈ registry.entries) :
    (track u registry filter options).contains d.method = true ↔
      Justified ⟨u, registry, options.genericMatch⟩ (u.walk filter) d := by
  rw [UsedSet.contains, List.contains_iff_mem, mem_methods_track_iff]
  constructor
  · rintro ⟨e, he, hsame, hjust⟩
    exact List.inj_on_of_nodup_map registry.distinct he hd hsame ▸ hjust
  · exact fun hjust => ⟨d, hd, rfl, hjust⟩

/-! ## The report -/

/-- If the types of a package have different names, a report without generic interfaces is the report with them, less
the lines about interfaces that declare type parameters. -/
theorem diagnostics_plain {t : Table} {packages : Array Package} (hstage : Stage t packages) {p : Package}
    (hp : p ∈ packages) (hapart : ∀ file ∈ p.files, file.tree.PlacesApart)
    (hnames : ((declaredSpecs p).map (·.name.name)).Nodup) (filter : PathFilter) (options : Options) :
    (analyzeUnit ⟨t, p⟩ filter (options.generics false)).diagnostics =
      (analyzeUnit ⟨t, p⟩ filter (options.generics true)).diagnostics.filter fun d => declaresPlain p d.interface := by
  have hrecords := hstage.recordsMethods hp hapart
  have hentries := entries_collect_plain (nodup_declarations hrecords filter (options.generics true))
  -- the verdict on a method that is not generic is the same in both registries
  have hused : ∀ d ∈ (collect ⟨t, p⟩ filter (options.generics false)).entries,
      (track ⟨t, p⟩ (collect ⟨t, p⟩ filter (options.generics false)) filter (options.generics false)).contains d.method =
        (track ⟨t, p⟩ (collect ⟨t, p⟩ filter (options.generics true)) filter (options.generics true)).contains
          d.method := by
    intro d hd
    have hd' := hd
    rw [hentries, List.mem_filter] at hd'
    rw [Bool.eq_iff_iff, contains_track_method_iff hd, contains_track_method_iff hd'.1]
    refine Justified.registry_iff fun e hsame => ?_
    rw [hentries, List.mem_filter, and_iff_left_iff_imp]
    intro he
    rw [generic_eq_of_interfaceName_eq hrecords hnames hd'.1 he hsame]
    exact hd'.2
  have hunused : (collect ⟨t, p⟩ filter (options.generics false)).unusedEntries
        (track ⟨t, p⟩ (collect ⟨t, p⟩ filter (options.generics false)) filter (options.generics false)) =
      ((collect ⟨t, p⟩ filter (options.generics true)).unusedEntries
        (track ⟨t, p⟩ (collect ⟨t, p⟩ filter (options.generics true)) filter (options.generics true))).filter
        fun d => declaresPlain p d.interfaceName := by
    have hplain : ((collect ⟨t, p⟩ filter (options.generics true)).entries.filter fun d => !d.generic) =
        (collect ⟨t, p⟩ filter (options.generics true)).entries.filter fun d => declaresPlain p d.interfaceName :=
      List.filter_congr fun d hd => (declaresPlain_interfaceName hrecords hnames hd).symm
    unfold Registry.unusedEntries
    rw [List.filter_congr fun d hd => congrArg (!·) (hused d hd), hentries, hplain, List.filter_comm]
  show report _ _ = (report _ _).filter _
  rw [report_eq (fun d hd => used_of_mem_collect hd), report_eq (fun d hd => used_of_mem_collect hd), hunused,
    Diagnostic.filter_sort, List.filter_map]
  rfl

/-- A generic interface and one without type parameters. -/
def repoAndReader : String :=
  "package app

type Repo[T any] interface \x7b
	Get(id string) T
\x7d

type Reader interface \x7b
	Read() int
\x7d
"

/-- Of the two lines about `repoAndReader`, the one about `Reader` is left. -/
theorem reader_left :
    (analyzeUnit (.ofText repoAndReader) .allowAll (Options.default.generics false)).diagnostics =
      [⟨"a.go", 8, 2, "Read", "Reader"⟩] ∧
    (analyzeUnit (.ofText repoAndReader) .allowAll (Options.default.generics true)).diagnostics.filter
      (fun d => declaresPlain (checkText repoAndReader).1 d.interface) = [⟨"a.go", 8, 2, "Read", "Reader"⟩] := by
  have h : (analyzeUnit (.ofText repoAndReader) .allowAll (Options.default.generics false)).diagnostics =
        [⟨"a.go", 8, 2, "Read", "Reader"⟩] ∧
      (∀ file ∈ (checkText repoAndReader).1.files, file.tree.PlacesApart) ∧
      ((declaredSpecs (checkText repoAndReader).1).map (·.name.name)).Nodup := by
    decide +kernel
  obtain ⟨hleft, hapart, hnames⟩ := h
  exact ⟨hleft, (diagnostics_plain (stage_checkText repoAndReader) (by simp) hapart hnames .allowAll .default).symm.trans
    hleft⟩

end UnusedMethods.Methods
