import Mathlib.Data.List.Sort
import UnusedMethods.Analysis
import UnusedMethods.Proofs.Registration
import UnusedMethods.Proofs.Usage

/-!
# The report accounts for every method

Every declared method is either used or reported, and reported once. The used methods are counted in a set and
the reported ones in a list; the two counts add up because only registered methods are used and none is registered
twice.

The reports on several packages are put in the order of import paths before anything is made of them. So it does not
matter in which order the packages were analysed, as long as no two have the same import path.
-/

/-! ## The order of a report -/

namespace UnusedMethods.Path

/-- The text by which names are compared. -/
def Component.text : Component → String
  | .name s => s
  | _ => ""

theorem Component.compare_eq (c d : Component) :
    c.compare d = compareLex (compareOn Component.compare.rank) (compareOn Component.text) c d := by
  cases c <;> cases d <;> rfl

instance : Std.TransCmp Component.compare := by
  have heq : Component.compare = compareLex (compareOn Component.compare.rank) (compareOn Component.text) :=
    funext fun c => funext fun d => Component.compare_eq c d
  rw [heq]
  infer_instance

theorem compareLists_eq (cs ds : List Component) : compareLists cs ds = List.compareLex Component.compare cs ds := by
  induction cs generalizing ds with
  | nil => cases ds <;> rfl
  | cons c cs ih =>
    cases ds with
    | nil => rfl
    | cons d ds => rw [compareLists, List.compareLex_cons_cons, ih]

instance : Std.TransCmp compareLists := by
  have heq : compareLists = List.compareLex Component.compare := funext fun cs => funext fun ds => compareLists_eq cs ds
  rw [heq]
  infer_instance

instance : Std.TransCmp compare := inferInstanceAs (Std.TransCmp (Ordering.byKey components compareLists))

end UnusedMethods.Path

namespace UnusedMethods.Methods

open UnusedMethods.Types

namespace Diagnostic

instance : Std.TransCmp comparePlace :=
  inferInstanceAs (Std.TransCmp (compareLex (Ordering.byKey path Path.compare) (compareLex (compareOn line) (compareOn column))))

/-- Sorting leaves nothing out and adds nothing. -/
theorem sort_perm (ds : List Diagnostic) : (sort ds).Perm ds := List.mergeSort_perm ds _

theorem sort_pairwise (ds : List Diagnostic) : (sort ds).Pairwise fun a b => (a.comparePlace b).isLE = true := by
  apply List.pairwise_mergeSort
  · intro a b c hab hbc
    exact Std.TransCmp.isLE_trans hab hbc
  · intro a b
    have hswap : b.comparePlace a = (a.comparePlace b).swap := Std.OrientedCmp.eq_swap
    rw [hswap]
    cases a.comparePlace b <;> rfl

end Diagnostic

/-! ## Declared, used and unused methods -/

theorem used_of_mem_collectSpec {t : Table} {options : Options} {path : String} {info : Typing.FileInfo}
    {spec : Syntax.TypeSpec} {d : MethodDeclaration} (h : d ∈ collectSpec t options path info spec) : d.used = false := by
  unfold collectSpec at h
  dsimp only at h
  split at h
  · split at h
    · cases h
    · obtain ⟨m, -, hmethod⟩ := List.mem_filterMap.1 h
      split at hmethod
      · cases hmethod
        rfl
      · cases hmethod
  · cases h

theorem used_of_mem_collect {u : CheckedPackage} {filter : PathFilter} {options : Options} {d : MethodDeclaration}
    (h : d ∈ (collect u filter options).entries) : d.used = false := by
  obtain ⟨file, info, -, hd⟩ := CheckedPackage.exists_file_of_mem_collect h
  obtain ⟨decl, -, hd⟩ := List.mem_flatMap.1 hd
  split at hd
  · obtain ⟨spec, -, hd⟩ := List.mem_flatMap.1 hd
    exact used_of_mem_collectSpec hd
  · cases hd

/-- The declarations of a registry whose methods are not in a set. -/
def Registry.unusedEntries (r : Registry) (used : UsedSet) : List MethodDeclaration :=
  r.entries.filter fun d => !used.contains d.method

theorem MethodDeclaration.used_marked (used : UsedSet) (d : MethodDeclaration) :
    (d.marked used).used = (used.contains d.method || d.used) := by
  unfold marked
  split
  · rename_i h
    simp [h]
  · rename_i h
    simp [h]

theorem Diagnostic.ofDeclaration_marked (used : UsedSet) (d : MethodDeclaration) :
    Diagnostic.ofDeclaration (d.marked used) = .ofDeclaration d := by
  unfold MethodDeclaration.marked
  split <;> rfl

/-- What is reported are the declarations outside the set, if none was marked before. -/
theorem report_eq {r : Registry} (hfresh : ∀ d ∈ r.entries, d.used = false) (used : UsedSet) :
    report r used = Diagnostic.sort ((r.unusedEntries used).map .ofDeclaration) := by
  have hmarks : (r.apply used).entries.filter (fun d => !d.used) = (r.unusedEntries used).map (·.marked used) := by
    unfold Registry.apply Registry.unusedEntries
    rw [List.filter_map]
    refine congrArg _ (List.filter_congr fun d hd => ?_)
    rw [Function.comp_apply, MethodDeclaration.used_marked, hfresh d hd, Bool.or_false]
  unfold report Registry.diagnostics
  rw [hmarks, List.map_map]
  exact congrArg _ (List.map_congr_left fun d _ => Diagnostic.ofDeclaration_marked used d)

theorem size_eq_used_add_unused {r : Registry} {used : UsedSet} (h : ∀ m ∈ used.methods, ∃ d ∈ r.entries, d.method = m) :
    r.size = used.size + (r.unusedEntries used).length := by
  have hsub : used.methods ⊆ (r.entries.filter fun d => used.contains d.method).map (·.method) := by
    intro m hm
    obtain ⟨d, hd, rfl⟩ := h m hm
    exact List.mem_map_of_mem (List.mem_filter.2 ⟨hd, List.contains_iff_mem.2 hm⟩)
  have hsup : (r.entries.filter fun d => used.contains d.method).map (·.method) ⊆ used.methods := by
    intro m hm
    obtain ⟨d, hd, rfl⟩ := List.mem_map.1 hm
    exact List.contains_iff_mem.1 (List.mem_filter.1 hd).2
  -- both lists have every method once
  have hnodup : ((r.entries.filter fun d => used.contains d.method).map (·.method)).Nodup :=
    (List.filter_sublist.map _).nodup r.distinct
  have hcount : used.size = (r.entries.filter fun d => used.contains d.method).length := by
    rw [UsedSet.size, ((List.perm_ext_iff_of_nodup used.nodup hnodup).2 fun m => ⟨@hsub m, @hsup m⟩).length_eq,
      List.length_map]
  rw [hcount, Registry.size, Registry.unusedEntries, ← List.length_eq_length_filter_add]

/-! ## One package -/

/-- The report on a package accounts for every method of a registry: those of the set are used, and for each of the
others there is one diagnostic. -/
structure UnitReport.Accounts (r : UnitReport) (registry : Registry) (found : UsedSet) : Prop where
  declared : r.declared = registry.size
  used : r.used = found.size
  total : r.declared = r.used + r.diagnostics.length
  diagnostics : r.diagnostics.Perm ((registry.unusedEntries found).map .ofDeclaration)

theorem analyzeUnit_accounts (u : CheckedPackage) (filter : PathFilter) (options : Options) :
    (analyzeUnit u filter options).Accounts (collect u filter options)
      (track u (collect u filter options) filter options) := by
  have hregistered : ∀ m ∈ (track u (collect u filter options) filter options).methods,
      ∃ d ∈ (collect u filter options).entries, d.method = m := by
    intro m hm
    obtain ⟨d, hd, hdm, -⟩ := (mem_methods_track_iff ..).1 hm
    exact ⟨d, hd, hdm⟩
  have hdiagnostics : (analyzeUnit u filter options).diagnostics.Perm
      (((collect u filter options).unusedEntries (track u (collect u filter options) filter options)).map
        .ofDeclaration) := by
    show (report _ _).Perm _
    rw [report_eq fun d hd => used_of_mem_collect hd]
    exact Diagnostic.sort_perm _
  refine ⟨rfl, rfl, ?_, hdiagnostics⟩
  rw [hdiagnostics.length_eq, List.length_map]
  exact size_eq_used_add_unused hregistered

end UnusedMethods.Methods

/-! ## A program -/

namespace UnusedMethods

open Methods

namespace Analysis

/-- Reports with different import paths have one order. -/
theorem mergeSort_package_perm {reports reports' : List UnitReport} (hperm : reports.Perm reports')
    (hpaths : (reports.map (·.package)).Nodup) :
    (reports.mergeSort fun a b => a.package ≤ b.package) = reports'.mergeSort fun a b => a.package ≤ b.package := by
  have hsorted : ∀ rs : List UnitReport,
      (rs.mergeSort fun a b => a.package ≤ b.package).Pairwise fun a b => a.package ≤ b.package := by
    intro rs
    refine (List.pairwise_mergeSort ?_ ?_ rs).imp of_decide_eq_true
    · intro a b c hab hbc
      exact decide_eq_true (String.le_trans (of_decide_eq_true hab) (of_decide_eq_true hbc))
    · intro a b
      simpa using String.le_total a.package b.package
  have hmem : ∀ {rs : List UnitReport} {r : UnitReport}, r ∈ rs.mergeSort (fun a b => a.package ≤ b.package) → r ∈ rs :=
    fun h => List.mem_mergeSort.1 h
  refine List.Perm.eq_of_pairwise ?_ (hsorted reports) (hsorted reports') ?_
  · intro a b ha hb hab hba
    exact List.inj_on_of_nodup_map hpaths (hmem ha) (hperm.mem_iff.2 (hmem hb)) (String.le_antisymm hab hba)
  · exact (List.mergeSort_perm ..).trans (hperm.trans (List.mergeSort_perm ..).symm)

/-- What is made of reports does not depend on their order, if they have different import paths. -/
theorem ofReports_perm {reports reports' : List UnitReport} (hperm : reports.Perm reports')
    (hpaths : (reports.map (·.package)).Nodup) (files : Nat) : ofReports files reports = ofReports files reports' := by
  unfold ofReports
  rw [mergeSort_package_perm hperm hpaths]

/-- If every report accounts for its package, the counts add up for all of them. -/
theorem declared_ofReports {reports : List UnitReport} (h : ∀ r ∈ reports, r.declared = r.used + r.diagnostics.length)
    (files : Nat) :
    (ofReports files reports).declared = (ofReports files reports).used + (ofReports files reports).diagnostics.length := by
  have hsorted : ∀ r ∈ reports.mergeSort (fun a b => a.package ≤ b.package), r.declared = r.used + r.diagnostics.length :=
    fun r hr => h r (List.mem_mergeSort.1 hr)
  unfold ofReports
  dsimp only
  rw [(Diagnostic.sort_perm _).length_eq]
  generalize reports.mergeSort (fun a b => a.package ≤ b.package) = rs at hsorted
  induction rs with
  | nil => rfl
  | cons r rs ih =>
    have hr := hsorted r (by simp)
    have hrs := ih fun r' hr' => hsorted r' (by simp [hr'])
    simp only [List.map_cons, List.foldr_cons, List.flatMap_cons, List.length_append]
    omega

end Analysis

namespace Program

/-- The reports on the packages that the patterns name. -/
def unitReports (p : Program) (filter : PathFilter) (options : Options) : List UnitReport :=
  p.rootPackages.map fun package => analyzeUnit { table := p.table, package } filter options

theorem package_unitReports (p : Program) (filter : PathFilter) (options : Options) :
    (p.unitReports filter options).map (·.package) = p.rootPackages.map (·.path) := by
  unfold unitReports
  rw [List.map_map]
  rfl

/-- The same program, with its packages named in another order, has the same files. -/
theorem fileCount_perm {p : Program} {roots : List Typing.PackageId} (hperm : roots.Perm p.roots) :
    { p with roots := roots : Program }.fileCount = p.fileCount := by
  unfold fileCount rootPackages
  exact ((hperm.filterMap _).map _).foldr_eq' (fun x _ y _ z => Nat.add_left_comm y x z) 0

/-- The report on a program is a complete account, in order. For each package there is a report that accounts for the
methods of its registry. All declared methods are used or have a diagnostic; the diagnostics are those of the packages,
in the order of paths, lines and columns; and the order in which the packages are named does not matter. -/
theorem analyze_accounts (p : Program) (filter : PathFilter) (options : Options)
    (hpaths : (p.rootPackages.map (·.path)).Nodup) :
    (∀ package ∈ p.rootPackages, (analyzeUnit ⟨p.table, package⟩ filter options).Accounts
      (collect ⟨p.table, package⟩ filter options)
      (track ⟨p.table, package⟩ (collect ⟨p.table, package⟩ filter options) filter options)) ∧
    (p.analyze filter options).packages.Perm (p.unitReports filter options) ∧
    (p.analyze filter options).declared =
      (p.analyze filter options).used + (p.analyze filter options).diagnostics.length ∧
    (p.analyze filter options).diagnostics.Perm ((p.unitReports filter options).flatMap (·.diagnostics)) ∧
    (p.analyze filter options).diagnostics.Pairwise (fun a b => (a.comparePlace b).isLE = true) ∧
    ∀ roots : List Typing.PackageId, roots.Perm p.roots →
      { p with roots := roots : Program }.analyze filter options = p.analyze filter options := by
  have hpackages : (p.analyze filter options).packages.Perm (p.unitReports filter options) := List.mergeSort_perm _ _
  refine ⟨?_, hpackages, ?_, ?_, Diagnostic.sort_pairwise _, ?_⟩
  · intro package _
    exact analyzeUnit_accounts ⟨p.table, package⟩ filter options
  · refine Analysis.declared_ofReports (fun r hr => ?_) _
    obtain ⟨package, -, rfl⟩ := List.mem_map.1 hr
    exact (analyzeUnit_accounts ⟨p.table, package⟩ filter options).total
  · exact (Diagnostic.sort_perm _).trans (hpackages.flatMap_right _)
  · intro roots hroots
    have hreports : ({ p with roots := roots : Program }.unitReports filter options).Perm
        (p.unitReports filter options) := (hroots.filterMap _).map _
    unfold analyze
    rw [fileCount_perm hroots]
    refine Analysis.ofReports_perm hreports ?_ _
    rw [(hreports.map _).nodup_iff, package_unitReports]
    exact hpaths

/-- Two packages, of which the first uses the method that it declares. -/
def readerAndWriter : Program :=
  let reader : Typing.PackageSource := .ofText
    "package app

type Reader interface \x7b
	Read() int
\x7d

func use(r Reader) int \x7b
	return r.Read()
\x7d
"
  let writer : Typing.PackageSource := .ofText
    "package app

type Writer interface \x7b
	Write(x int)
\x7d
"
  let (first, t) := (Typing.checkPackage #[] [] ⟨0⟩ reader).run .predeclared
  let (second, t) := (Typing.checkPackage #[first] [] ⟨1⟩ { writer with path := "example.com/lib" }).run t
  { table := t, packages := #[first, second], roots := [⟨0⟩, ⟨1⟩] }

/-- The account of `readerAndWriter`, which is the same if the second package is named first. -/
theorem reader_and_writer_accounted :
    (readerAndWriter.analyze .allowAll .default).diagnostics = [⟨"a.go", 4, 2, "Write", "Writer"⟩] ∧
    (readerAndWriter.analyze .allowAll .default).declared = (readerAndWriter.analyze .allowAll .default).used + 1 ∧
    { readerAndWriter with roots := [⟨1⟩, ⟨0⟩] : Program }.analyze .allowAll .default =
      readerAndWriter.analyze .allowAll .default := by
  have h : (readerAndWriter.rootPackages.map (·.path)).Nodup ∧ readerAndWriter.roots = [⟨0⟩, ⟨1⟩] ∧
      ((readerAndWriter.unitReports .allowAll .default).flatMap (·.diagnostics)) =
        [⟨"a.go", 4, 2, "Write", "Writer"⟩] := by
    decide +kernel
  obtain ⟨hpaths, hroots, hfound⟩ := h
  obtain ⟨-, -, htotal, hperm, -, horder⟩ := analyze_accounts readerAndWriter .allowAll .default hpaths
  rw [hfound] at hperm
  have hdiagnostics := hperm.eq_singleton
  rw [hdiagnostics] at htotal
  refine ⟨hdiagnostics, htotal, horder _ ?_⟩
  rw [hroots]
  exact .swap _ _ []

end Program

end UnusedMethods
