import UnusedMethods.Proofs.HiddenBodies
import UnusedMethods.Proofs.Locations
import UnusedMethods.Proofs.SameVerdicts

/-!
# What the bodies in ignored files can change

A filter leaves out files: no methods are registered for them, and they are not walked through. They are checked all the
same, and the types that they declare, also in the bodies of functions, are among the types of the package. When a method
is selected from a variable that points to a type, all types of the package with the name of that type are looked at. So
a type in the body of an ignored function can make a method used.

Nothing else gets through, as long as no instance of a generic type is made for such a body: two packages that differ only
in bodies in ignored files declare the same methods, and what is used in one and not in the other is held by a type of an
ignored file.
-/

namespace UnusedMethods.Methods

open Syntax UnusedMethods.Types Typing

/-! ## Types of ignored files -/

namespace CheckedPackage

/-- The files of a package that a filter leaves out, with what is known about them. -/
def ignoredFiles (u : CheckedPackage) (filter : PathFilter) : List (File × FileInfo) :=
  (u.package.files.zip u.package.infos).filter fun file => filter.ignores file.1.relPath

/-- The package without the files that a filter leaves out. -/
def withoutIgnored (u : CheckedPackage) (filter : PathFilter) : CheckedPackage := u.withFiles (u.files filter)

/-- Whether a method is found to be used if nothing is known about the files that the filter leaves out. -/
def findsWithoutIgnored (u : CheckedPackage) (filter : PathFilter) (options : Options) (d : MethodDeclaration) : Bool :=
  (track (u.withoutIgnored filter) (collect u filter options) filter options).contains d.method

/-- On the walk, a method is selected from a variable that points to a type, and a type of this name in a file that the
filter leaves out satisfies the interface of the method. -/
def HeldByIgnored (u : CheckedPackage) (filter : PathFilter) (d : MethodDeclaration) : Prop :=
  ∃ before e after var target id, u.walk filter = before ++ e :: after ∧ SelectsFrom u.table e var d ∧
    PointsTo u.table before var target ∧
    id ∈ declaredTypesNamed u.table (u.withFiles (u.ignoredFiles filter)).package target ∧
    u.table.satisfies id d.interface = true

variable {u : CheckedPackage} {filter : PathFilter} {d : MethodDeclaration}

theorem files_withoutIgnored : (u.withoutIgnored filter).files filter = u.files filter := by
  rw [withoutIgnored, files_withFiles, List.filter_eq_self.2]
  exact fun _ hfile => (List.mem_filter.1 hfile).2

theorem walk_withoutIgnored : (u.withoutIgnored filter).walk filter = u.walk filter := by
  have hwalk : (u.withoutIgnored filter).walk filter = walkThrough ((u.withoutIgnored filter).files filter) := rfl
  rw [hwalk, files_withoutIgnored]
  rfl

theorem mem_declaredTypesNamed_cases (hlength : u.package.files.length = u.package.infos.length) {name : String} {id : TypeId}
    (h : id ∈ declaredTypesNamed u.table u.package name) :
    id ∈ declaredTypesNamed u.table (u.withoutIgnored filter).package name ∨
      id ∈ declaredTypesNamed u.table (u.withFiles (u.ignoredFiles filter)).package name := by
  obtain ⟨⟨info, hinfo, hdef⟩, hname⟩ := mem_declaredTypesNamed_iff.1 h
  obtain ⟨⟨file, info⟩, hmem, rfl⟩ : ∃ q ∈ u.package.files.zip u.package.infos, q.2 = info := by
    rw [← List.map_snd_zip (Nat.le_of_eq hlength.symm)] at hinfo
    exact List.mem_map.1 hinfo
  cases hignores : filter.ignores file.relPath with
  | true =>
    have hfile : (file, info) ∈ u.ignoredFiles filter := List.mem_filter.2 ⟨hmem, hignores⟩
    exact .inr (mem_declaredTypesNamed_iff.2 ⟨⟨info, List.mem_map.2 ⟨_, hfile, rfl⟩, hdef⟩, hname⟩)
  | false =>
    have hfile : (file, info) ∈ u.files filter := List.mem_filter.2 ⟨hmem, by simp [hignores]⟩
    exact .inl (mem_declaredTypesNamed_iff.2 ⟨⟨info, List.mem_map.2 ⟨_, hfile, rfl⟩, hdef⟩, hname⟩)

theorem justified_iff_withoutIgnored (hlength : u.package.files.length = u.package.infos.length) (registry : Registry)
    (mode : GenericMatch) :
    Justified ⟨u, registry, mode⟩ (u.walk filter) d ↔
      Justified ⟨u.withoutIgnored filter, registry, mode⟩ (u.walk filter) d ∨ u.HeldByIgnored filter d := by
  have hzip := u.withFiles_zip hlength
  have hfiles : u.files filter ⊆ u.package.files.zip u.package.infos := List.filter_subset_self _
  have hignored : u.ignoredFiles filter ⊆ u.package.files.zip u.package.infos := List.filter_subset_self _
  -- what is met alone justifies does not depend on the files, so the types that are looked at make the difference
  have halone : ∀ {info item}, Justifies ⟨u, registry, mode⟩ [] info d item ↔
      Justifies ⟨u.withoutIgnored filter, registry, mode⟩ [] info d item := by
    intro info item
    constructor
    · intro h
      rw [← hzip] at h
      exact h.withFiles (u.files filter)
    · intro h
      rw [← hzip]
      exact h.withFiles _
  constructor
  · rintro ⟨before, info, item, after, hwalk, hjust⟩
    rcases justifies_iff.1 hjust with hjust | ⟨var, hsel, hcopy | ⟨target, id, hpoints, hid, hsat⟩⟩
    · exact .inl ⟨before, info, item, after, hwalk, justifies_iff.2 (.inl (halone.1 hjust))⟩
    · exact .inl ⟨before, info, item, after, hwalk, justifies_iff.2 (.inr ⟨var, hsel, .inl hcopy⟩)⟩
    · rcases mem_declaredTypesNamed_cases hlength hid with hid | hid
      · exact .inl ⟨before, info, item, after, hwalk, justifies_iff.2 (.inr ⟨var, hsel, .inr ⟨target, id, hpoints, hid, hsat⟩⟩)⟩
      · exact .inr ⟨before, (info, item), after, var, target, id, hwalk, hsel, hpoints, hid, hsat⟩
  · rintro (⟨before, info, item, after, hwalk, hjust⟩ |
      ⟨before, ⟨info, item⟩, after, var, target, id, hwalk, hsel, hpoints, hid, hsat⟩)
    · refine ⟨before, info, item, after, hwalk, justifies_iff.2 ?_⟩
      rcases justifies_iff.1 hjust with hjust | ⟨var, hsel, hcopy | ⟨target, id, hpoints, hid, hsat⟩⟩
      · exact .inl (halone.2 hjust)
      · exact .inr ⟨var, hsel, .inl hcopy⟩
      · refine .inr ⟨var, hsel, .inr ⟨target, id, hpoints, ?_, hsat⟩⟩
        exact hzip ▸ mem_declaredTypesNamed_withFiles hfiles hid
    · refine ⟨before, info, item, after, hwalk, justifies_iff.2 (.inr ⟨var, hsel, .inr ⟨target, id, hpoints, ?_, hsat⟩⟩)⟩
      exact hzip ▸ mem_declaredTypesNamed_withFiles hignored hid

/-- A method is found in the files that are walked through, or it is held by a type of another file. -/
theorem finds_iff (hlength : u.package.files.length = u.package.infos.length) {options : Options}
    (hd : d ∈ (collect u filter options).entries) :
    u.finds filter options d = true ↔ u.findsWithoutIgnored filter options d = true ∨ u.HeldByIgnored filter d := by
  rw [finds, findsWithoutIgnored, contains_track_iff_justified hd, contains_track_iff_justified hd, walk_withoutIgnored]
  exact justified_iff_withoutIgnored hlength _ _

end CheckedPackage

/-! ## Packages that correspond -/

section Alike

variable {k : Correspondence}

theorem MethodDeclaration.Alike.diagnostic_eq {d e : MethodDeclaration} (h : d.Alike k e) :
    Diagnostic.ofDeclaration e = .ofDeclaration d := by
  rw [Diagnostic.ofDeclaration, Diagnostic.ofDeclaration, h.path, h.pos, h.name, h.interfaceName]

theorem forall₂_walkThrough {files files' : List (File × FileInfo)} (h : List.Forall₂ (FileAlike k) files files') :
    List.Forall₂ (MetAlike k) (walkThrough files) (walkThrough files') := by
  refine List.rel_flatMap h fun f g hfg => ?_
  rw [hfg.1]
  exact List.rel_map (R := Eq) (fun _ _ hitem => ⟨hitem.symm, hfg.2⟩) (List.forall₂_same.2 fun _ _ => rfl)

theorem findsWithoutIgnored_eq {u v : CheckedPackage} {filter : PathFilter} {options : Options}
    (h : k.Between u.table v.table) (hfiles : List.Forall₂ (FileAlike k) (u.files filter) (v.files filter))
    {d e : MethodDeclaration} (hd : d ∈ (collect u filter options).entries) (he : e ∈ (collect v filter options).entries)
    (hde : d.Alike k e) : v.findsWithoutIgnored filter options e = u.findsWithoutIgnored filter options d := by
  have halike : Search.Alike k ⟨u.withoutIgnored filter, collect u filter options, options.genericMatch⟩
      ⟨v.withoutIgnored filter, collect v filter options, options.genericMatch⟩ :=
    ⟨h, List.rel_map (fun _ _ hfg => hfg.2) hfiles, forall₂_collect h hfiles options, rfl⟩
  rw [Bool.eq_iff_iff, CheckedPackage.findsWithoutIgnored, CheckedPackage.findsWithoutIgnored,
    contains_track_iff_justified he, contains_track_iff_justified hd, CheckedPackage.walk_withoutIgnored,
    CheckedPackage.walk_withoutIgnored]
  exact halike.justified_iff (forall₂_walkThrough hfiles) hd he hde

end Alike

/-- Declarations in two packages that say the same. Without the ignored files, the methods get the same verdict; with them,
each is also used if a type of an ignored file holds it. -/
structure SameUpToHeld (u v : CheckedPackage) (filter : PathFilter) (options : Options) (d e : MethodDeclaration) :
    Prop where
  diagnostic : Diagnostic.ofDeclaration e = .ofDeclaration d
  withoutIgnored : v.findsWithoutIgnored filter options e = u.findsWithoutIgnored filter options d
  left : u.finds filter options d = true ↔ u.findsWithoutIgnored filter options d = true ∨ u.HeldByIgnored filter d
  right : v.finds filter options e = true ↔ v.findsWithoutIgnored filter options e = true ∨ v.HeldByIgnored filter e

section SameUpToHeld

variable {u v w : CheckedPackage} {filter : PathFilter} {options : Options} {d e : MethodDeclaration} {k k' : Correspondence}

/-- Where it does not matter which types hold the method, it gets the same verdict. -/
theorem SameUpToHeld.finds_eq (h : SameUpToHeld u v filter options d e)
    (hheld : u.findsWithoutIgnored filter options d = true ∨ (v.HeldByIgnored filter e ↔ u.HeldByIgnored filter d)) :
    v.finds filter options e = u.finds filter options d := by
  rw [Bool.eq_iff_iff, h.left, h.right, h.withoutIgnored]
  rcases hheld with hfound | hheld
  · simp only [hfound, true_or]
  · rw [hheld]

/-- Two packages that both correspond to a third one. -/
theorem forall₂_sameUpToHeld (hu : k.Between w.table u.table)
    (hufiles : List.Forall₂ (FileAlike k) (w.files filter) (u.files filter)) (hv : k'.Between w.table v.table)
    (hvfiles : List.Forall₂ (FileAlike k') (w.files filter) (v.files filter))
    (hulength : u.package.files.length = u.package.infos.length) (hvlength : v.package.files.length = v.package.infos.length)
    (options : Options) :
    List.Forall₂ (SameUpToHeld u v filter options) (collect u filter options).entries (collect v filter options).entries := by
  have hd := forall₂_collect hu hufiles options
  have he := forall₂_collect hv hvfiles options
  refine List.forall₂_iff_get.2 ⟨hd.length_eq.symm.trans he.length_eq, fun i hi hi' => ?_⟩
  have hi₀ : i < (collect w filter options).entries.length := hd.length_eq ▸ hi
  have hdi := hd.get hi₀ hi
  have hei := he.get hi₀ hi'
  exact {
    diagnostic := hei.diagnostic_eq.trans hdi.diagnostic_eq.symm
    withoutIgnored := (findsWithoutIgnored_eq hv hvfiles (List.get_mem ..) (List.get_mem ..) hei).trans
      (findsWithoutIgnored_eq hu hufiles (List.get_mem ..) (List.get_mem ..) hdi).symm
    left := CheckedPackage.finds_iff hulength (List.get_mem ..)
    right := CheckedPackage.finds_iff hvlength (List.get_mem ..) }

end SameUpToHeld

end UnusedMethods.Methods

/-! ## Packages that differ in ignored bodies -/

namespace UnusedMethods.Typing.PackageCheck

open Syntax UnusedMethods.Types Methods

/-- The package when it has been checked. -/
def unit (p : PackageCheck) : CheckedPackage where
  table := (p.source.checked p.packages p.byPath p.id p.table).2
  package := (p.source.checked p.packages p.byPath p.id p.table).1

/-- The check of another package at the same stage. -/
def withSource (p : PackageCheck) (source : PackageSource) : PackageCheck := { p with source }

variable (p : PackageCheck) {filter : PathFilter}

theorem package_unit : p.unit.package = p.source.package p.id p.finalNotes := by
  rw [unit, PackageSource.checked, run_checkPackage, finalNotes, context]

theorem table_unit : p.unit.table = p.final := by
  rw [unit, final]

theorem files_unit : p.unit.package.files = p.source.files := by
  rw [package_unit, PackageSource.package]

theorem infos_unit : p.unit.package.infos = p.finalNotes.infos.toList := by
  rw [package_unit, PackageSource.package]

theorem path_unit : p.unit.package.path = p.source.path := by
  rw [package_unit, PackageSource.package]

theorem length_unit : p.unit.package.files.length = p.unit.package.infos.length := by
  have hlength : p.unit.package.infos.length = p.source.files.length := by
    rw [unit, PackageSource.checked, length_infos_checkPackage]
  rw [hlength, files_unit]

theorem files_unit_bare : (p.bare filter).unit.package.files =
    p.unit.package.files.map fun f => if filter.ignores f.relPath then f.withoutBodies else f := by
  rw [files_unit, files_unit, bare, PackageSource.withoutBodies]

/-- Files of which the ignored ones lose their bodies, with records that correspond for the others. -/
theorem forall₂_files {k : Correspondence} {files : List File} {infos infos' : List FileInfo}
    (hlength : files.length = infos.length) (hlength' : files.length = infos'.length)
    (h : ∀ (i : Nat) (f : File), files[i]? = some f → filter.ignores f.relPath = false →
      Option.Rel (FileInfo.Alike k) infos[i]? infos'[i]?) :
    List.Forall₂ (FileAlike k)
      (((files.map fun f : File => if filter.ignores f.relPath then f.withoutBodies else f).zip infos).filter
        fun (f, _) => !filter.ignores f.relPath)
      ((files.zip infos').filter fun (f, _) => !filter.ignores f.relPath) := by
  induction files generalizing infos infos' with
  | nil => exact .nil
  | cons f files ih =>
    obtain ⟨x, infos, rfl⟩ := List.exists_cons_of_length_eq_add_one hlength.symm
    obtain ⟨y, infos', rfl⟩ := List.exists_cons_of_length_eq_add_one hlength'.symm
    have hrest := ih (Nat.succ.inj hlength) (Nat.succ.inj hlength') fun i => h (i + 1)
    cases hignores : filter.ignores f.relPath with
    | true => simpa [hignores, File.withoutBodies] using hrest
    | false =>
      cases h 0 f rfl hignores with
      | some hxy => simpa [hignores] using ⟨⟨rfl, hxy⟩, hrest⟩

/-- What is known about the files that are walked through does not depend on the bodies in the others. -/
theorem exists_alike_files (hquiet : p.NoHiddenInstances filter) :
    ∃ k : Correspondence, k.Between (p.bare filter).unit.table p.unit.table ∧
      List.Forall₂ (FileAlike k) ((p.bare filter).unit.files filter) (p.unit.files filter) := by
  obtain ⟨k, -, hstates⟩ := exists_states_final hquiet
  have hlength := (p.bare filter).length_unit
  rw [files_unit_bare, List.length_map] at hlength
  refine ⟨k, ?_, ?_⟩
  · rw [table_unit, table_unit]
    exact hstates.tables
  unfold CheckedPackage.files
  rw [files_unit_bare]
  refine forall₂_files hlength p.length_unit fun i f hf hignores => ?_
  rw [files_unit] at hf
  have hvisible : p.visible filter i := by
    rw [visible, PackageSource.ignored, hf, Option.any_some, hignores]
  rw [infos_unit, infos_unit, Array.getElem?_toList, Array.getElem?_toList]
  exact hstates.notes.infos i hvisible

theorem bare_withSource {other : PackageSource} (hsame : other.withoutBodies filter = p.source.withoutBodies filter) :
    (p.withSource other).bare filter = p.bare filter := by
  unfold withSource bare
  dsimp only
  rw [hsame]

end UnusedMethods.Typing.PackageCheck

namespace UnusedMethods.Path

/-! ## Names of files -/

theorem clean_of_name {s : String} (hslash : '/' ∉ s.toList) (hback : '\\' ∉ s.toList) (hempty : s ≠ "") (hdot : s ≠ ".")
    (hdots : s ≠ "..") : Path.clean s = s := by
  have habsolute : s.startsWith "/" = false := by
    rw [← Bool.not_eq_true, String.startsWith_string_iff]
    exact fun hstart => hslash (hstart.subset (by decide))
  unfold Path.clean
  simp [slashed_eq hback, splitOn_eq_singleton hslash, habsolute, Path.cleanStep, hempty, hdot, hdots]

end UnusedMethods.Path

namespace UnusedMethods.Methods

open Syntax UnusedMethods.Types Typing

/-- Two packages that differ only in the bodies of functions and methods in ignored files, for which no instances of generic
types are made, declare the same methods. Without the ignored files, the same methods are found to be used. With them, a
method is also used if a type of an ignored file holds it. Where this makes no difference, the reports are the same. -/
theorem verdicts_up_to_held (p : PackageCheck) (filter : PathFilter) (options : Options) (other : PackageSource)
    (hsame : other.withoutBodies filter = p.source.withoutBodies filter) (hquiet : p.NoHiddenInstances filter)
    (hquiet' : (p.withSource other).NoHiddenInstances filter) :
    List.Forall₂ (SameUpToHeld p.unit (p.withSource other).unit filter options)
      (collect p.unit filter options).entries (collect (p.withSource other).unit filter options).entries ∧
    (List.Forall₂ (fun d e => p.unit.findsWithoutIgnored filter options d = true ∨
        ((p.withSource other).unit.HeldByIgnored filter e ↔ p.unit.HeldByIgnored filter d))
      (collect p.unit filter options).entries (collect (p.withSource other).unit filter options).entries →
    analyzeUnit (p.withSource other).unit filter options = analyzeUnit p.unit filter options) := by
  -- both packages are compared with the one that has no such bodies
  obtain ⟨k, hbetween, hfiles⟩ := p.exists_alike_files hquiet
  obtain ⟨k', hbetween', hfiles'⟩ := (p.withSource other).exists_alike_files hquiet'
  rw [p.bare_withSource hsame] at hbetween' hfiles'
  have hpairs := forall₂_sameUpToHeld hbetween hfiles hbetween' hfiles' p.length_unit (p.withSource other).length_unit options
  have hpath : (p.withSource other).unit.package.path = p.unit.package.path := by
    rw [PackageCheck.path_unit, PackageCheck.path_unit]
    exact congrArg (·.path) hsame
  refine ⟨hpairs, fun hheld => analyzeUnit_eq hpath ?_⟩
  exact List.Forall₂.mp (fun d e hde hheld => ⟨hde.diagnostic, hde.finds_eq hheld⟩) hpairs hheld

/-! ## A local type that counts -/

/-- The declaration `type Crash struct{ error }`, with its name at the given place. -/
def crashSpec (line column : Nat) : TypeSpec :=
  ⟨⟨"Crash", ⟨line, column⟩⟩, [], false,
    .struct [⟨[⟨"error", ⟨line, column + 14⟩⟩], .name ⟨"error", ⟨line, column + 14⟩⟩, true⟩]⟩

/-- A package that declares `Crash`. -/
def libSource : PackageSource where
  path := "example.com/app/lib"
  name := "lib"
  dir := none
  files := [⟨0, "lib/lib.go", "lib/lib.go", ⟨⟨"lib", ⟨1, 9⟩⟩, [], [.decl (.type [crashSpec 3 6])]⟩⟩]

/-- The file, in which `lib` is imported in the third line,
```
package app

type Failure interface{ Error() string }

func use() string {
	var x error = &lib.Crash{}
	return x.Error()
}
```
-/
def crashTree : SourceFile where
  package := ⟨"app", ⟨1, 9⟩⟩
  imports := [⟨⟨3, 8⟩, none, "example.com/app/lib"⟩]
  decls := [
    .decl (.type [⟨⟨"Failure", ⟨5, 6⟩⟩, [], false,
      .interface [⟨⟨"Error", ⟨5, 25⟩⟩, ⟨[], [⟨⟨5, 33⟩, [], .name ⟨"string", ⟨5, 33⟩⟩⟩], false⟩⟩] []⟩]),
    .func ⟨⟨"use", ⟨7, 6⟩⟩, none, [], ⟨[], [⟨⟨7, 12⟩, [], .name ⟨"string", ⟨7, 12⟩⟩⟩], false⟩, some [
      .decl (.var [⟨⟨8, 6⟩, [⟨"x", ⟨8, 6⟩⟩], some (.name ⟨"error", ⟨8, 8⟩⟩),
        [.unary ⟨0, ⟨8, 16⟩⟩ "&" (.composite ⟨1, ⟨8, 17⟩⟩ (some (.qualified ⟨"lib", ⟨8, 17⟩⟩ ⟨"Crash", ⟨8, 21⟩⟩)) [])]⟩]),
      .return [.call ⟨2, ⟨9, 9⟩⟩ (.selector ⟨3, ⟨9, 9⟩⟩ (.ident ⟨4, ⟨9, 9⟩⟩ "x") ⟨"Error", ⟨9, 11⟩⟩) [] [] false]]⟩]

/-- The file of a function with the given body. -/
def helperTree (body : List Stmt) : SourceFile where
  package := ⟨"app", ⟨1, 9⟩⟩
  imports := []
  decls := [.func ⟨⟨"helper", ⟨3, 6⟩⟩, none, [], ⟨[], [], false⟩, some body⟩]

/-- A package with both files. -/
def crashSource (body : List Stmt) : PackageSource where
  path := "example.com/app"
  name := "app"
  dir := none
  files := [⟨1, "a.go", "a.go", crashTree⟩, ⟨2, "a_test.go", "a_test.go", helperTree body⟩]

/-- The check of the package. -/
def crashCheck (body : List Stmt) : PackageCheck where
  table := (libSource.checked #[] [] ⟨0⟩ .predeclared).2
  packages := #[(libSource.checked #[] [] ⟨0⟩ .predeclared).1]
  stage := .checked .start [] ⟨0⟩ libSource
  byPath := [("example.com/app/lib", ⟨0⟩)]
  id := ⟨1⟩
  source := crashSource body

/-- The statement `type Crash struct{ error }`. -/
def localCrash : Stmt := .decl (.type [crashSpec 4 7])

theorem defaults_ignores : PathFilter.defaults.ignores "a.go" = false ∧ PathFilter.defaults.ignores "a_test.go" = true := by
  unfold PathFilter.ignores
  rw [Path.clean_of_name (s := "a.go") (by decide) (by decide) (by decide) (by decide) (by decide),
    Path.clean_of_name (s := "a_test.go") (by decide) (by decide) (by decide) (by decide) (by decide)]
  decide +kernel

theorem withoutBodies_crashSource (body : List Stmt) :
    (crashSource body).withoutBodies .defaults = (crashSource []).withoutBodies .defaults := by
  simp only [PackageSource.withoutBodies, crashSource, List.map_cons, List.map_nil, defaults_ignores.1, defaults_ignores.2]
  rfl

/-- Only the first file is walked through. -/
theorem files_crashCheck (body : List Stmt) : (crashCheck body).unit.files .defaults =
    ((crashCheck body).unit.package.files.zip (crashCheck body).unit.package.infos).take 1 := by
  have hlength := (crashCheck body).length_unit
  unfold CheckedPackage.files
  rw [PackageCheck.files_unit] at hlength ⊢
  generalize (crashCheck body).unit.package.infos = infos at hlength ⊢
  obtain ⟨x, infos, rfl⟩ := List.exists_cons_of_length_eq_add_one hlength.symm
  obtain ⟨y, infos, rfl⟩ := List.exists_cons_of_length_eq_add_one (Nat.succ.inj hlength).symm
  simp [crashCheck, crashSource, defaults_ignores.1, defaults_ignores.2]

theorem collect_of_files {u : CheckedPackage} {filter : PathFilter} {files : List (File × FileInfo)}
    (hfiles : u.files filter = files) (options : Options) :
    collect u filter options = .ofDeclarations (files.flatMap fun q => collectFile u.table options q.1 q.2) := by
  rw [collect_eq_ofDeclarations, CheckedPackage.declarations, hfiles]

theorem track_of_files {u : CheckedPackage} {filter : PathFilter} {files : List (File × FileInfo)}
    (hfiles : u.files filter = files) (registry : Registry) (options : Options) :
    track u registry filter options =
      (Search.visitFiles ⟨u, registry, options.genericMatch⟩ (.start u.table) files).used := by
  unfold track
  rw [hfiles]

/-- The test file declares a `Crash` of its own in the body of a function, or it does not. The method of `Failure` is
selected from a variable that points to a `Crash` of another package. It is used because of the local type. -/
theorem local_type_in_ignored_body_counts :
    (crashSource []).withoutBodies .defaults = (crashSource [localCrash]).withoutBodies .defaults ∧
    (crashCheck [localCrash]).NoHiddenInstances .defaults ∧ (crashCheck []).NoHiddenInstances .defaults ∧
    (analyzeUnit (crashCheck [localCrash]).unit .defaults .default).diagnostics = [] ∧
    (analyzeUnit (crashCheck []).unit .defaults .default).diagnostics = [⟨"a.go", 5, 25, "Error", "Failure"⟩] ∧
    ∃ d ∈ (collect (crashCheck [localCrash]).unit .defaults .default).entries,
      (crashCheck [localCrash]).unit.findsWithoutIgnored .defaults .default d = false ∧
      (crashCheck [localCrash]).unit.HeldByIgnored .defaults d := by
  have hsame := (withoutBodies_crashSource [localCrash]).symm
  have hquiet : (crashCheck [localCrash]).NoHiddenInstances .defaults :=
    PackageCheck.noHiddenInstances_of_final _ _ (by decide +kernel)
  have hquiet' : (crashCheck []).NoHiddenInstances .defaults :=
    PackageCheck.noHiddenInstances_of_final _ _ (by decide +kernel)
  have hfiles := files_crashCheck [localCrash]
  have hfiles' := files_crashCheck []
  have hused : ∃ d ∈ (collect (crashCheck [localCrash]).unit .defaults .default).entries,
      (crashCheck [localCrash]).unit.finds .defaults .default d = true := by
    simp only [CheckedPackage.finds, collect_of_files hfiles]
    simp only [track_of_files hfiles]
    decide +kernel
  have hunused : ∀ e ∈ (collect (crashCheck []).unit .defaults .default).entries,
      (crashCheck []).unit.finds .defaults .default e = false := by
    simp only [CheckedPackage.finds, collect_of_files hfiles']
    simp only [track_of_files hfiles']
    decide +kernel
  have hreport : (analyzeUnit (crashCheck [localCrash]).unit .defaults .default).diagnostics = [] := by
    rw [analyzeUnit, collect_of_files hfiles, track_of_files hfiles]
    decide +kernel
  have hreport' : (analyzeUnit (crashCheck []).unit .defaults .default).diagnostics =
      [⟨"a.go", 5, 25, "Error", "Failure"⟩] := by
    rw [analyzeUnit, collect_of_files hfiles', track_of_files hfiles']
    decide +kernel
  obtain ⟨d, hd, hfinds⟩ := hused
  obtain ⟨e, he, hde⟩ := exists_of_mem_left
    (verdicts_up_to_held (crashCheck [localCrash]) .defaults .default (crashSource []) hsame hquiet hquiet').1 hd
  -- what is found without the ignored file is found in the other package too
  have hwithout : (crashCheck [localCrash]).unit.findsWithoutIgnored .defaults .default d = false := by
    rw [← hde.withoutIgnored, ← Bool.not_eq_true]
    intro hfound
    cases (hunused e he).symm.trans (hde.right.2 (.inl hfound))
  refine ⟨hsame, hquiet, hquiet', hreport, hreport', d, hd, hwithout, (hde.left.1 hfinds).resolve_left ?_⟩
  rw [hwithout]
  exact Bool.false_ne_true

end UnusedMethods.Methods
