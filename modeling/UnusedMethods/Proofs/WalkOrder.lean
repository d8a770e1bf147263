import UnusedMethods.Proofs.CalledMethods

/-!
# Which files are walked through, and in which order

A walk notes bindings and looks them up as it goes. So what it finds in a file depends on the files that it has been
through, but only where a method is selected from a variable that one of these files declares. What a selector or a
call shows of itself, and what it shows with the declarations before it in its own file, does not depend on the walk.

Declarations that take addresses add up. Of the declarations that make a variable a copy only the last one counts, and
it may stand in any file, even in the body of a function that has nothing to do with the variable.
-/

namespace UnusedMethods.Methods

open Syntax UnusedMethods.Types Typing

variable {before before' : List Met} {info : FileInfo} {item : Item} {t : Table} {var source target : String}
  {d : MethodDeclaration} {mode : GenericMatch} {files' : List (File × FileInfo)} {m : FuncId}

/-! ## Walks through files -/

/-- What a walk through some files meets. -/
def walkThrough (files : List (File × FileInfo)) : List Met :=
  files.flatMap fun file => file.1.tree.items.map fun item => (file.2, item)

namespace CheckedPackage

/-- The same package with other files, each with what is known about it. -/
def withFiles (u : CheckedPackage) (files : List (File × FileInfo)) : CheckedPackage :=
  { u with package := { u.package with files := files.map (·.1), infos := files.map (·.2) } }

@[simp] theorem table_withFiles (u : CheckedPackage) (files : List (File × FileInfo)) :
    (u.withFiles files).table = u.table := rfl

theorem files_withFiles (u : CheckedPackage) (files : List (File × FileInfo)) (filter : PathFilter) :
    (u.withFiles files).files filter = files.filter fun file => !filter.ignores file.1.relPath := by
  have hzip : (files.map (·.1)).zip (files.map (·.2)) = files := by
    rw [List.zip_map', List.map_id']
  unfold CheckedPackage.files
  show ((files.map (·.1)).zip (files.map (·.2))).filter _ = _
  rw [hzip]

theorem withFiles_zip (u : CheckedPackage) (h : u.package.files.length = u.package.infos.length) :
    u.withFiles (u.package.files.zip u.package.infos) = u := by
  unfold withFiles
  rw [List.map_fst_zip (Nat.le_of_eq h), List.map_snd_zip (Nat.le_of_eq h.symm)]

theorem walk_withFiles (u : CheckedPackage) (files : List (File × FileInfo)) (filter : PathFilter) :
    (u.withFiles files).walk filter = walkThrough (files.filter fun file => !filter.ignores file.1.relPath) := by
  rw [← files_withFiles u]
  rfl

end CheckedPackage

theorem walkThrough_append (files files' : List (File × FileInfo)) :
    walkThrough (files ++ files') = walkThrough files ++ walkThrough files' := List.flatMap_append

/-- What is met on a walk stands in one of the files, behind the files before it and what comes before it in its file. -/
theorem walkThrough_eq_append_cons_iff {files : List (File × FileInfo)} {after : List Met} :
    walkThrough files = before ++ (info, item) :: after ↔
      ∃ earlier file later itemsBefore itemsAfter, files = earlier ++ (file, info) :: later ∧
        file.tree.items = itemsBefore ++ item :: itemsAfter ∧
        before = walkThrough earlier ++ itemsBefore.map (fun i => (info, i)) ∧
        after = itemsAfter.map (fun i => (info, i)) ++ walkThrough later := by
  constructor
  · intro h
    induction files generalizing before with
    | nil => simp [walkThrough] at h
    | cons file files ih =>
      obtain ⟨file, info'⟩ := file
      have hcons : walkThrough ((file, info') :: files) =
          file.tree.items.map (fun i => (info', i)) ++ walkThrough files := rfl
      rw [hcons, List.append_eq_append_iff] at h
      rcases h with ⟨mid, rfl, hrest⟩ | ⟨mid, hitems, hrest⟩
      · -- the item stands in a later file
        obtain ⟨earlier, file', later, itemsBefore, itemsAfter, rfl, hitems, rfl, rfl⟩ := ih hrest
        exact ⟨(file, info') :: earlier, file', later, itemsBefore, itemsAfter, rfl, hitems,
          by rw [← List.append_assoc]; rfl, rfl⟩
      · cases mid with
        | nil =>
          have hfirst : walkThrough files = [] ++ (info, item) :: after := hrest.symm
          obtain ⟨earlier, file', later, itemsBefore, itemsAfter, rfl, hitems', hbefore, rfl⟩ := ih hfirst
          refine ⟨(file, info') :: earlier, file', later, itemsBefore, itemsAfter, rfl, hitems', ?_, rfl⟩
          have hcons' : walkThrough ((file, info') :: earlier) =
              file.tree.items.map (fun i => (info', i)) ++ walkThrough earlier := rfl
          rw [hcons', hitems, List.append_nil, List.append_assoc, ← hbefore, List.append_nil]
        | cons e mid =>
          -- the item stands in this file
          obtain ⟨rfl, rfl⟩ := List.cons.inj hrest
          obtain ⟨itemsBefore, rest, hsplit, rfl, hmid⟩ := List.map_eq_append_iff.1 hitems
          obtain ⟨item', itemsAfter, rfl, hitem, rfl⟩ := List.map_eq_cons_iff.1 hmid
          obtain ⟨rfl, rfl⟩ := Prod.mk.inj hitem
          exact ⟨[], file, files, itemsBefore, itemsAfter, rfl, hsplit, rfl, rfl⟩
  · rintro ⟨earlier, file, later, itemsBefore, itemsAfter, rfl, hitems, rfl, rfl⟩
    have hcons : walkThrough ((file, info) :: later) =
        file.tree.items.map (fun i => (info, i)) ++ walkThrough later := rfl
    rw [walkThrough_append, hcons, hitems]
    simp

/-! ## Uses with and without a variable -/

/-- What is met selects, from a variable, a method with the name and signature of a declared one. -/
def SelectsFrom (t : Table) (e : Met) (var : String) (d : MethodDeclaration) : Prop :=
  ∃ node inner field called recv, e.2 = .expr (.selector node (.ident inner var) field) ∧
    Selects e.1 node called recv ∧ d.name = (t.func called).name ∧
    t.identical (t.func d.method).sig (t.func called).sig = true

/-- A variable points to a type of the package that satisfies the interface of a declaration. -/
def PointsToImplementation (s : Search) (before : List Met) (var : String) (d : MethodDeclaration) : Prop :=
  ∃ target id, PointsTo s.table before var target ∧ id ∈ declaredTypesNamed s.table s.unit.package target ∧
    s.table.satisfies id d.interface = true

theorem not_lastCopy_nil : ¬ LastCopy t [] var source := by
  rintro ⟨earlier, e, later, heq, -⟩
  simp at heq

theorem not_pointsTo_nil : ¬ PointsTo t [] var target := by
  rintro ⟨e, he, -⟩
  cases he

/-- A method is used because of what is met alone, or because of the variable from which it is selected. -/
theorem justifies_iff {s : Search} : Justifies s before info d item ↔ Justifies s [] info d item ∨
      ∃ var, SelectsFrom s.table (info, item) var d ∧
        (LastCopy s.table before var d.interfaceName ∨ PointsToImplementation s before var d) := by
  constructor
  · intro h
    cases h with
    | selected hsel hname hmatch => exact .inl (.selected hsel hname hmatch)
    | formatted hfunc harg htype himpl hname hsig hsole =>
      exact .inl (.formatted hfunc harg htype himpl hname hsig hsole)
    | copied hsel hname hsig hcopy => exact .inr ⟨_, ⟨_, _, _, _, _, rfl, hsel, hname, hsig⟩, .inl hcopy⟩
    | pointed hsel hname hsig hpoints hid hsat =>
      exact .inr ⟨_, ⟨_, _, _, _, _, rfl, hsel, hname, hsig⟩, .inr ⟨_, _, hpoints, hid, hsat⟩⟩
  · rintro (h | ⟨var, ⟨node, inner, field, called, recv, rfl, hsel, hname, hsig⟩, hcopy | ⟨target, id, hpoints, hid, hsat⟩⟩)
    · cases h with
      | selected hsel hname hmatch => exact .selected hsel hname hmatch
      | formatted hfunc harg htype himpl hname hsig hsole =>
        exact .formatted hfunc harg htype himpl hname hsig hsole
      | copied _ _ _ hcopy => exact absurd hcopy not_lastCopy_nil
      | pointed _ _ _ hpoints => exact absurd hpoints not_pointsTo_nil
    · exact .copied hsel hname hsig hcopy
    · exact .pointed hsel hname hsig hpoints hid hsat

theorem Justifies.withFiles {u : CheckedPackage} {registry : Registry} {files : List (File × FileInfo)}
    (h : Justifies ⟨u.withFiles files, registry, mode⟩ [] info d item) (files' : List (File × FileInfo)) :
    Justifies ⟨u.withFiles files', registry, mode⟩ [] info d item := by
  cases h with
  | selected hsel hname hmatch => exact .selected hsel hname hmatch
  | formatted hfunc harg htype himpl hname hsig hsole =>
    exact .formatted hfunc harg htype himpl hname hsig hsole
  | copied _ _ _ hcopy => exact absurd hcopy not_lastCopy_nil
  | pointed _ _ _ hpoints => exact absurd hpoints not_pointsTo_nil

/-! ## Bindings of a longer walk -/

theorem PointsTo.mono (h : PointsTo t before var target) (hsub : before ⊆ before') : PointsTo t before' var target := by
  obtain ⟨e, he, haddr⟩ := h
  exact ⟨e, hsub he, haddr⟩

theorem pointsTo_append_iff :
    PointsTo t (before ++ before') var target ↔ PointsTo t before var target ∨ PointsTo t before' var target := by
  simp only [PointsTo, List.mem_append, or_and_right, exists_or]

theorem exists_lastCopy {e : Met} (he : e ∈ before) (hcopy : Copies t e var source) :
    ∃ source', LastCopy t before var source' := by
  induction before using List.reverseRecOn with
  | nil => cases he
  | append_singleton before e' ih =>
    simp only [lastCopy_concat_iff]
    by_cases hlast : ∃ source', Copies t e' var source'
    · obtain ⟨source', hlast⟩ := hlast
      exact ⟨source', .inl hlast⟩
    · have hno : ∀ source', ¬ Copies t e' var source' := fun source' h => hlast ⟨source', h⟩
      rcases List.mem_append.1 he with he | he
      · obtain ⟨source', hsource⟩ := ih he
        exact ⟨source', .inr ⟨hno, hsource⟩⟩
      · rw [List.mem_singleton.1 he] at hcopy
        exact absurd hcopy (hno source)

/-- The last copy stands in the second part of a walk, or in the first part if the second has none. -/
theorem lastCopy_append_iff : LastCopy t (before ++ before') var source ↔ LastCopy t before' var source ∨
      ((∀ e ∈ before', ∀ source', ¬ Copies t e var source') ∧ LastCopy t before var source) := by
  induction before' using List.reverseRecOn with
  | nil =>
    simp only [List.append_nil, not_lastCopy_nil, false_or]
    exact ⟨fun h => ⟨fun e he => (nomatch he), h⟩, (·.2)⟩
  | append_singleton before' e ih =>
    rw [← List.append_assoc, lastCopy_concat_iff, lastCopy_concat_iff, ih]
    simp only [List.mem_append, List.mem_singleton]
    constructor
    · rintro (hcopy | ⟨hno, hlast | ⟨hnone, hlast⟩⟩)
      · exact .inl (.inl hcopy)
      · exact .inl (.inr ⟨hno, hlast⟩)
      · refine .inr ⟨?_, hlast⟩
        rintro e' (he' | rfl)
        · exact hnone e' he'
        · exact hno
    · rintro ((hcopy | ⟨hno, hlast⟩) | ⟨hnone, hlast⟩)
      · exact .inl hcopy
      · exact .inr ⟨hno, .inl hlast⟩
      · exact .inr ⟨hnone e (.inr rfl), .inr ⟨fun e' he' => hnone e' (.inl he'), hlast⟩⟩

theorem mem_declaredTypesNamed_iff {package : Package} {name : String} {id : TypeId} :
    id ∈ declaredTypesNamed t package name ↔
      (∃ info ∈ package.infos, ∃ pos, (pos, .typeName id) ∈ info.defs) ∧
        ((t.named? id).any fun d => d.origin.isNone && d.name = name) = true := by
  simp only [declaredTypesNamed, List.mem_eraseDups, List.mem_filter, List.mem_flatMap, List.mem_filterMap]
  refine and_congr_left fun _ => exists_congr fun info => and_congr_right fun _ => ?_
  constructor
  · rintro ⟨⟨pos, obj⟩, hdef, hobj⟩
    cases obj with
    | typeName id' =>
      cases hobj
      exact ⟨pos, hdef⟩
    | _ => cases hobj
  · rintro ⟨pos, hdef⟩
    exact ⟨(pos, .typeName id), hdef, rfl⟩

theorem mem_declaredTypesNamed_withFiles {u : CheckedPackage} {files : List (File × FileInfo)} (h : files ⊆ files')
    {name : String} {id : TypeId} (hid : id ∈ declaredTypesNamed u.table (u.withFiles files).package name) :
    id ∈ declaredTypesNamed u.table (u.withFiles files').package name := by
  rw [mem_declaredTypesNamed_iff] at hid ⊢
  obtain ⟨⟨info, hinfo, hdef⟩, hname⟩ := hid
  exact ⟨⟨info, List.map_subset _ h hinfo, hdef⟩, hname⟩

theorem PointsToImplementation.mono {u : CheckedPackage} {registry : Registry} {files : List (File × FileInfo)}
    (h : PointsToImplementation ⟨u.withFiles files, registry, mode⟩ before var d) (hfiles : files ⊆ files')
    (hbefore : before ⊆ before') : PointsToImplementation ⟨u.withFiles files', registry, mode⟩ before' var d := by
  obtain ⟨target, id, hpoints, hid, hsat⟩ := h
  exact ⟨target, id, hpoints.mono hbefore, mem_declaredTypesNamed_withFiles hfiles hid, hsat⟩

/-! ## More files -/

theorem exists_split_of_sublist {part whole after : List Met} {e : Met} (h : part.Sublist whole)
    (hpart : part = before ++ e :: after) : ∃ before' after', whole = before' ++ e :: after' ∧ before.Sublist before' := by
  rw [hpart] at h
  obtain ⟨first, rest, rfl, hbefore, hrest⟩ := List.append_sublist_iff.1 h
  obtain ⟨middle, last, rfl, he, -⟩ := List.cons_sublist_iff.1 hrest
  obtain ⟨middle, between, rfl⟩ := List.append_of_mem he
  refine ⟨first ++ middle, between ++ last, by simp, hbefore.trans (List.sublist_append_left _ _)⟩

theorem walkThrough_sublist {part files : List (File × FileInfo)} (h : part.Sublist files) :
    (walkThrough part).Sublist (walkThrough files) := h.flatMap _

theorem CheckedPackage.walk_withFiles_of_sublist {u : CheckedPackage} {files part : List (File × FileInfo)}
    {filter : PathFilter} (h : part.Sublist ((u.withFiles files).files filter)) :
    (u.withFiles part).walk filter = walkThrough part := by
  rw [walk_withFiles, List.filter_eq_self.2]
  intro file hfile
  have hmem := h.subset hfile
  rw [files_withFiles] at hmem
  exact (List.mem_filter.1 hmem).2

/-- On a part of a walk, a method is selected from a variable that copies one of its interface. On the whole walk, the
same selector is met after a declaration that makes the variable a copy of something else. -/
def CopyOverwritten (t : Table) (registry : Registry) (part whole : List Met) (m : FuncId) : Prop :=
  ∃ d ∈ registry.entries, d.method = m ∧ ∃ e var before after before' after' source,
    part = before ++ e :: after ∧ whole = before' ++ e :: after' ∧ before.Sublist before' ∧
    SelectsFrom t e var d ∧ LastCopy t before var d.interfaceName ∧
    LastCopy t before' var source ∧ source ≠ d.interfaceName

/-- A method that is used in some of the files is used in all of them, or the copy that makes it used is overwritten. -/
theorem mem_track_of_sublist {u : CheckedPackage} {registry : Registry} {filter : PathFilter} {options : Options}
    {part files : List (File × FileInfo)} (hpart : part.Sublist ((u.withFiles files).files filter))
    (h : m ∈ (track (u.withFiles part) registry filter options).methods) :
    m ∈ (track (u.withFiles files) registry filter options).methods ∨
      CopyOverwritten u.table registry ((u.withFiles part).walk filter) ((u.withFiles files).walk filter) m := by
  rw [mem_methods_track_iff] at h ⊢
  obtain ⟨d, hd, rfl, before, info, item, after, hwalk, hjust⟩ := h
  have hsub : ((u.withFiles part).walk filter).Sublist ((u.withFiles files).walk filter) := by
    rw [CheckedPackage.walk_withFiles_of_sublist hpart]
    exact walkThrough_sublist hpart
  have hfiles : part ⊆ files := by
    intro file hfile
    have hmem := hpart.subset hfile
    rw [CheckedPackage.files_withFiles] at hmem
    exact (List.mem_filter.1 hmem).1
  obtain ⟨before', after', hwhole, hbefore⟩ := exists_split_of_sublist hsub hwalk
  have hused : Justifies ⟨u.withFiles files, registry, options.genericMatch⟩ before' info d item →
      ∃ d' ∈ registry.entries, d'.method = d.method ∧
        Justified ⟨u.withFiles files, registry, options.genericMatch⟩ ((u.withFiles files).walk filter) d' :=
    fun hjust => ⟨d, hd, rfl, before', info, item, after', hwhole, hjust⟩
  rcases justifies_iff.1 hjust with hjust | ⟨var, hsel, hcopy | hpoints⟩
  · exact .inl (hused (justifies_iff.2 (.inl (hjust.withFiles files))))
  · -- the variable is a copy on the whole walk too, but perhaps of something else
    obtain ⟨earlier, e, later, rfl, hcopies, hlast⟩ := hcopy
    obtain ⟨source, hsource⟩ := exists_lastCopy (hbefore.subset (by simp)) hcopies
    by_cases hsame : source = d.interfaceName
    · exact .inl (hused (justifies_iff.2 (.inr ⟨var, hsel, .inl (hsame ▸ hsource)⟩)))
    · exact .inr ⟨d, hd, rfl, (info, item), var, _, after, before', after', source, hwalk, hwhole, hbefore, hsel,
        ⟨earlier, e, later, rfl, hcopies, hlast⟩, hsource, hsame⟩
  · exact .inl (hused (justifies_iff.2 (.inr ⟨var, hsel, .inr (hpoints.mono hfiles hbefore.subset)⟩)))

/-- A method whose copy is overwritten is used in the files that are walked through first. -/
theorem CopyOverwritten.mem_track {u : CheckedPackage} {registry : Registry} {filter : PathFilter}
    {part : List (File × FileInfo)} {whole : List Met}
    (h : CopyOverwritten u.table registry ((u.withFiles part).walk filter) whole m) (options : Options) :
    m ∈ (track (u.withFiles part) registry filter options).methods := by
  obtain ⟨d, hd, rfl, ⟨info, item⟩, var, before, after, _, _, _, hwalk, -, -, hsel, hcopy, -⟩ := h
  rw [mem_methods_track_iff]
  exact ⟨d, hd, rfl, before, info, item, after, hwalk, justifies_iff.2 (.inr ⟨var, hsel, .inl hcopy⟩)⟩

/-- What more files change: the addresses that variables have been given are never lost. A method is used in some of
the files and not in all of them if and only if it is not used in all of them and is selected, in these files, from a
variable which copies one of its interface, and which a file in between makes a copy of something else. -/
theorem lost_with_more_files_iff (u : CheckedPackage) (registry : Registry) (filter : PathFilter) (options : Options)
    {part files : List (File × FileInfo)} (hpart : part.Sublist ((u.withFiles files).files filter)) :
    (∀ var target, PointsTo u.table ((u.withFiles part).walk filter) var target →
      PointsTo u.table ((u.withFiles files).walk filter) var target) ∧
    ∀ m, (track (u.withFiles part) registry filter options).contains m = true ∧
        (track (u.withFiles files) registry filter options).contains m = false ↔
      CopyOverwritten u.table registry ((u.withFiles part).walk filter) ((u.withFiles files).walk filter) m ∧
        (track (u.withFiles files) registry filter options).contains m = false := by
  constructor
  · intro var target hpoints
    refine hpoints.mono ?_
    rw [CheckedPackage.walk_withFiles_of_sublist hpart]
    exact (walkThrough_sublist hpart).subset
  · intro m
    simp only [UsedSet.contains, List.contains_iff_mem, ← Bool.not_eq_true]
    constructor
    · rintro ⟨hused, hmiss⟩
      exact ⟨(mem_track_of_sublist hpart hused).resolve_left hmiss, hmiss⟩
    · rintro ⟨hover, hmiss⟩
      exact ⟨hover.mem_track options, hmiss⟩

/-- Some files as a package of their own. -/
def CheckedPackage.ofTexts (texts : List (String × String)) : CheckedPackage := ⟨(checkTexts texts).2, (checkTexts texts).1⟩

/-- The last file selects from a variable that the first file makes a copy. A function in the second file has a variable of
the same name. -/
def copiedTwice : List (String × String) :=
  [("a.go",
    "package app

type Failure interface \x7b
	Error() string
\x7d

var failure Failure

var x error = failure
"),
    ("b.go",
    "package app

func other(e error) \x7b
	var x error = e
	_ = x
\x7d
"),
    ("c.go",
    "package app

func use() string \x7b
	return x.Error()
\x7d
")]

/-- The method of `copiedTwice` is used in the first and the last file, and not in all three. -/
theorem copy_lost_to_other_function :
    let u := CheckedPackage.ofTexts copiedTwice
    let files := u.files .allowAll
    ∃ d ∈ (collect u .allowAll .default).entries,
      (track (u.withFiles (files.eraseIdx 1)) (collect u .allowAll .default) .allowAll .default).contains d.method = true ∧
      (track (u.withFiles files) (collect u .allowAll .default) .allowAll .default).contains d.method = false ∧
      CopyOverwritten u.table (collect u .allowAll .default) ((u.withFiles (files.eraseIdx 1)).walk .allowAll)
        ((u.withFiles files).walk .allowAll) d.method := by
  intro u files
  have h : ∃ d ∈ (collect u .allowAll .default).entries,
      (track (u.withFiles (files.eraseIdx 1)) (collect u .allowAll .default) .allowAll .default).contains d.method = true ∧
      (track (u.withFiles files) (collect u .allowAll .default) .allowAll .default).contains d.method = false := by
    decide +kernel
  obtain ⟨d, hd, hused, hmiss⟩ := h
  have hpart : (files.eraseIdx 1).Sublist ((u.withFiles files).files .allowAll) := by
    have hall : (u.withFiles files).files .allowAll = files := by
      rw [CheckedPackage.files_withFiles]
      exact List.filter_eq_self.2 fun _ _ => rfl
    rw [hall]
    exact List.eraseIdx_sublist ..
  have hlost := (lost_with_more_files_iff u (collect u .allowAll .default) .allowAll .default hpart).2 d.method
  exact ⟨d, hd, hused, hmiss, (hlost.1 ⟨hused, hmiss⟩).1⟩

/-! ## Other orders -/

/-- A walk through one of the files alone makes the registered method `m` used. -/
def UsedInOneFile (s : Search) (files : List (File × FileInfo)) (m : FuncId) : Prop :=
  ∃ d ∈ s.registry.entries, d.method = m ∧ ∃ file ∈ files, Justified s (walkThrough [file]) d

/-- In one of the files the registered method `m` is selected from a variable to which files before it give a meaning:
they make it a copy of one of the interface, and the file itself does not make it a copy before it is selected from; or they
let it point to a type that satisfies the interface. -/
def BoundInEarlierFile (s : Search) (files : List (File × FileInfo)) (m : FuncId) : Prop :=
  ∃ d ∈ s.registry.entries, d.method = m ∧ ∃ earlier file info later itemsBefore item itemsAfter var,
    files = earlier ++ (file, info) :: later ∧ file.tree.items = itemsBefore ++ item :: itemsAfter ∧
    SelectsFrom s.table (info, item) var d ∧
    ((LastCopy s.table (walkThrough earlier) var d.interfaceName ∧
        ∀ i ∈ itemsBefore, ∀ source, ¬ Copies s.table (info, i) var source) ∨
      PointsToImplementation s (walkThrough earlier) var d)

/-- What a walk makes used is what one file makes used or what a file makes used with those before it. -/
theorem exists_justified_walkThrough_iff (s : Search) (files : List (File × FileInfo)) (m : FuncId) :
    (∃ d ∈ s.registry.entries, d.method = m ∧ Justified s (walkThrough files) d) ↔
      UsedInOneFile s files m ∨ BoundInEarlierFile s files m := by
  constructor
  · rintro ⟨d, hd, rfl, before, info, item, after, hwalk, hjust⟩
    obtain ⟨earlier, file, later, itemsBefore, itemsAfter, rfl, hitems, rfl, rfl⟩ :=
      walkThrough_eq_append_cons_iff.1 hwalk
    -- what the item shows with the declarations in its own file
    have halone : Justifies s (itemsBefore.map fun i => (info, i)) info d item →
        UsedInOneFile s (earlier ++ (file, info) :: later) d.method := by
      intro hjust
      refine ⟨d, hd, rfl, (file, info), by simp, _, info, item, itemsAfter.map fun i => (info, i), ?_, hjust⟩
      simp [walkThrough, hitems]
    have hbound : ∀ var, SelectsFrom s.table (info, item) var d →
        ((LastCopy s.table (walkThrough earlier) var d.interfaceName ∧
            ∀ i ∈ itemsBefore, ∀ source, ¬ Copies s.table (info, i) var source) ∨
          PointsToImplementation s (walkThrough earlier) var d) →
        BoundInEarlierFile s (earlier ++ (file, info) :: later) d.method :=
      fun var hsel hbinds => ⟨d, hd, rfl, earlier, file, info, later, itemsBefore, item, itemsAfter, var, rfl, hitems, hsel, hbinds⟩
    rcases justifies_iff.1 hjust with hjust | ⟨var, hsel, hcopy | ⟨target, id, hpoints, hid, hsat⟩⟩
    · exact .inl (halone (justifies_iff.2 (.inl hjust)))
    · rcases lastCopy_append_iff.1 hcopy with hcopy | ⟨hno, hcopy⟩
      · exact .inl (halone (justifies_iff.2 (.inr ⟨var, hsel, .inl hcopy⟩)))
      · exact .inr (hbound var hsel (.inl ⟨hcopy, fun i hi => hno (info, i) (List.mem_map_of_mem hi)⟩))
    · rcases pointsTo_append_iff.1 hpoints with hpoints | hpoints
      · exact .inr (hbound var hsel (.inr ⟨target, id, hpoints, hid, hsat⟩))
      · exact .inl (halone (justifies_iff.2 (.inr ⟨var, hsel, .inr ⟨target, id, hpoints, hid, hsat⟩⟩)))
  · rintro (⟨d, hd, rfl, ⟨file, info⟩, hfile, before, info', item, after, hwalk, hjust⟩ |
      ⟨d, hd, rfl, earlier, file, info, later, itemsBefore, item, itemsAfter, var, rfl, hitems, hsel, hbinds⟩)
    · obtain ⟨earlier, later, rfl⟩ := List.append_of_mem hfile
      refine ⟨d, hd, rfl, walkThrough earlier ++ before, info', item, after ++ walkThrough later, ?_, ?_⟩
      · have hcons : walkThrough ((file, info) :: later) = walkThrough [(file, info)] ++ walkThrough later :=
          walkThrough_append [(file, info)] later
        rw [walkThrough_append, hcons, hwalk]
        simp
      · rcases justifies_iff.1 hjust with hjust | ⟨var, hsel, hcopy | ⟨target, id, hpoints, hid, hsat⟩⟩
        · exact justifies_iff.2 (.inl hjust)
        · exact justifies_iff.2 (.inr ⟨var, hsel, .inl (lastCopy_append_iff.2 (.inl hcopy))⟩)
        · exact justifies_iff.2 (.inr ⟨var, hsel, .inr ⟨target, id, pointsTo_append_iff.2 (.inr hpoints), hid, hsat⟩⟩)
    · refine ⟨d, hd, rfl, _, info, item, _, walkThrough_eq_append_cons_iff.2
        ⟨earlier, file, later, itemsBefore, itemsAfter, rfl, hitems, rfl, rfl⟩, justifies_iff.2 (.inr ⟨var, hsel, ?_⟩)⟩
      rcases hbinds with ⟨hcopy, hno⟩ | ⟨target, id, hpoints, hid, hsat⟩
      · refine .inl (lastCopy_append_iff.2 (.inr ⟨?_, hcopy⟩))
        intro e he
        obtain ⟨i, hi, rfl⟩ := List.mem_map.1 he
        exact hno i hi
      · exact .inr ⟨target, id, pointsTo_append_iff.2 (.inl hpoints), hid, hsat⟩

theorem UsedInOneFile.of_perm {u : CheckedPackage} {registry : Registry} {filter : PathFilter}
    {files : List (File × FileInfo)} (hperm : files.Perm files')
    (h : UsedInOneFile ⟨u.withFiles files, registry, mode⟩ ((u.withFiles files).files filter) m) :
    UsedInOneFile ⟨u.withFiles files', registry, mode⟩ ((u.withFiles files').files filter) m := by
  rw [CheckedPackage.files_withFiles] at h ⊢
  obtain ⟨d, hd, hdm, file, hfile, before, info, item, after, hwalk, hjust⟩ := h
  refine ⟨d, hd, hdm, file, (hperm.filter _).subset hfile, before, info, item, after, hwalk, ?_⟩
  rcases justifies_iff.1 hjust with hjust | ⟨var, hsel, hcopy | hpoints⟩
  · exact justifies_iff.2 (.inl (hjust.withFiles files'))
  · exact justifies_iff.2 (.inr ⟨var, hsel, .inl hcopy⟩)
  · exact justifies_iff.2 (.inr ⟨var, hsel, .inr (hpoints.mono hperm.subset (List.Subset.refl _))⟩)

/-- What is used in an order of the files: what one of the files makes used by itself, whatever the order, and what is
selected from a variable that a file before it, in this order, gives a meaning. -/
theorem contains_track_reordered_iff (u : CheckedPackage) (registry : Registry) (filter : PathFilter) (options : Options)
    {files files' : List (File × FileInfo)} (hperm : files.Perm files') (m : FuncId) :
    (track (u.withFiles files') registry filter options).contains m = true ↔
      UsedInOneFile ⟨u.withFiles files, registry, options.genericMatch⟩ ((u.withFiles files).files filter) m ∨
      BoundInEarlierFile ⟨u.withFiles files', registry, options.genericMatch⟩ ((u.withFiles files').files filter) m := by
  rw [UsedSet.contains, List.contains_iff_mem, mem_methods_track_iff]
  refine (exists_justified_walkThrough_iff ⟨u.withFiles files', registry, options.genericMatch⟩
    ((u.withFiles files').files filter) m).trans (or_congr_left ?_)
  exact ⟨fun h => h.of_perm hperm.symm, fun h => h.of_perm hperm⟩

/-- The first file selects from a variable that the second file declares. -/
def selectedThenDeclared : List (String × String) :=
  [("a.go",
    "package app

type Failure interface \x7b
	Error() string
\x7d

type Crash struct\x7b\x7d

func (c *Crash) Error() string \x7b
	return \"\"
\x7d

func use() string \x7b
	return x.Error()
\x7d
"),
    ("b.go",
    "package app

var x error = &Crash\x7b\x7d
")]

/-- The method of `selectedThenDeclared` is used if the second file is walked through first, because of the variable that
it declares, and else not. No file makes it used by itself. -/
theorem declaration_in_later_file_missed :
    let u := CheckedPackage.ofTexts selectedThenDeclared
    let files := u.files .allowAll
    ∃ d ∈ (collect u .allowAll .default).entries,
      (track (u.withFiles files) (collect u .allowAll .default) .allowAll .default).contains d.method = false ∧
      (track (u.withFiles files.reverse) (collect u .allowAll .default) .allowAll .default).contains d.method = true ∧
      ¬ UsedInOneFile ⟨u.withFiles files, collect u .allowAll .default, .heuristic⟩ ((u.withFiles files).files .allowAll)
        d.method ∧
      BoundInEarlierFile ⟨u.withFiles files.reverse, collect u .allowAll .default, .heuristic⟩
        ((u.withFiles files.reverse).files .allowAll) d.method := by
  intro u files
  have h : ∃ d ∈ (collect u .allowAll .default).entries,
      (track (u.withFiles files) (collect u .allowAll .default) .allowAll .default).contains d.method = false ∧
      (track (u.withFiles files.reverse) (collect u .allowAll .default) .allowAll .default).contains d.method = true := by
    decide +kernel
  obtain ⟨d, hd, hmiss, hused⟩ := h
  have hfiles := contains_track_reordered_iff u (collect u .allowAll .default) .allowAll .default (List.Perm.refl files)
    d.method
  have hreverse := contains_track_reordered_iff u (collect u .allowAll .default) .allowAll .default
    (List.reverse_perm files).symm d.method
  rw [hmiss] at hfiles
  have hone := fun h => Bool.false_ne_true (hfiles.2 (.inl h))
  exact ⟨d, hd, hmiss, hused, hone, (hreverse.1 hused).resolve_left hone⟩

end UnusedMethods.Methods
