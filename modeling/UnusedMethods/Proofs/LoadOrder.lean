import UnusedMethods.Proofs.Loading

/-!
# Loading all that patterns name

Patterns lead to places, and the packages of these are loaded one after the other with all that they import. In a module
all of whose directories can be read, this ends in one of two ways: everything that is needed has been loaded, and each
package comes after what it imports; or imports go round in a circle, and a circle is reported.
-/

namespace UnusedMethods.Program

open Syntax Typing UnusedMethods.Types

variable {s : Setting} {places : List Location} {m : GoModule} {home place : Location} {l l' : Loaded} {q : String}

/-! ## Places -/

theorem Loaded.InOrder.dir_eq (hl : l.InOrder s home) (htree : s.IsModuleTree m home) (hplace : Setting.IsPlace home place)
    {qs : List String} (hqs : s.dirImports? place.path = some qs) {i : Nat} {p : Package} {dir : String}
    (hp : l.packages[i]? = some p) (hdir : p.dir = some dir) (hpath : p.path = s.importPathOf place.path) :
    dir = place.path := by
  obtain ⟨-, hpath', hqs', place', hplace', rfl⟩ := hl.dirs i p dir hp hdir
  have h := htree.dirOfImport?_importPathOf hplace hqs
  have h' := htree.dirOfImport?_importPathOf hplace' hqs'
  rw [← hpath', hpath, h] at h'
  exact (Option.some.inj h').symm

theorem wanted_of_mem (htree : s.IsModuleTree m home) (hplace : Setting.IsPlace home place) (hmem : place ∈ places)
    {qs : List String} (hqs : s.dirImports? place.path = some qs) (hq : q ∈ qs) :
    Wanted s places [s.importPathOf place.path] q := by
  have hnative : isForeign (s.importPathOf place.path) = false → s.Imports (s.importPathOf place.path) q :=
    fun hnative => (htree.imports_iff hplace hqs hnative).2 hq
  obtain ⟨hclean, hknown⟩ := htree.isClean_of_dirImports? hplace hqs hq
  refine ⟨⟨by simp, by simp, by simp, by simp, ?_, by simp, ?_⟩, ?_, hknown, hclean, .rootImport hmem hqs hq⟩
  · rintro p hp hforeign hnone
    obtain rfl := List.mem_singleton.1 hp
    obtain ⟨qs', hqs', -⟩ := hnative hforeign
    rw [hnone] at hqs'
    cases hqs'
  · intro p hp
    obtain rfl := List.mem_singleton.1 hp
    exact .root hmem hqs
  · intro p hp
    obtain rfl : s.importPathOf place.path = p := Option.some.inj hp
    cases hforeign : isForeign (s.importPathOf place.path) with
    | true => exact .inr rfl
    | false => exact .inl (hnative hforeign)

theorem ends_loadRoot (htree : s.IsModuleTree m home) (hplace : Setting.IsPlace home place) (hmem : place ∈ places)
    (hl : l.InOrder s home) :
    (loadDir s (loadImport s (importDepth s.disk)) [] place.path (s.importPathOf place.path)).Ends l
      (fun r l' => l'.InOrder s home ∧ l.Extends l' ∧ FoundAt s place l' r) (Reports s places) := by
  cases hlookup : l.byDir.lookup (Path.components place.path) with
  | some id =>
    unfold loadDir
    refine .of_get ?_
    rw [hlookup]
    obtain ⟨p, dir, hp, hdir, hcomponents⟩ := hl.byDir _ id hlookup
    obtain ⟨-, -, -, place', hplace', rfl⟩ := hl.dirs _ p dir hp hdir
    obtain rfl : place' = place :=
      Path.path_injective (htree.names_of_isPlace hplace') (htree.names_of_isPlace hplace) hcomponents
    exact .pure ⟨hl, .refl l, p, hp, hdir⟩
  | none =>
    have hawaits : s.dirImports? place.path ≠ none → l.Awaits [s.importPathOf place.path] := by
      intro hne i p hp hpath
      obtain ⟨qs, hqs⟩ := Option.ne_none_iff_exists'.1 hne
      have hpath := List.mem_singleton.1 hpath
      have hdir : p.dir = none := by
        by_contra hdir
        obtain ⟨dir, hdir⟩ := Option.ne_none_iff_exists'.1 hdir
        obtain ⟨hfound, -⟩ := hl.dirs i p dir hp hdir
        rw [hl.dir_eq htree hplace hqs hp hdir hpath, hlookup] at hfound
        cases hfound
      refine ⟨?_, hdir⟩
      by_contra hnative
      refine hl.own i p hp (by simpa using hnative) ?_ hdir
      rw [hpath, htree.ownImports?_importPathOf hplace hqs]
      simp
    refine (ends_loadDir htree (loads_loadImport htree _) hplace rfl (by simp) (by simp)
      (fun qs hqs q hq => wanted_of_mem htree hplace hmem hqs hq) hl (by simp [Loaded.Awaits]) hawaits hlookup).mono ?_
    rintro r l' ⟨hleads, hfound, -⟩
    exact ⟨hleads.inOrder, hleads.extends, hfound⟩

theorem FoundAt.of_extends {r : Option PackageId} (h : FoundAt s place l r) (hextends : l.Extends l') : FoundAt s place l' r := by
  cases r with
  | none => exact h
  | some id =>
    obtain ⟨p, hp, hdir⟩ := h
    exact ⟨p, hextends.packages _ p hp, hdir⟩

theorem ends_loadRoots (htree : s.IsModuleTree m home) {some : List Location}
    (hplaces : ∀ place ∈ some, Setting.IsPlace home place ∧ place ∈ places) (hl : l.InOrder s home) :
    Load.Ends (some.mapM fun place => loadDir s (loadImport s (importDepth s.disk)) [] place.path (s.importPathOf place.path)) l
      (fun rs l' => l'.InOrder s home ∧ l.Extends l' ∧ List.Forall₂ (fun place r => FoundAt s place l' r) some rs)
      (Reports s places) := by
  induction some generalizing l with
  | nil => exact .pure ⟨hl, .refl l, .nil⟩
  | cons place rest ih =>
    obtain ⟨⟨hplace, hmem⟩, hplaces⟩ := List.forall_mem_cons.1 hplaces
    rw [List.mapM_cons]
    refine .bind (ends_loadRoot htree hplace hmem hl) fun r l₁ ⟨hl₁, hextends₁, hfound⟩ => ?_
    refine .bind (ih hplaces hl₁) fun rs l₂ ⟨hl₂, hextends₂, hall⟩ => ?_
    exact .pure ⟨hl₂, hextends₁.trans hextends₂, .cons (hfound.of_extends hextends₂) hall⟩

/-- The packages of the places are loaded with all that they import, or a cycle is found. -/
theorem ends_loadPlaces (htree : s.IsModuleTree m home) (hplaces : ∀ place ∈ places, Setting.IsPlace home place) :
    (loadPlaces s places).Ends .start
      (fun roots l => l.InOrder s home ∧
        ∃ rs, roots = rs.filterMap id ∧ List.Forall₂ (fun place r => FoundAt s place l r) places rs)
      (Reports s places) := by
  refine .bind (ends_loadRoots htree (fun place hmem => ⟨hplaces place hmem, hmem⟩) .start) fun rs l ⟨hl, _, hall⟩ => ?_
  exact .pure ⟨hl, rs, rfl, hall⟩

/-! ## Order -/

namespace Loaded.InOrder

theorem exists_of_imports (hl : l.InOrder s home) {i : Nat} {p : Package} (hp : l.packages[i]? = some p)
    (h : s.Imports p.path q) : ∃ (j : Nat) (p' : Package), j < i ∧ l.packages[j]? = some p' ∧ p'.path = q :=
  hl.imports i p hp q (hl.sources i p hp (Setting.isForeign_of_imports h) q h)

/-- What comes later in a chain of imports has been loaded before the first. -/
theorem exists_of_isChain (hl : l.InOrder s home) {chain : List String} {i : Nat} {p : Package}
    (hp : l.packages[i]? = some p) (h : (p.path :: chain).IsChain s.Imports) :
    ∀ q ∈ chain, ∃ (j : Nat) (p' : Package), j < i ∧ l.packages[j]? = some p' ∧ p'.path = q := by
  induction chain generalizing i p with
  | nil => simp
  | cons q chain ih =>
    obtain ⟨himports, hchain⟩ := List.isChain_cons_cons.1 h
    obtain ⟨j, p', hj, hp', rfl⟩ := hl.exists_of_imports hp himports
    refine List.forall_mem_cons.2 ⟨⟨j, p', hj, hp', rfl⟩, fun q hq => ?_⟩
    obtain ⟨k, p'', hk, hp'', hpath⟩ := ih hp' hchain q hq
    exact ⟨k, p'', by omega, hp'', hpath⟩

theorem exists_of_reached (hl : l.InOrder s home) {rs : List (Option PackageId)}
    (hall : List.Forall₂ (fun place r => FoundAt s place l r) places rs) (h : s.Reached places q) :
    ∃ (i : Nat) (p : Package), l.packages[i]? = some p ∧ p.path = q := by
  -- a place with a package has been found
  have hroot : ∀ place ∈ places, ∀ qs, s.dirImports? place.path = some qs →
      ∃ (i : Nat) (p : Package), l.packages[i]? = some p ∧ p.dir = some place.path := by
    intro place hmem qs hqs
    obtain ⟨n, hn, rfl⟩ := List.getElem_of_mem hmem
    have hfound := hall.get hn (hall.length_eq ▸ hn)
    generalize rs.get _ = r at hfound
    cases r with
    | none => cases hqs.symm.trans hfound
    | some id => exact ⟨id.index, hfound⟩
  induction h with
  | root hmem hqs =>
    obtain ⟨i, p, hp, hdir⟩ := hroot _ hmem _ hqs
    exact ⟨i, p, hp, (hl.dirs i p _ hp hdir).2.1⟩
  | rootImport hmem hqs hq =>
    obtain ⟨i, p, hp, hdir⟩ := hroot _ hmem _ hqs
    obtain ⟨-, -, hqs', -⟩ := hl.dirs i p _ hp hdir
    obtain rfl := Option.some.inj (hqs.symm.trans hqs')
    obtain ⟨j, p', -, hp', hpath⟩ := hl.imports i p hp _ hq
    exact ⟨j, p', hp', hpath⟩
  | step _ himports ih =>
    obtain ⟨i, p, hp, rfl⟩ := ih
    obtain ⟨j, p', -, hp', hpath⟩ := hl.exists_of_imports hp himports
    exact ⟨j, p', hp', hpath⟩

/-- Where all that is needed has been loaded, there is no cycle: the first package of one would come before itself. -/
theorem not_isCycle (hl : l.InOrder s home)
    (hall : ∀ q, s.Reached places q → ∃ (i : Nat) (p : Package), l.packages[i]? = some p ∧ p.path = q)
    (chain : List String) : ¬ s.IsCycle s.Imports places chain := by
  intro h
  obtain ⟨first, rest, rfl, hlast⟩ := h.exists_cons
  have hmem : first ∈ rest := List.mem_of_getLast? hlast
  obtain ⟨i, p, hp, rfl⟩ := hall first (h.reached first List.mem_cons_self)
  obtain ⟨j, p', hj, hp', hpath⟩ := hl.exists_of_isChain hp h.related p.path hmem
  have hnative : isForeign p.path = false := by
    obtain ⟨second, rest, rfl⟩ := List.exists_cons_of_ne_nil (List.ne_nil_of_mem hmem)
    exact Setting.isForeign_of_imports (List.isChain_cons_cons.1 h.related).1
  have hij : i = j := hl.distinct i j p p' hp hp' hpath.symm hnative
  omega

end Loaded.InOrder

/-! ## From patterns to a program -/

/-- What is known before any package is loaded: the module and the places that the patterns lead to. -/
def opening (d : Disk) (patterns : List String) : Except Error (Setting × List Location) := do
  let patterns := (if patterns.isEmpty then ["./..."] else patterns).map PackagePattern.read
  let places := sortPlaces (← patterns.mapM (placesOf d)).flatten
  let base := ((patterns.head?.bind fun p => d.locate? p.dir).getD [])
  return ({ disk := d, module := ← d.moduleAt (places.headD base), base := base.path }, places)

theorem load_eq (d : Disk) (patterns : List String) :
    load d patterns = (do
      let (s, places) ← opening d patterns
      let (roots, l) ← (loadPlaces s places).run .start
      return { table := l.table, packages := l.packages, roots }) := by
  unfold load opening
  simp only [bind_assoc, pure_bind]

/-- A program holds what is needed for the packages of some places, each package once and after what it imports. -/
structure Holds (s : Setting) (home : Location) (places : List Location) (program : Program) : Prop where
  stage : Stage program.table program.packages
  id : ∀ (i : Nat) (p : Package), program.packages[i]? = some p → p.id = ⟨i⟩
  imports : ∀ (i : Nat) (p : Package), program.packages[i]? = some p → ∀ q ∈ importsOf p.files,
    ∃ (j : Nat) (p' : Package), j < i ∧ program.packages[j]? = some p' ∧ p'.path = q
  path : ∀ (i j : Nat) (p p' : Package), program.packages[i]? = some p → program.packages[j]? = some p' →
    p.path = p'.path → isForeign p.path = false → i = j
  dir : ∀ (i : Nat) (p : Package) (dir : String), program.packages[i]? = some p → p.dir = some dir →
    p.path = s.importPathOf dir ∧ s.dirImports? dir = some (importsOf p.files) ∧
    (∃ place, Setting.IsPlace home place ∧ dir = place.path) ∧
    ∀ (j : Nat) (p' : Package), program.packages[j]? = some p' → p'.dir = some dir → j = i
  needed : ∀ q, s.Reached places q → ∃ (i : Nat) (p : Package), program.packages[i]? = some p ∧ p.path = q ∧
    (isForeign q = false → s.ownImports? q ≠ none → p.dir ≠ none)
  roots : ∃ rs : List (Option PackageId), program.roots = rs.reduceOption ∧
    List.Forall₂ (fun place r => (s.dirImports? place.path = none ∧ r = none) ∨
      ∃ id p, r = some id ∧ program.packages[id.index]? = some p ∧ p.dir = some place.path) places rs

theorem load_ends {d : Disk} {patterns : List String} (hopening : opening d patterns = .ok (s, places))
    (htree : s.IsModuleTree m home) (hplaces : ∀ place ∈ places, Setting.IsPlace home place) :
    (∃ program, load d patterns = .ok program ∧ program.Holds s home places ∧
      ∀ chain, ¬ s.IsCycle s.Imports places chain) ∨
    ∃ chain, load d patterns = .error (cycleError chain) ∧ s.IsCycle s.Imports places chain := by
  have hends := ends_loadPlaces htree hplaces
  rw [load_eq, hopening]
  unfold Load.Ends at hends
  cases hrun : loadPlaces s places .start with
  | error e =>
    rw [hrun] at hends
    obtain ⟨chain, rfl, hcycle⟩ := hends
    refine .inr ⟨chain, ?_, hcycle⟩
    simp [StateT.run, hrun, bind, Except.bind]
  | ok r =>
    obtain ⟨roots, l⟩ := r
    rw [hrun] at hends
    obtain ⟨hl, rs, rfl, hall⟩ := hends
    have hreached := fun q hq => hl.exists_of_reached (q := q) hall hq
    refine .inl ⟨{ table := l.table, packages := l.packages, roots := rs.filterMap id }, ?_, ?_, hl.not_isCycle hreached⟩
    · simp [StateT.run, hrun, bind, Except.bind, pure, Except.pure]
    · refine ⟨hl.stage, hl.id, hl.imports, hl.distinct, ?_, ?_, rs, rfl, hall.imp ?_⟩
      · intro i p dir hp hdir
        obtain ⟨hlookup, hpath, hqs, hplace⟩ := hl.dirs i p dir hp hdir
        refine ⟨hpath, hqs, hplace, fun j p' hp' hdir' => ?_⟩
        have hlookup' := (hl.dirs j p' dir hp' hdir').1
        rw [hlookup] at hlookup'
        injection hlookup' with heq
        injection heq with heq
        exact heq.symm
      · intro q hq
        obtain ⟨i, p, hp, rfl⟩ := hreached q hq
        exact ⟨i, p, hp, rfl, hl.own i p hp⟩
      · rintro place (_ | id) hfound
        · exact .inl ⟨hfound, rfl⟩
        · obtain ⟨p, hp, hdir⟩ := hfound
          exact .inr ⟨id, p, rfl, hp, hdir⟩

/-- Loading a module all of whose directories can be read either leads to a program, with each package once and after what
it imports, or reports a cycle of imports; and it reports one exactly if there is one. A cycle consists of packages of the
module, unless the path of the module is one that the bundled library imports or one that stands for no sources. -/
theorem load_moduleTree {d : Disk} {patterns : List String} (hopening : opening d patterns = .ok (s, places))
    (htree : s.IsModuleTree m home) (hplaces : ∀ place ∈ places, Setting.IsPlace home place) :
    ((∃ program, load d patterns = .ok program ∧ program.Holds s home places ∧
        ∀ chain, ¬ s.IsCycle s.Imports places chain) ∨
      ∃ chain, load d patterns = .error (cycleError chain) ∧ s.IsCycle s.Imports places chain) ∧
    (isForeign m.path = false → m.path ∉ Setting.bundledPaths →
      ∀ chain, s.IsCycle s.OwnImports places chain ↔ s.IsCycle s.Imports places chain) :=
  ⟨load_ends hopening htree hplaces, fun hforeign hpath _ => Setting.isCycle_ownImports_iff htree.module hforeign hpath⟩

/-! ## A module of two packages -/

/-- Names that stand for themselves, as a test. -/
def areNames (l : List String) : Bool :=
  l.all fun name => !name.toList.contains '/' && !name.toList.contains '\\' && name ≠ "" && name ≠ "." && name ≠ ".."

theorem isName_of_areNames {l : List String} (h : areNames l = true) : ∀ name ∈ l, Path.IsName name := by
  intro name hname
  have h := List.all_eq_true.1 h name hname
  simp only [Bool.and_eq_true, Bool.not_eq_true', decide_eq_true_eq, List.contains_eq_mem, decide_eq_false_iff_not] at h
  obtain ⟨⟨⟨⟨hslash, hbackslash⟩, hempty⟩, hdot⟩, hdots⟩ := h
  exact ⟨hslash, hbackslash, hempty, hdot, hdots⟩

theorem isClean_of_areNames {q : String} (h : areNames ((q.toList.splitOn '/').map String.ofList) = true) :
    Path.IsClean q := by
  rw [← Path.splitOn_slash] at h
  exact isName_of_areNames h

/-- A text that belongs to a package and imports some paths. -/
def Reads (text : String) (qs : List String) : Prop :=
  ∃ tree, SourceFile.parse text = .ok tree ∧ tree.package.name.endsWith "_test" = false ∧
    tree.imports.map (·.path) = qs ∧ isBuildIgnored text = false

theorem reads_of_parse {text : String} {qs : List String}
    (h : ((SourceFile.parse text).toOption.any fun tree =>
      !tree.package.name.endsWith "_test" && tree.imports.map (·.path) = qs && !isBuildIgnored text) = true) :
    Reads text qs := by
  obtain ⟨tree, htree, h⟩ := (Option.any_eq_true _ _).1 h
  simp only [Bool.and_eq_true, decide_eq_true_eq, Bool.not_eq_true'] at h
  refine ⟨tree, ?_, h.1.1, h.1.2, h.2⟩
  cases hparse : SourceFile.parse text with
  | error e =>
    rw [hparse] at htree
    cases htree
  | ok tree' =>
    rw [hparse] at htree
    cases htree
    rfl

theorem Reads.importsOfText {text : String} {qs : List String} (h : Reads text qs) : importsOfText text = qs := by
  obtain ⟨tree, hparse, -, himports, -⟩ := h
  rw [Program.importsOfText, hparse]
  exact himports

theorem join_of_isName {l : Location} {name : String} (hl : ∀ name ∈ l, Path.IsName name) (hname : Path.IsName name) :
    Path.join l.path name = Location.path (l ++ [name]) := by
  have hsplit : name.splitOn "/" = [name] := Path.splitOn_eq_singleton hname.slash
  have hclean : Path.IsClean name := by
    intro part hpart
    rw [hsplit, List.mem_singleton] at hpart
    rwa [hpart]
  rw [Path.join_path hl hclean, hsplit]

theorem dirImports?_of_reads {l : Location} {e : FileTree} {name text : String} {qs : List String}
    (hroot : s.disk.root.isDir = true) (hl : ∀ name ∈ l, Path.IsName name) (hname : Path.IsName name)
    (he : s.disk.root.descend? l = some e) (hchild : e.child? name = some (.file text.toUTF8))
    (hfiles : (e.entries.filter fun (name, e) => e.isFile && Discovery.isGoName name) = [(name, .file text.toUTF8)])
    (hreads : Reads text qs) :
    (∃ source, s.packageIn 0 l.path = .ok source) ∧
      ∃ qs', s.dirImports? l.path = some qs' ∧ ∀ q, q ∈ qs' ↔ q ∈ qs := by
  obtain ⟨tree, hparse, htest, rfl, hbuild⟩ := hreads
  have hsource : s.disk.source (Location.path (l ++ [name])) = .ok text := by
    refine Disk.source_path hroot (fun name' hname' => ?_) ?_
    · rcases List.mem_append.1 hname' with hname' | hname'
      · exact hl name' hname'
      · rwa [List.mem_singleton.1 hname']
    · rw [FileTree.descend?_append, he]
      simp [FileTree.descend?, hchild]
  generalize Location.path (l ++ [name]) = file, hpath : Location.path (l ++ [name]) = file at hsource
  have htexts : sourceTexts s.disk l.path = .ok [(file, text)] := by
    unfold sourceTexts Discovery.packageFiles Discovery.sortPaths
    rw [Disk.entry?_path hroot hl, he]
    simp [hfiles, join_of_isName hl hname, hpath, hsource, hbuild, bind, Except.bind, pure, Except.pure]
  obtain ⟨f, hparsed, rfl⟩ : ∃ f, parseFile 0 (s.disk.shown file) (s.filterPath file) text = .ok f ∧ f.tree = tree := by
    unfold parseFile
    rw [hparse]
    exact ⟨_, rfl, rfl⟩
  have hall : parseFiles s 0 [(file, text)] = .ok [f] := by
    rw [parseFiles_cons, hparsed]
    rfl
  obtain ⟨source, hsource, hf⟩ : ∃ source, s.packageIn 0 l.path = .ok (some source) ∧ source.files = [f] := by
    unfold Setting.packageIn
    rw [htexts]
    show ∃ source, (parseFiles s 0 [(file, text)] >>= packageOf l.path (s.importPathOf l.path)) = _ ∧ _
    rw [hall]
    show ∃ source, packageOf _ _ _ = _ ∧ _
    unfold packageOf
    simp [isExternalTest, htest]
  refine ⟨⟨_, hsource⟩, importsOf source.files, Setting.dirImports?_eq_some.2 ⟨source, hsource, rfl⟩, fun q => ?_⟩
  rw [hf]
  simp [mem_importsOf]

/-- A module with a package in its directory and one in the directory below. -/
def pairDisk (mod a b : String) : Disk where
  root := .dir [("go.mod", .file mod.toUTF8), ("a.go", .file a.toUTF8), ("b", .dir [("b.go", .file b.toUTF8)])]
  cwd := []

/-- The setting in which the packages of the module are loaded. -/
def pairSetting (mod a b path : String) : Setting where
  disk := pairDisk mod a b
  module := some { path, dir := "/" }
  base := "/"

/-- What the three texts of such a module say. -/
structure IsPair (mod a b path : String) (qs qs' : List String) : Prop where
  module : GoModule.readPath? mod = some path
  reads : Reads a qs
  readsBelow : Reads b qs'
  clean : ∀ q ∈ qs ++ qs', Path.IsClean q
  noImports : importsOfText mod = []

theorem descend?_file_isDir (content : ByteArray) (l : List String) :
    ((FileTree.file content).descend? l).any FileTree.isDir = false := by
  cases l <;> rfl

theorem eq_of_isDir_pairDisk {mod a b : String} {l : Location} (hl : ∀ name ∈ l, Path.IsName name)
    (h : (pairDisk mod a b).isDir l.path = true) : l = [] ∨ l = ["b"] := by
  rw [Disk.isDir, Disk.entry?_path rfl hl] at h
  cases l with
  | nil => exact .inl rfl
  | cons name rest =>
    obtain ⟨e, he, hdir⟩ := (Option.any_eq_true _ _).1 h
    obtain ⟨child, hchild, hrest⟩ := Option.bind_eq_some_iff.1 he
    have hmem := FileTree.mem_entries_of_child? hchild
    have hany : (child.descend? rest).any FileTree.isDir = true := by
      rw [hrest]
      exact hdir
    simp only [pairDisk, FileTree.entries, List.mem_cons, Prod.mk.injEq, List.not_mem_nil, or_false] at hmem
    rcases hmem with ⟨-, rfl⟩ | ⟨-, rfl⟩ | ⟨rfl, rfl⟩
    · rw [descend?_file_isDir] at hany
      cases hany
    · rw [descend?_file_isDir] at hany
      cases hany
    · cases rest with
      | nil => exact .inr rfl
      | cons name rest =>
        obtain ⟨child, hchild, hrest⟩ := Option.bind_eq_some_iff.1 hrest
        have hmem := FileTree.mem_entries_of_child? hchild
        simp only [FileTree.entries, List.mem_singleton, Prod.mk.injEq] at hmem
        obtain ⟨-, rfl⟩ := hmem
        have hfile := descend?_file_isDir b.toUTF8 rest
        rw [hrest] at hfile
        exact absurd hdir (by simpa using hfile)

theorem filter_goNames (mod a b : String) :
    ((pairDisk mod a b).root.entries.filter fun (name, e) => e.isFile && Discovery.isGoName name) =
      [("a.go", .file a.toUTF8)] := by
  have hmod : Discovery.isGoName "go.mod" = false := by decide +kernel
  have ha : Discovery.isGoName "a.go" = true := by decide +kernel
  simp [pairDisk, FileTree.entries, FileTree.isFile, hmod, ha]

theorem filter_goNames_below (b : String) :
    ((FileTree.dir [("b.go", .file b.toUTF8)]).entries.filter fun (name, e) => e.isFile && Discovery.isGoName name) =
      [("b.go", .file b.toUTF8)] := by
  have hb : Discovery.isGoName "b.go" = true := by decide +kernel
  simp [FileTree.entries, FileTree.isFile, hb]

namespace IsPair

variable {mod a b path : String} {qs qs' : List String} (h : IsPair mod a b path qs qs')
include h

theorem opening : opening (pairDisk mod a b) ["."] = .ok (pairSetting mod a b path, [[]]) := by
  have hread : PackagePattern.read "." = ⟨".", false⟩ := by decide
  have hlocate : (pairDisk mod a b).locate? "." = some [] := by
    unfold Disk.locate?
    rw [Path.splitOn_eq_singleton (by decide)]
    simp [Disk.step, pairDisk, FileTree.descend?, FileTree.isDir]
  have hplaces : placesOf (pairDisk mod a b) ⟨".", false⟩ = .ok [[]] := by
    have hentry : Disk.entry? (pairDisk mod a b) "." = some (pairDisk mod a b).root := by
      rw [Disk.entry?, hlocate]
      rfl
    have hfiles : Discovery.packageFiles (pairDisk mod a b) "." = [Path.join "." "a.go"] := by
      unfold Discovery.packageFiles Discovery.sortPaths
      simp [hentry, filter_goNames]
    have hisDir : (pairDisk mod a b).isDir "." = true := by
      rw [Disk.isDir, hentry]
      rfl
    simp [placesOf, Discovery.packageDirs?, hfiles, hisDir, hlocate]
  have hnames : ∀ name ∈ ["go.mod"], Path.IsName name := isName_of_areNames (by decide)
  have hjoin : Path.join (Location.path []) "go.mod" = Location.path ["go.mod"] :=
    join_of_isName (by simp) (hnames _ List.mem_cons_self)
  have hfile : (pairDisk mod a b).root.descend? ["go.mod"] = some (.file mod.toUTF8) := rfl
  have hfind : (Location.ancestors []).find? (fun l => (pairDisk mod a b).isFile (Path.join l.path "go.mod")) = some [] := by
    refine List.find?_cons_of_pos ?_
    show (pairDisk mod a b).isFile (Path.join (Location.path []) "go.mod") = true
    rw [hjoin, Disk.isFile, Disk.entry?_path rfl hnames, hfile]
    rfl
  have hmodule : (pairDisk mod a b).moduleAt [] = .ok (some { path, dir := "/" }) := by
    unfold Disk.moduleAt
    rw [hfind]
    dsimp only
    rw [hjoin, Disk.source_path rfl hnames hfile]
    show Except.ok _ = _
    rw [h.module]
    rfl
  have hsort : sortPlaces [[]] = [[]] := by
    unfold sortPlaces
    rw [show List.eraseDups [([] : Location)] = [[]] from rfl, List.mergeSort_singleton]
  unfold Program.opening
  simp [hread, hplaces, hsort, hlocate, hmodule, bind, Except.bind, pure, Except.pure]
  rfl

theorem root : (∃ source, (pairSetting mod a b path).packageIn 0 (Location.path []) = .ok source) ∧
    ∃ qs₀, (pairSetting mod a b path).dirImports? (Location.path []) = some qs₀ ∧ ∀ q, q ∈ qs₀ ↔ q ∈ qs := by
  have hname : ∀ name ∈ ["a.go"], Path.IsName name := isName_of_areNames (by decide)
  exact dirImports?_of_reads rfl (by simp) (hname _ List.mem_cons_self) rfl rfl (filter_goNames mod a b) h.reads

theorem below : (∃ source, (pairSetting mod a b path).packageIn 0 (Location.path ["b"]) = .ok source) ∧
    ∃ qs₀, (pairSetting mod a b path).dirImports? (Location.path ["b"]) = some qs₀ ∧ ∀ q, q ∈ qs₀ ↔ q ∈ qs' := by
  have hname : ∀ name ∈ ["b.go"], Path.IsName name := isName_of_areNames (by decide)
  exact dirImports?_of_reads rfl (isName_of_areNames (by decide)) (hname _ List.mem_cons_self) rfl rfl
    (filter_goNames_below b) h.readsBelow

theorem isModuleTree : (pairSetting mod a b path).IsModuleTree ⟨path, "/"⟩ [] := by
  have hdir : "/" = Location.path [] := by decide
  obtain ⟨hread, qs₁, hqs₁, hmem₁⟩ := h.root
  obtain ⟨hread', qs₂, hqs₂, hmem₂⟩ := h.below
  refine ⟨rfl, hdir, by simp, ?_, ?_⟩
  · intro r hr hisDir
    rcases eq_of_isDir_pairDisk hr hisDir with rfl | rfl
    · exact hread
    · exact hread'
  · intro r hr qs₀ hqs₀ q hq
    rcases eq_of_isDir_pairDisk hr (Setting.isDir_of_dirImports? hqs₀) with rfl | rfl
    · obtain rfl := Option.some.inj (hqs₁.symm.trans hqs₀)
      exact h.clean q (List.mem_append_left _ ((hmem₁ q).1 hq))
    · obtain rfl := Option.some.inj (hqs₂.symm.trans hqs₀)
      exact h.clean q (List.mem_append_right _ ((hmem₂ q).1 hq))

omit h in
theorem isPlace (place : Location) (hmem : place ∈ [([] : Location)]) : Setting.IsPlace [] place := by
  obtain rfl := List.mem_singleton.1 hmem
  exact ⟨[], by simp, rfl⟩

theorem importPathOf {r : Location} (hr : ∀ name ∈ r, Path.IsName name) :
    (pairSetting mod a b path).importPathOf r.path = "/".intercalate (path :: r) := by
  have hpath := Setting.importPathOf_path h.isModuleTree.module h.isModuleTree.dir
    (show ∀ name ∈ [] ++ r, Path.IsName name from hr)
  rwa [List.nil_append] at hpath

/-- A package of the module imports what its text says. -/
theorem imports {r : Location} {qs₀ : List String} {p q : String} (hr : ∀ name ∈ r, Path.IsName name)
    (hqs : (pairSetting mod a b path).dirImports? r.path = some qs₀) (hp : "/".intercalate (path :: r) = p)
    (hnative : isForeign p = false) (hq : q ∈ qs₀) : (pairSetting mod a b path).Imports p q := by
  have hplace : Setting.IsPlace [] r := ⟨r, hr, rfl⟩
  have himports := h.isModuleTree.imports_iff (q := q) hplace hqs
  rw [h.importPathOf hr, hp] at himports
  exact (himports hnative).2 hq

theorem imports_root {q : String} (hnative : isForeign path = false) (hq : q ∈ qs) :
    (pairSetting mod a b path).Imports path q := by
  obtain ⟨-, qs₁, hqs₁, hmem₁⟩ := h.root
  exact h.imports (by simp) hqs₁ String.intercalate_singleton hnative ((hmem₁ q).2 hq)

theorem imports_below {p q : String} (hp : "/".intercalate [path, "b"] = p) (hnative : isForeign p = false) (hq : q ∈ qs') :
    (pairSetting mod a b path).Imports p q := by
  obtain ⟨-, qs₂, hqs₂, hmem₂⟩ := h.below
  exact h.imports (isName_of_areNames (by decide)) hqs₂ hp hnative ((hmem₂ q).2 hq)

theorem isCycle {p : String} (hp : (pairSetting mod a b path).Imports path p) (hback : (pairSetting mod a b path).Imports p path) :
    (pairSetting mod a b path).IsCycle (pairSetting mod a b path).Imports [[]] [path, p, path] := by
  obtain ⟨-, qs₁, hqs₁, -⟩ := h.root
  have hreached : (pairSetting mod a b path).Reached [[]] path := by
    have hroot : (pairSetting mod a b path).Reached [[]] _ := .root List.mem_cons_self hqs₁
    rwa [h.importPathOf (by simp), String.intercalate_singleton] at hroot
  refine ⟨by simp, rfl, by simp [hp, hback], ?_⟩
  simp [hreached, hreached.step hp]

/-- All that the module imports stands in the two texts. -/
theorem mem_of_ownImports {p q : String} (hp : (pairSetting mod a b path).OwnImports p q) : q ∈ qs ++ qs' := by
  obtain ⟨qs₀, hqs₀, hq⟩ := hp
  obtain ⟨dir, -, hdir⟩ := Option.bind_eq_some_iff.1 hqs₀
  have hmem := Setting.mem_importsOn hdir hq
  have hon : importsOn (pairDisk mod a b) = qs ++ qs' := by
    show ([mod.toUTF8, a.toUTF8, b.toUTF8].flatMap _) = _
    simp [Disk.fromUTF8?_toByteArray, h.noImports, h.reads.importsOfText, h.readsBelow.importsOfText]
  rw [← hon]
  exact hmem

end IsPair


/-- Two packages that import each other. -/
def circularDisk : Disk :=
  pairDisk "module example.com/app\n" "package app\n\nimport \"example.com/app/b\"\n"
    "package b\n\nimport \"example.com/app\"\n"

/-- Loading one of two packages that import each other reports a cycle of the two. -/
theorem circular_packages_reported : ∃ s : Setting, opening circularDisk ["."] = .ok (s, [[]]) ∧
    s.IsModuleTree ⟨"example.com/app", "/"⟩ [] ∧ (∀ place ∈ [([] : Location)], Setting.IsPlace [] place) ∧
    ∃ chain, load circularDisk ["."] = .error (cycleError chain) ∧ s.IsCycle s.OwnImports [[]] chain := by
  have h : IsPair "module example.com/app\n" "package app\n\nimport \"example.com/app/b\"\n"
      "package b\n\nimport \"example.com/app\"\n" "example.com/app" ["example.com/app/b"] ["example.com/app"] := by
    refine ⟨by decide +kernel, reads_of_parse (by decide +kernel), reads_of_parse (by decide +kernel), ?_, by decide +kernel⟩
    simp only [List.cons_append, List.nil_append, List.forall_mem_cons]
    exact ⟨isClean_of_areNames (by decide), isClean_of_areNames (by decide), by simp⟩
  have hnative : isForeign "example.com/app" = false := by decide
  have hbelow : isForeign "example.com/app/b" = false := by decide
  have hpath : "/".intercalate ["example.com/app", "b"] = "example.com/app/b" := by decide
  have hcycle := h.isCycle (h.imports_root hnative List.mem_cons_self) (h.imports_below hpath hbelow List.mem_cons_self)
  refine ⟨_, h.opening, h.isModuleTree, IsPair.isPlace, ?_⟩
  obtain ⟨⟨-, -, -, hnone⟩ | ⟨chain, herror, hchain⟩, hown⟩ := load_moduleTree h.opening h.isModuleTree IsPair.isPlace
  · exact absurd hcycle (hnone _)
  · exact ⟨chain, herror, (hown hnative (by decide) chain).2 hchain⟩

/-- A module whose path is one that the bundled library imports. -/
def bundledPathDisk : Disk := pairDisk "module io\n" "package io\n\nimport \"fmt\"\n" "package b\n"

theorem mem_importsOfText_fmt : "io" ∈ importsOfText Library.fmt := by
  have hchars : SourceFile.importsOfChars? Library.fmt.toList = some ["io"] := by
    simp only [Library.fmt, Library.toList_text, List.flatMap_cons, List.flatMap_nil]
    repeat rw [String.toList_ofList]
    decide +kernel
  obtain ⟨tree, hparse, hpaths⟩ := SourceFile.parse_of_importsOfChars? hchars
  rw [importsOfText, hparse]
  simp [hpaths]

/-- A cycle through the bundled library is reported too, though no package of the module imports one of the module. -/
theorem bundled_path_reported : ∃ s : Setting, opening bundledPathDisk ["."] = .ok (s, [[]]) ∧
    s.IsModuleTree ⟨"io", "/"⟩ [] ∧ (∀ place ∈ [([] : Location)], Setting.IsPlace [] place) ∧
    (∀ chain, ¬ s.IsCycle s.OwnImports [[]] chain) ∧
    ∃ chain, load bundledPathDisk ["."] = .error (cycleError chain) := by
  have h : IsPair "module io\n" "package io\n\nimport \"fmt\"\n" "package b\n" "io" ["fmt"] [] := by
    refine ⟨by decide +kernel, reads_of_parse (by decide +kernel), reads_of_parse (by decide +kernel), ?_, by decide +kernel⟩
    simp only [List.cons_append, List.nil_append, List.forall_mem_cons]
    exact ⟨isClean_of_areNames (by decide), by simp⟩
  have hnative : isForeign "io" = false := by decide
  have hslash : '/' ∉ "fmt".toList := by decide
  generalize hs : pairSetting "module io\n" "package io\n\nimport \"fmt\"\n" "package b\n" "io" = s
  have htree := h.isModuleTree
  rw [hs] at htree
  have hfmt : ∀ qs, s.ownImports? "fmt" ≠ some qs := fun qs hqs =>
    absurd (Setting.eq_of_ownImports? htree.module hslash hqs) (by decide)
  refine ⟨s, hs ▸ h.opening, htree, IsPair.isPlace, ?_, ?_⟩
  · -- all imports of the module lead to `fmt`, and none comes from there
    intro chain hchain
    have hnext : ∀ p q, s.OwnImports p q → q = "fmt" := by
      intro p q hpq
      subst hs
      simpa using h.mem_of_ownImports hpq
    obtain ⟨first, rest, rfl, hlast⟩ := hchain.exists_cons
    have hmem := List.mem_of_getLast? hlast
    obtain ⟨second, rest, rfl⟩ := List.exists_cons_of_ne_nil (List.ne_nil_of_mem hmem)
    have hfirst : first = "fmt" := by
      have hall : (first :: second :: rest).IsChain fun _ q => q = "fmt" := hchain.related.imp hnext
      have : IsTrans String fun _ q => q = "fmt" := ⟨fun _ _ _ _ h => h⟩
      exact List.rel_of_pairwise_cons (List.isChain_iff_pairwise.1 hall) hmem
    obtain ⟨qs, hqs, -⟩ := (List.isChain_cons_cons.1 hchain.related).1
    exact hfmt qs (hfirst ▸ hqs)
  · have hbundled : s.Imports "fmt" "io" := by
      have hown : s.ownImports? "fmt" = none := Option.eq_none_iff_forall_ne_some.2 hfmt
      have hsource : Library.source? "fmt" = some Library.fmt := by rfl
      exact ⟨_, Setting.imports?_eq_some.2 ⟨by decide, .inr ⟨hown, _, hsource, rfl⟩⟩, mem_importsOfText_fmt⟩
    subst hs
    have hcycle := h.isCycle (h.imports_root hnative List.mem_cons_self) hbundled
    rcases load_ends h.opening h.isModuleTree IsPair.isPlace with ⟨-, -, -, hnone⟩ | ⟨chain, herror, -⟩
    · exact absurd hcycle (hnone _)
    · exact ⟨chain, herror⟩

end UnusedMethods.Program
