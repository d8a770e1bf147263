import Mathlib.Data.List.Chain
import UnusedMethods.Proofs.BundledLibrary
import UnusedMethods.Proofs.Locations

/-!
# Imports as a graph

What a package imports is known before anything is loaded: the sources on the disk and those of the bundled library say it.
Import paths are the nodes of a graph, and an import is an edge. A path that stands for no package of Go sources has no
edges. Loading is a search of this graph.

In a module whose directories can all be read, directories and import paths correspond to each other, so it does not matter
whether a package is found as a directory or as an import.
-/

namespace UnusedMethods

open Syntax Typing

namespace FileTree

variable {name : String} {e : FileTree}

theorem contents_subset_of_mem {es : List (String × FileTree)} (h : (name, e) ∈ es) : e.contents ⊆ contentsIn es := by
  induction es with
  | nil => cases h
  | cons p es ih =>
    rw [contentsIn]
    rcases List.mem_cons.1 h with rfl | h
    · exact List.subset_append_left _ _
    · exact List.Subset.trans (ih h) (List.subset_append_right _ _)

theorem mem_entries_of_child? {child : FileTree} (h : e.child? name = some child) : (name, child) ∈ e.entries := by
  obtain ⟨before, after, heq, -⟩ := List.lookup_eq_some_iff.1 h
  rw [heq]
  simp

theorem contents_subset_of_child? {child : FileTree} (h : e.child? name = some child) : child.contents ⊆ e.contents := by
  cases e with
  | file content => cases h
  | dir es => exact contents_subset_of_mem (mem_entries_of_child? h)

theorem contents_subset_of_descend? {below : FileTree} {names : List String} (h : e.descend? names = some below) :
    below.contents ⊆ e.contents := by
  induction names generalizing e with
  | nil =>
    cases h
    exact List.Subset.refl _
  | cons name names ih =>
    obtain ⟨child, hchild, hbelow⟩ := Option.bind_eq_some_iff.1 h
    exact List.Subset.trans (ih hbelow) (contents_subset_of_child? hchild)

end FileTree

theorem Disk.exists_content_of_source {d : Disk} {path text : String} (h : d.source path = .ok text) :
    ∃ content ∈ d.root.contents, String.fromUTF8? content = some text := by
  unfold Disk.source at h
  split at h
  · rename_i hread
    cases h
    unfold Disk.readText at hread
    split at hread
    · cases hread
    · cases hread
    · rename_i content hentry
      split at hread
      · rename_i htext
        cases hread
        obtain ⟨l, -, hdescend⟩ := Option.bind_eq_some_iff.1 hentry
        exact ⟨content, FileTree.contents_subset_of_descend? hdescend List.mem_cons_self, htext⟩
      · cases hread
  · cases h

namespace Program

variable {files : List File}

/-! ## Numbers of files -/

/-- A file with a number that is higher by so much. -/
def shift (n : Nat) (f : File) : File := { f with id := f.id + n }

/-- The sources of a package, with numbers of files that are higher by so much. -/
def shiftFiles (n : Nat) (source : PackageSource) : PackageSource :=
  { source with files := source.files.map (shift n) }

theorem importsOf_shift (n : Nat) (files : List File) : importsOf (files.map (shift n)) = importsOf files := by
  unfold importsOf
  rw [List.flatMap_map]
  rfl

theorem mem_importsOf {q : String} : q ∈ importsOf files ↔ ∃ f ∈ files, ∃ i ∈ f.tree.imports, i.path = q := by
  unfold importsOf
  simp only [List.mem_mergeSort, List.mem_eraseDups, List.mem_flatMap, List.mem_map]

theorem parseFile_shift (id n : Nat) (path relPath text : String) :
    parseFile (id + n) path relPath text = (parseFile id path relPath text).map (shift n) := by
  unfold parseFile
  cases SourceFile.parse text <;> rfl

theorem parseFiles_cons (s : Setting) (first : Nat) (p : String × String) (texts : List (String × String)) :
    parseFiles s first (p :: texts) = (do
      let f ← parseFile first (s.disk.shown p.1) (s.filterPath p.1) p.2
      return f :: (← parseFiles s (first + 1) texts)) := by
  unfold parseFiles
  rw [List.zipIdx_cons, List.mapM_cons]

theorem parseFiles_shift (s : Setting) (first n : Nat) (texts : List (String × String)) :
    parseFiles s (first + n) texts = (parseFiles s first texts).map (List.map (shift n)) := by
  induction texts generalizing first with
  | nil => rfl
  | cons p texts ih =>
    have hrest := ih (first + 1)
    rw [show first + 1 + n = first + n + 1 by omega] at hrest
    rw [parseFiles_cons, parseFiles_cons, parseFile_shift, hrest]
    cases parseFile first (s.disk.shown p.1) (s.filterPath p.1) p.2 with
    | error e => rfl
    | ok f => cases parseFiles s (first + 1) texts <;> rfl

theorem packageOf_shift (dir path : String) (n : Nat) (files : List File) :
    packageOf dir path (files.map (shift n)) = (packageOf dir path files).map (Option.map (shiftFiles n)) := by
  unfold packageOf
  rw [List.filter_map]
  have hsame : ((fun f => !isExternalTest f) ∘ shift n) = fun f : File => !isExternalTest f := rfl
  rw [hsame]
  cases files.filter fun f => !isExternalTest f with
  | nil => rfl
  | cons f rest =>
    simp only [List.map_cons, List.find?_map]
    have hsame' : ((fun g : File => decide (g.tree.package.name ≠ (shift n f).tree.package.name)) ∘ shift n) =
        fun g : File => decide (g.tree.package.name ≠ f.tree.package.name) := rfl
    rw [hsame']
    cases rest.find? fun g => decide (g.tree.package.name ≠ f.tree.package.name) <;> rfl

namespace Setting

/-- The package of a directory, with files that are numbered from a number on. -/
def packageIn (s : Setting) (first : Nat) (dir : String) : Except Error (Option PackageSource) := do
  let texts ← sourceTexts s.disk dir
  packageOf dir (s.importPathOf dir) (← parseFiles s first texts)

/-- The import paths in the package of a directory; none if there is no package. -/
def dirImports? (s : Setting) (dir : String) : Option (List String) :=
  match s.packageIn 0 dir with
  | .ok (some source) => some (importsOf source.files)
  | _ => none

variable {s : Setting} {dir q : String} {qs : List String}

theorem packageIn_eq (s : Setting) (n : Nat) (dir : String) :
    s.packageIn n dir = (s.packageIn 0 dir).map (Option.map (shiftFiles n)) := by
  unfold packageIn
  cases sourceTexts s.disk dir with
  | error e => rfl
  | ok texts =>
    have hparse := parseFiles_shift s 0 n texts
    rw [Nat.zero_add] at hparse
    show (parseFiles s n texts >>= packageOf dir (s.importPathOf dir)) = Except.map _ (parseFiles s 0 texts >>= _)
    rw [hparse]
    cases parseFiles s 0 texts with
    | error e => rfl
    | ok files => exact packageOf_shift dir (s.importPathOf dir) n files

/-! ## Where imports stand -/

theorem dirImports?_eq_some : s.dirImports? dir = some qs ↔
    ∃ source, s.packageIn 0 dir = .ok (some source) ∧ importsOf source.files = qs := by
  unfold dirImports?
  split
  · rename_i source heq
    simp [heq]
  · rename_i hne
    constructor
    · intro h
      cases h
    · rintro ⟨source, heq, -⟩
      exact absurd heq (hne source)

end Setting

theorem files_subset_of_packageOf {dir path : String} {source : PackageSource}
    (h : packageOf dir path files = .ok (some source)) : source.files ⊆ files := by
  unfold packageOf at h
  split at h
  · cases h
  · rename_i f rest hfilter
    dsimp only at h
    split at h
    · cases h
    · cases h
      rw [← hfilter]
      exact fun f hf => List.mem_of_mem_filter hf

theorem exists_of_mapM_eq_ok {α β : Type} {f : α → Except Error β} {xs : List α} {ys : List β} (h : xs.mapM f = .ok ys)
    {y : β} (hy : y ∈ ys) : ∃ x ∈ xs, f x = .ok y := by
  induction xs generalizing ys with
  | nil =>
    cases h
    cases hy
  | cons x xs ih =>
    rw [List.mapM_cons] at h
    cases hx : f x with
    | error e =>
      rw [hx] at h
      cases h
    | ok z =>
      rw [hx] at h
      cases hxs : xs.mapM f with
      | error e =>
        rw [hxs] at h
        cases h
      | ok zs =>
        rw [hxs] at h
        cases h
        rcases List.mem_cons.1 hy with rfl | hy
        · exact ⟨x, List.mem_cons_self, hx⟩
        · obtain ⟨x', hx', heq⟩ := ih hxs hy
          exact ⟨x', List.mem_cons_of_mem _ hx', heq⟩

theorem exists_text_of_sourceTexts {d : Disk} {dir : String} {texts : List (String × String)}
    (h : sourceTexts d dir = .ok texts) {p : String × String} (hp : p ∈ texts) : d.source p.1 = .ok p.2 := by
  unfold sourceTexts at h
  cases hall : (Discovery.packageFiles d dir).mapM fun path => (return (path, ← d.source path) : Except Error _) with
  | error e =>
    rw [hall] at h
    cases h
  | ok all =>
    rw [hall] at h
    cases h
    obtain ⟨path, -, hpath⟩ := exists_of_mapM_eq_ok hall (List.mem_of_mem_filter hp)
    cases hsource : d.source path with
    | error e =>
      rw [hsource] at hpath
      cases hpath
    | ok text =>
      rw [hsource] at hpath
      cases hpath
      exact hsource

theorem exists_text_of_parseFiles {s : Setting} {first : Nat} {texts : List (String × String)}
    (h : parseFiles s first texts = .ok files) {f : File} (hf : f ∈ files) :
    ∃ p ∈ texts, SourceFile.parse p.2 = .ok f.tree := by
  obtain ⟨x, hx, hparse⟩ := exists_of_mapM_eq_ok h hf
  refine ⟨x.1, List.fst_mem_of_mem_zipIdx hx, ?_⟩
  dsimp only [parseFile] at hparse
  split at hparse
  · rename_i htree
    cases hparse
    exact htree
  · cases hparse

theorem Setting.packageIn_eq_ok {s : Setting} {first : Nat} {dir : String} {r : Option PackageSource}
    (h : s.packageIn first dir = .ok r) : ∃ texts files, sourceTexts s.disk dir = .ok texts ∧
      parseFiles s first texts = .ok files ∧ packageOf dir (s.importPathOf dir) files = .ok r := by
  unfold Setting.packageIn at h
  cases htexts : sourceTexts s.disk dir with
  | error e =>
    rw [htexts] at h
    cases h
  | ok texts =>
    rw [htexts] at h
    change (parseFiles s first texts >>= packageOf dir (s.importPathOf dir)) = _ at h
    cases hfiles : parseFiles s first texts with
    | error e =>
      rw [hfiles] at h
      cases h
    | ok files =>
      rw [hfiles] at h
      exact ⟨texts, files, rfl, hfiles, h⟩

/-- The imports of a directory are known to the bound on the depth. -/
theorem Setting.mem_importsOn {s : Setting} {dir q : String} {qs : List String} (h : s.dirImports? dir = some qs)
    (hq : q ∈ qs) : q ∈ importsOn s.disk := by
  obtain ⟨source, hsource, rfl⟩ := Setting.dirImports?_eq_some.1 h
  obtain ⟨texts, files, htexts, hfiles, hpackage⟩ := Setting.packageIn_eq_ok hsource
  obtain ⟨f, hf, i, hi, rfl⟩ := mem_importsOf.1 hq
  obtain ⟨p, hp, hparse⟩ := exists_text_of_parseFiles hfiles (files_subset_of_packageOf hpackage hf)
  obtain ⟨content, hcontent, htext⟩ := Disk.exists_content_of_source (exists_text_of_sourceTexts htexts hp)
  refine List.mem_flatMap.2 ⟨content, hcontent, ?_⟩
  rw [htext, Option.map_some, Option.getD_some, importsOfText, hparse]
  exact List.mem_map_of_mem hi

theorem Setting.packageIn_of_not_isDir {s : Setting} {dir : String} (h : s.disk.isDir dir = false) (first : Nat) :
    s.packageIn first dir = .ok none := by
  -- nothing stands in what is no directory
  have hnone : ((s.disk.entry? dir).map FileTree.entries).getD [] = [] := by
    unfold Disk.isDir at h
    cases hentry : s.disk.entry? dir with
    | none => rfl
    | some e =>
      cases e with
      | file content => rfl
      | dir es =>
        rw [hentry] at h
        cases h
  have hpaths : Discovery.packageFiles s.disk dir = [] := by
    unfold Discovery.packageFiles
    rw [hnone]
    exact List.mergeSort_nil
  unfold Setting.packageIn sourceTexts
  rw [hpaths]
  rfl

theorem Setting.isDir_of_dirImports? {s : Setting} {dir : String} {qs : List String} (h : s.dirImports? dir = some qs) :
    s.disk.isDir dir = true := by
  obtain ⟨source, hsource, -⟩ := Setting.dirImports?_eq_some.1 h
  by_contra hdir
  rw [Setting.packageIn_of_not_isDir (by simpa using hdir)] at hsource
  cases hsource

/-! ## The graph -/

namespace Setting

/-- The import paths in the package of the module that a path leads to; none if it leads to no package of the module. -/
def ownImports? (s : Setting) (path : String) : Option (List String) := (s.dirOfImport? path).bind s.dirImports?

/-- The import paths in the sources of the package that a path stands for: those of the module come before the bundled
ones. None if there are no sources. -/
def imports? (s : Setting) (path : String) : Option (List String) :=
  if isForeign path then none
  else (s.ownImports? path).or ((Library.source? path).map importsOfText)

/-- The sources of one package of the module import a path. -/
def OwnImports (s : Setting) (p q : String) : Prop := ∃ qs, s.ownImports? p = some qs ∧ q ∈ qs

/-- The sources of a package import a path. -/
def Imports (s : Setting) (p q : String) : Prop := ∃ qs, s.imports? p = some qs ∧ q ∈ qs

/-- Import paths that are needed for the packages of some places. -/
inductive Reached (s : Setting) (places : List Location) : String → Prop
  | root {l : Location} {qs : List String} (hl : l ∈ places) (h : s.dirImports? l.path = some qs) :
    Reached s places (s.importPathOf l.path)
  | rootImport {l : Location} {qs : List String} {q : String} (hl : l ∈ places) (h : s.dirImports? l.path = some qs)
    (hq : q ∈ qs) : Reached s places q
  | step {p q : String} (hp : Reached s places p) (h : s.Imports p q) : Reached s places q

/-- Import paths each of which is needed and is related to the next, from one path to the same path again. -/
structure IsCycle (s : Setting) (R : String → String → Prop) (places : List Location) (chain : List String) : Prop where
  long : 2 ≤ chain.length
  closed : chain.head? = chain.getLast?
  related : chain.IsChain R
  reached : ∀ p ∈ chain, s.Reached places p

variable {s : Setting} {p q path : String} {qs : List String} {places : List Location}

theorem imports?_eq_some : s.imports? path = some qs ↔ isForeign path = false ∧
    (s.ownImports? path = some qs ∨
      s.ownImports? path = none ∧ ∃ text, Library.source? path = some text ∧ importsOfText text = qs) := by
  unfold imports?
  cases isForeign path with
  | true => simp
  | false => cases s.ownImports? path <;> simp

theorem isForeign_of_imports (h : s.Imports p q) : isForeign p = false := by
  obtain ⟨qs, hqs, -⟩ := h
  exact (imports?_eq_some.1 hqs).1

/-! ## Bundled packages -/

/-- The paths that the bundled library imports. -/
def bundledPaths : List String := ["context", "io", "time"]

theorem mem_bundledPaths_of_source? {text : String} (h : Library.source? p = some text) (hq : q ∈ importsOfText text) :
    Library.level q < Library.level p ∧ q ∈ bundledPaths := by
  obtain ⟨tree, hparse, hall⟩ := Library.parse_of_source? h
  rw [importsOfText, hparse] at hq
  obtain ⟨i, hi, rfl⟩ := List.mem_map.1 hq
  simpa [bundledPaths] using hall i hi

theorem mem_bundledImports {text : String} (h : Library.source? p = some text) (hq : q ∈ importsOfText text) :
    q ∈ bundledImports :=
  List.mem_flatMap.2 ⟨(p, text), Library.mem_sources h, hq⟩

theorem slash_not_mem_of_mem_bundledPaths (h : q ∈ bundledPaths) : '/' ∉ q.toList := by
  have hall : ∀ q ∈ bundledPaths, '/' ∉ q.toList := by decide
  exact hall q h

theorem isClean_of_mem_bundledPaths (h : q ∈ bundledPaths) : Path.IsClean q := by
  have hsplit := Path.splitOn_eq_singleton (slash_not_mem_of_mem_bundledPaths h)
  intro name hname
  rw [hsplit, List.mem_singleton] at hname
  subst hname
  have hall : ∀ q ∈ bundledPaths, '\\' ∉ q.toList ∧ q ≠ "" ∧ q ≠ "." ∧ q ≠ ".." := by decide
  obtain ⟨hbackslash, hempty, hdot, hdots⟩ := hall name h
  exact ⟨slash_not_mem_of_mem_bundledPaths h, hbackslash, hempty, hdot, hdots⟩

theorem eq_of_ownImports? {m : GoModule} (hm : s.module = some m) (hslash : '/' ∉ path.toList)
    (h : s.ownImports? path = some qs) : path = m.path := by
  obtain ⟨dir, hdir, -⟩ := Option.bind_eq_some_iff.1 h
  unfold dirOfImport? at hdir
  rw [hm] at hdir
  simp only [Option.bind_eq_bind, Option.bind_some] at hdir
  split at hdir
  · rename_i heq
    exact heq
  · obtain ⟨rest, hrest, -⟩ := Option.bind_eq_some_iff.1 hdir
    refine absurd ?_ hslash
    rw [Text.after?_eq_some.1 hrest]
    simp

/-! ## Cycles of the module -/

section Cycles

variable {m : GoModule} {chain : List String}

theorem IsCycle.exists_cons {R : String → String → Prop} (h : s.IsCycle R places chain) :
    ∃ first rest, chain = first :: rest ∧ rest.getLast? = some first := by
  obtain ⟨first, rest, rfl⟩ := List.exists_cons_of_length_pos (Nat.lt_of_lt_of_le Nat.zero_lt_two h.long)
  have hrest : rest ≠ [] := by
    rintro rfl
    exact absurd h.long (by simp)
  have hclosed := h.closed
  rw [List.head?_cons, List.getLast?_cons_of_ne_nil hrest] at hclosed
  exact ⟨first, rest, rfl, hclosed.symm⟩

/-- From a bundled package imports lead to bundled packages only, and down. -/
theorem ownImports?_eq_none_of_imports (hm : s.module = some m) (hpath : m.path ∉ bundledPaths)
    (hp : s.ownImports? p = none) (h : s.Imports p q) : s.ownImports? q = none ∧ Library.level q < Library.level p := by
  obtain ⟨qs, hqs, hq⟩ := h
  obtain ⟨-, hown | ⟨-, text, hsource, rfl⟩⟩ := imports?_eq_some.1 hqs
  · rw [hp] at hown
    cases hown
  · obtain ⟨hlevel, hbundled⟩ := mem_bundledPaths_of_source? hsource hq
    refine ⟨Option.eq_none_iff_forall_not_mem.2 fun qs' hqs' => hpath ?_, hlevel⟩
    rw [← eq_of_ownImports? hm (slash_not_mem_of_mem_bundledPaths hbundled) hqs']
    exact hbundled

theorem level_lt_of_isChain (hm : s.module = some m) (hpath : m.path ∉ bundledPaths)
    (h : (p :: chain).IsChain s.Imports) (hp : s.ownImports? p = none) :
    ∀ q ∈ chain, s.ownImports? q = none ∧ Library.level q < Library.level p := by
  induction chain generalizing p with
  | nil => simp
  | cons r chain ih =>
    obtain ⟨himports, hchain⟩ := List.isChain_cons_cons.1 h
    obtain ⟨hr, hlevel⟩ := ownImports?_eq_none_of_imports hm hpath hp himports
    refine List.forall_mem_cons.2 ⟨⟨hr, hlevel⟩, fun q hq => ?_⟩
    obtain ⟨hq, hlevel'⟩ := ih hchain hr q hq
    exact ⟨hq, by omega⟩

theorem IsCycle.ownImports?_ne_none (h : s.IsCycle s.Imports places chain) (hm : s.module = some m)
    (hpath : m.path ∉ bundledPaths) (hp : p ∈ chain) : s.ownImports? p ≠ none := by
  intro hnone
  obtain ⟨first, rest, rfl, hlast⟩ := h.exists_cons
  have hmem : first ∈ rest := List.mem_of_getLast? hlast
  have hrest : rest ≠ [] := List.ne_nil_of_mem hmem
  -- from the bundled package the end of the chain is reached, which is the start again
  have hfirst : s.ownImports? first = none := by
    obtain ⟨before, after, heq⟩ := List.append_of_mem hp
    have hchain : (p :: after).IsChain s.Imports := (heq ▸ h.related).right_of_append
    by_cases hafter : after = []
    · have hend := congrArg List.getLast? heq
      rw [List.getLast?_cons_of_ne_nil hrest, hlast, hafter, List.getLast?_concat] at hend
      rw [Option.some.inj hend]
      exact hnone
    · have hend := congrArg List.getLast? heq
      rw [List.getLast?_cons_of_ne_nil hrest, hlast, List.getLast?_append_of_ne_nil _ (by simp),
        List.getLast?_cons_of_ne_nil hafter] at hend
      exact (level_lt_of_isChain hm hpath hchain hnone first (List.mem_of_getLast? hend.symm)).1
  exact absurd (level_lt_of_isChain hm hpath h.related hfirst first hmem).2 (by omega)

theorem imports_of_ownImports (hm : s.module = some m) (hforeign : isForeign m.path = false) (h : s.OwnImports p q) :
    s.Imports p q := by
  obtain ⟨qs, hqs, hq⟩ := h
  refine ⟨qs, imports?_eq_some.2 ⟨?_, .inl hqs⟩, hq⟩
  by_contra hp
  have hslash : '/' ∉ p.toList := by
    have hp : isForeign p = true := by simpa using hp
    rcases of_decide_eq_true hp with rfl | rfl <;> decide
  rw [eq_of_ownImports? hm hslash hqs] at hp
  exact hp hforeign

/-- The cycles of imports are those of the module's own packages, unless the path of the module is one that the bundled
library imports or one that stands for no package of Go sources. -/
theorem isCycle_ownImports_iff (hm : s.module = some m) (hforeign : isForeign m.path = false)
    (hpath : m.path ∉ bundledPaths) : s.IsCycle s.OwnImports places chain ↔ s.IsCycle s.Imports places chain := by
  constructor
  · intro h
    exact ⟨h.long, h.closed, h.related.imp fun _ _ => imports_of_ownImports hm hforeign, h.reached⟩
  · intro h
    refine ⟨h.long, h.closed, h.related.imp_of_mem_imp fun a b ha hb himports => ?_, h.reached⟩
    obtain ⟨qs, hqs, hb⟩ := himports
    obtain ⟨-, hown | ⟨hnone, -⟩⟩ := imports?_eq_some.1 hqs
    · exact ⟨qs, hown, hb⟩
    · exact absurd hnone (h.ownImports?_ne_none hm hpath ha)

end Cycles

/-! ## Directories of a module -/

/-- The directory at a place is that of a module. At and below the place all names stand for themselves, all directories
can be read, none has two packages, and all parts of import paths stand for themselves too. -/
structure IsModuleTree (s : Setting) (m : GoModule) (home : Location) : Prop where
  module : s.module = some m
  dir : m.dir = home.path
  names : ∀ name ∈ home, Path.IsName name
  reads : ∀ r : Location, (∀ name ∈ r, Path.IsName name) → s.disk.isDir (Location.path (home ++ r)) = true →
    ∃ source, s.packageIn 0 (Location.path (home ++ r)) = .ok source
  imports : ∀ r : Location, (∀ name ∈ r, Path.IsName name) → ∀ qs, s.dirImports? (Location.path (home ++ r)) = some qs →
    ∀ q ∈ qs, Path.IsClean q

/-- A directory of the module at a place: the place is below that of the module. -/
def IsPlace (home l : Location) : Prop := ∃ r : Location, (∀ name ∈ r, Path.IsName name) ∧ l = home ++ r

namespace IsModuleTree

variable {m : GoModule} {home l : Location}

theorem names_of_isPlace (h : s.IsModuleTree m home) (hl : IsPlace home l) : ∀ name ∈ l, Path.IsName name := by
  obtain ⟨r, hr, rfl⟩ := hl
  intro name hname
  rcases List.mem_append.1 hname with hname | hname
  · exact h.names name hname
  · exact hr name hname

theorem packageIn_eq_ok (h : s.IsModuleTree m home) (hl : IsPlace home l) : ∃ source, s.packageIn 0 l.path = .ok source := by
  obtain ⟨r, hr, rfl⟩ := hl
  cases hdir : s.disk.isDir (Location.path (home ++ r)) with
  | true => exact h.reads r hr hdir
  | false => exact ⟨none, packageIn_of_not_isDir hdir 0⟩

/-- The import path of a directory with a package leads to the directory. -/
theorem dirOfImport?_importPathOf (h : s.IsModuleTree m home) (hl : IsPlace home l) (hqs : s.dirImports? l.path = some qs) :
    s.dirOfImport? (s.importPathOf l.path) = some l.path := by
  have hnames := h.names_of_isPlace hl
  obtain ⟨r, hr, rfl⟩ := hl
  rw [importPathOf_path h.module h.dir hnames]
  exact dirOfImport?_intercalate h.module h.dir hnames (isDir_of_dirImports? hqs)

theorem ownImports?_importPathOf (h : s.IsModuleTree m home) (hl : IsPlace home l) (hqs : s.dirImports? l.path = some qs) :
    s.ownImports? (s.importPathOf l.path) = some qs := by
  rw [ownImports?, h.dirOfImport?_importPathOf hl hqs, Option.bind_some, hqs]

theorem exists_isPlace_of_dirOfImport? (h : s.IsModuleTree m home) (hclean : Path.IsClean path) {dir : String}
    (hdir : s.dirOfImport? path = some dir) : ∃ l, IsPlace home l ∧ dir = l.path ∧ path = s.importPathOf l.path := by
  obtain ⟨r, hr, hpath, rfl, -⟩ := eq_of_dirOfImport?_eq_some h.module h.dir h.names hclean hdir
  have hplace : IsPlace home (home ++ r) := ⟨r, hr, rfl⟩
  refine ⟨home ++ r, hplace, rfl, ?_⟩
  rw [importPathOf_path h.module h.dir (h.names_of_isPlace hplace)]
  exact hpath

/-- Imports of a package of the module stand for themselves, and they are known to the bound on the depth. -/
theorem isClean_of_dirImports? (h : s.IsModuleTree m home) (hl : IsPlace home l) (hqs : s.dirImports? l.path = some qs)
    (hq : q ∈ qs) : Path.IsClean q ∧ q ∈ importsOn s.disk ++ bundledImports := by
  obtain ⟨r, hr, rfl⟩ := hl
  exact ⟨h.imports r hr qs hqs q hq, List.mem_append_left _ (mem_importsOn hqs hq)⟩

theorem isClean_of_imports? (h : s.IsModuleTree m home) (hclean : Path.IsClean p) (hqs : s.imports? p = some qs)
    (hq : q ∈ qs) : Path.IsClean q ∧ q ∈ importsOn s.disk ++ bundledImports := by
  obtain ⟨-, hown | ⟨-, text, hsource, rfl⟩⟩ := imports?_eq_some.1 hqs
  · obtain ⟨dir, hdir, hqs⟩ := Option.bind_eq_some_iff.1 hown
    obtain ⟨l, hl, rfl, -⟩ := h.exists_isPlace_of_dirOfImport? hclean hdir
    exact h.isClean_of_dirImports? hl hqs hq
  · obtain ⟨-, hbundled⟩ := mem_bundledPaths_of_source? hsource hq
    exact ⟨isClean_of_mem_bundledPaths hbundled, List.mem_append_right _ (mem_bundledImports hsource hq)⟩

end IsModuleTree

end Setting

end Program

end UnusedMethods
