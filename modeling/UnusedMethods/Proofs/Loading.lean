import Mathlib.Data.List.Perm.Subperm
import UnusedMethods.Proofs.ImportGraph
import UnusedMethods.Proofs.Packages

/-!
# Loading in order

Loading is a depth-first search of the graph of imports. Packages that are being loaded form a path in the graph, from a
package that was asked for down to the one that is being read. A package is added when all that it imports has been
added, so a package that is needed while it is being loaded is on a cycle, and nothing else can go wrong.
-/

namespace UnusedMethods.Program

open Syntax Typing UnusedMethods.Types

/-! ## Steps that may fail -/

/-- A step of loading ends in a state as described, or with an error as described. -/
def Load.Ends {α : Type} (x : Load α) (l : Loaded) (Q : α → Loaded → Prop) (E : Error → Prop) : Prop :=
  match x l with
  | .ok (a, l') => Q a l'
  | .error e => E e

namespace Load.Ends

variable {α β : Type} {l : Loaded} {E : Error → Prop}

variable {Q : α → Loaded → Prop} {f : α → Load β} {R : β → Loaded → Prop}

theorem pure {a : α} (h : Q a l) : Load.Ends (Pure.pure a) l Q E := h

theorem bind {x : Load α} (hx : x.Ends l Q E) (hf : ∀ a l', Q a l' → (f a).Ends l' R E) : Load.Ends (x >>= f) l R E := by
  unfold Load.Ends at hx ⊢
  have hbind : (x >>= f) l = (x l >>= fun p => f p.1 p.2) := rfl
  rw [hbind]
  cases hrun : x l with
  | error e =>
    rw [hrun] at hx
    exact hx
  | ok p =>
    rw [hrun] at hx
    exact hf p.1 p.2 hx

theorem mono {x : Load α} {R : α → Loaded → Prop} (hx : x.Ends l Q E) (h : ∀ a l', Q a l' → R a l') : x.Ends l R E := by
  unfold Load.Ends at hx ⊢
  cases hrun : x l with
  | error e =>
    rw [hrun] at hx
    exact hx
  | ok p =>
    rw [hrun] at hx
    exact h p.1 p.2 hx

/-- A step that neither reads nor changes the state, and does not fail. -/
theorem of_ok {x : Except Error α} {a : α} (hx : x = .ok a) (h : (f a).Ends l R E) : Load.Ends (liftM x >>= f) l R E := by
  subst hx
  exact h

theorem of_error {x : Except Error α} {e : Error} (hx : x = .error e) (h : E e) : Load.Ends (liftM x >>= f) l R E := by
  subst hx
  exact h

theorem of_get {f : Loaded → Load β} (h : (f l).Ends l R E) : Load.Ends (get >>= f) l R E := h

theorem of_takeNumbers {n : Nat} {f : Nat → Load β} (h : (f l.nextFile).Ends { l with nextFile := l.nextFile + n } R E) :
    Load.Ends (Load.takeNumbers n >>= f) l R E := h

end Load.Ends

/-! ## The error that reports a cycle -/

/-- Says that import paths go round in a circle. -/
def cycleError (chain : List String) : Error :=
  .typeCheck (chain.headD "") ("import cycle not allowed: " ++ " -> ".intercalate chain)

variable {loading : List String} {path q : String}

theorem enter_of_not_mem (h : path ∉ loading) : enter loading path = .ok (path :: loading) := if_neg h

theorem enter_of_mem (h : path ∈ loading) :
    enter loading path = .error (cycleError (path :: (loading.takeWhile (· ≠ path)).reverse ++ [path])) := if_pos h

/-! ## What is being loaded -/

/-- The import paths of packages that are being loaded, from the last to the first. Each is imported by the next; only
the first may be one that no import leads to. -/
structure Underway (s : Setting) (places : List Location) (loading : List String) : Prop where
  ne_nil : loading ≠ []
  chain : loading.IsChain fun a b => s.Imports b a ∨ isForeign b = true
  nodup : loading.Nodup
  native : ∀ p ∈ loading.dropLast, isForeign p = false
  sourced : ∀ p ∈ loading, isForeign p = false → s.imports? p ≠ none
  known : ∀ p ∈ loading.dropLast, p ∈ importsOn s.disk ++ bundledImports
  reached : ∀ p ∈ loading, s.Reached places p

/-- An import path that the package which is being loaded imports. -/
structure Wanted (s : Setting) (places : List Location) (loading : List String) (path : String) : Prop where
  underway : Underway s places loading
  imported : ∀ p ∈ loading.head?, s.Imports p path ∨ isForeign p = true
  known : path ∈ importsOn s.disk ++ bundledImports
  clean : Path.IsClean path
  reached : s.Reached places path

variable {s : Setting} {places : List Location} {m : GoModule} {home : Location}

namespace Wanted

theorem isChain (h : Wanted s places loading path) :
    (path :: loading).IsChain fun a b => s.Imports b a ∨ isForeign b = true :=
  List.isChain_cons.2 ⟨h.imported, h.underway.chain⟩

/-- The package at the path becomes the last of those that are being loaded. -/
theorem underway_cons (h : Wanted s places loading path) (hnative : isForeign path = false)
    (hsourced : s.imports? path ≠ none) (hpath : path ∉ loading) : Underway s places (path :: loading) := by
  have hdrop : (path :: loading).dropLast = path :: loading.dropLast := List.dropLast_cons_of_ne_nil h.underway.ne_nil
  refine ⟨by simp, h.isChain, List.nodup_cons.2 ⟨hpath, h.underway.nodup⟩, ?_, ?_, ?_, ?_⟩
  · rw [hdrop]
    exact List.forall_mem_cons.2 ⟨hnative, h.underway.native⟩
  · exact List.forall_mem_cons.2 ⟨fun _ => hsourced, h.underway.sourced⟩
  · rw [hdrop]
    exact List.forall_mem_cons.2 ⟨h.known, h.underway.known⟩
  · exact List.forall_mem_cons.2 ⟨h.reached, h.underway.reached⟩

theorem isCycle (h : Wanted s places loading path) (hnative : isForeign path = false) (hpath : path ∈ loading) :
    s.IsCycle s.Imports places (path :: (loading.takeWhile (· ≠ path)).reverse ++ [path]) := by
  -- what comes after the path in the chain was entered through imports
  obtain ⟨rest, hrest⟩ : ∃ rest, loading = loading.takeWhile (· ≠ path) ++ path :: rest := by
    obtain ⟨before, after, heq, hbefore⟩ := List.eq_append_cons_of_mem hpath
    refine ⟨after, ?_⟩
    have htake : loading.takeWhile (· ≠ path) = before := by
      rw [heq, List.takeWhile_append_of_pos]
      · simp
      · intro p hp
        simpa using ne_of_mem_of_not_mem hp hbefore
    rw [htake, heq]
  generalize hbetween : loading.takeWhile (· ≠ path) = between at hrest
  have hbetween_native : ∀ p ∈ between, isForeign p = false := by
    intro p hp
    refine h.underway.native p ?_
    rw [hrest, List.dropLast_append_of_ne_nil (by simp)]
    exact List.mem_append_left _ hp
  have hchain : (path :: between ++ [path]).IsChain fun a b => s.Imports b a := by
    have hpre : (path :: between ++ [path]).IsChain fun a b => s.Imports b a ∨ isForeign b = true := by
      have hall := h.isChain
      rw [hrest, ← List.cons_append, List.append_cons] at hall
      exact hall.left_of_append
    refine hpre.imp_of_mem_imp fun a b _ hb hab => hab.resolve_right ?_
    have hb_native : isForeign b = false := by
      rcases List.mem_append.1 hb with hb | hb
      · rcases List.mem_cons.1 hb with rfl | hb
        · exact hnative
        · exact hbetween_native b hb
      · rw [List.mem_singleton.1 hb]
        exact hnative
    simp [hb_native]
  refine ⟨by simp, ?_, ?_, ?_⟩
  · rw [List.getLast?_concat]
    rfl
  · have hreverse : path :: between.reverse ++ [path] = (path :: between ++ [path]).reverse := by simp
    rw [hreverse, List.isChain_reverse]
    exact hchain
  · intro p hp
    have hp : p = path ∨ p ∈ between := by simpa [or_comm, or_assoc] using hp
    rcases hp with rfl | hp
    · exact h.reached
    · refine h.underway.reached p ?_
      rw [hrest]
      exact List.mem_append_left _ hp

end Wanted

/-! ## What has been loaded -/

namespace Loaded

/-- A package with an import path has been loaded. -/
def Has (l : Loaded) (path : String) : Prop := (l.byPath.lookup path).isSome = true

/-- Packages are numbered in the order in which they were added, come after what they import, and can be found by their
paths and directories. The package of a directory has the import path of the directory. -/
structure InOrder (s : Setting) (home : Location) (l : Loaded) : Prop where
  stage : Stage l.table l.packages
  id : ∀ (i : Nat) (p : Package), l.packages[i]? = some p → p.id = ⟨i⟩
  found : ∀ (q : String) (id : PackageId), l.byPath.lookup q = some id → ∃ p : Package, l.packages[id.index]? = some p ∧ p.path = q
  has : ∀ (i : Nat) (p : Package), l.packages[i]? = some p → l.Has p.path
  distinct : ∀ (i j : Nat) (p p' : Package), l.packages[i]? = some p → l.packages[j]? = some p' → p.path = p'.path →
    isForeign p.path = false → i = j
  imports : ∀ (i : Nat) (p : Package), l.packages[i]? = some p → ∀ q ∈ importsOf p.files,
    ∃ (j : Nat) (p' : Package), j < i ∧ l.packages[j]? = some p' ∧ p'.path = q
  sources : ∀ (i : Nat) (p : Package), l.packages[i]? = some p → isForeign p.path = false → ∀ q, s.Imports p.path q → q ∈ importsOf p.files
  own : ∀ (i : Nat) (p : Package), l.packages[i]? = some p → isForeign p.path = false → s.ownImports? p.path ≠ none → p.dir ≠ none
  dirs : ∀ (i : Nat) (p : Package) (dir : String), l.packages[i]? = some p → p.dir = some dir → l.byDir.lookup (Path.components dir) = some ⟨i⟩ ∧
    p.path = s.importPathOf dir ∧ s.dirImports? dir = some (importsOf p.files) ∧
    ∃ place, Setting.IsPlace home place ∧ dir = place.path
  byDir : ∀ (c : List Path.Component) (id : PackageId), l.byDir.lookup c = some id →
    ∃ (p : Package) (dir : String), l.packages[id.index]? = some p ∧ p.dir = some dir ∧ Path.components dir = c

/-- Packages are only added. -/
structure Extends (l l' : Loaded) : Prop where
  packages : ∀ (i : Nat) (p : Package), l.packages[i]? = some p → l'.packages[i]? = some p
  has : ∀ q, l.Has q → l'.Has q

/-- What is being loaded has not been added yet; an import path that stands for no package of Go sources may have been. -/
def Awaits (l : Loaded) (loading : List String) : Prop :=
  ∀ (i : Nat) (p : Package), l.packages[i]? = some p → p.path ∈ loading → isForeign p.path = true ∧ p.dir = none

variable {l l' l'' : Loaded}

theorem Extends.refl (l : Loaded) : l.Extends l := ⟨fun _ _ h => h, fun _ h => h⟩

theorem Extends.trans (h : l.Extends l') (h' : l'.Extends l'') : l.Extends l'' :=
  ⟨fun i p hp => h'.packages i p (h.packages i p hp), fun q hq => h'.has q (h.has q hq)⟩

/-- The state with one more package, which has come from a directory or not. -/
def add (l : Loaded) (table : Table) (p : Package) : Loaded :=
  { l with
    table
    packages := l.packages.push p
    byPath := (p.path, ⟨l.packages.size⟩) :: l.byPath
    byDir := (p.dir.map fun dir => (Path.components dir, ⟨l.packages.size⟩)).toList ++ l.byDir }

theorem has_add {table : Table} {p : Package} : (l.add table p).Has q ↔ q = p.path ∨ l.Has q := by
  unfold Has add
  rw [List.lookup_cons]
  split
  · rename_i heq
    simp [eq_of_beq heq]
  · rename_i hne
    simp [ne_of_beq_false hne]

theorem extends_add (l : Loaded) (table : Table) (p : Package) : l.Extends (l.add table p) := by
  refine ⟨fun i p' hp' => ?_, fun q hq => has_add.2 (.inr hq)⟩
  have hi : i < l.packages.size := (Array.getElem?_eq_some_iff.1 hp').1
  show (l.packages.push p)[i]? = some p'
  rw [Array.getElem?_push_lt hi, ← Array.getElem?_eq_getElem hi]
  exact hp'

theorem getElem?_add {table : Table} {p p' : Package} {i : Nat} :
    (l.add table p).packages[i]? = some p' ↔ l.packages[i]? = some p' ∨ i = l.packages.size ∧ p' = p := by
  show (l.packages.push p)[i]? = some p' ↔ _
  rw [Array.getElem?_push]
  split
  · rename_i heq
    simp [heq, eq_comm]
  · rename_i hne
    simp [hne]

namespace InOrder

theorem start : InOrder s home .start := by
  refine ⟨.start, ?_, ?_, ?_, ?_, ?_, ?_, ?_, ?_, ?_⟩ <;> simp [Loaded.start]

theorem exists_of_has (h : l.InOrder s home) (hq : l.Has q) :
    ∃ (i : Nat) (p : Package), l.packages[i]? = some p ∧ p.path = q := by
  obtain ⟨id, hid⟩ := Option.isSome_iff_exists.1 hq
  obtain ⟨p, hp, hpath⟩ := h.found q id hid
  exact ⟨id.index, p, hp, hpath⟩

theorem add (h : l.InOrder s home) {table : Table} {p : Package} (hstage : Stage table (l.packages.push p))
    (hid : p.id = ⟨l.packages.size⟩) (hfresh : isForeign p.path = false → ¬ l.Has p.path)
    (himports : ∀ q ∈ importsOf p.files, l.Has q)
    (hsources : isForeign p.path = false → ∀ q, s.Imports p.path q → q ∈ importsOf p.files)
    (hown : isForeign p.path = false → s.ownImports? p.path ≠ none → p.dir ≠ none)
    (hdir : ∀ dir, p.dir = some dir → l.byDir.lookup (Path.components dir) = none ∧ p.path = s.importPathOf dir ∧
      s.dirImports? dir = some (importsOf p.files) ∧ ∃ place, Setting.IsPlace home place ∧ dir = place.path) :
    (l.add table p).InOrder s home := by
  have hsize : ∀ {i p'}, l.packages[i]? = some p' → i < l.packages.size :=
    fun hp' => (Array.getElem?_eq_some_iff.1 hp').1
  refine ⟨hstage, ?_, ?_, ?_, ?_, ?_, ?_, ?_, ?_, ?_⟩
  · intro i p' hp'
    rcases getElem?_add.1 hp' with hp' | ⟨rfl, rfl⟩
    · exact h.id i p' hp'
    · exact hid
  · intro q id hq
    unfold Loaded.add at hq
    rw [List.lookup_cons] at hq
    split at hq
    · rename_i heq
      cases hq
      exact ⟨p, getElem?_add.2 (.inr ⟨rfl, rfl⟩), (eq_of_beq heq).symm⟩
    · obtain ⟨p', hp', hpath⟩ := h.found q id hq
      exact ⟨p', getElem?_add.2 (.inl hp'), hpath⟩
  · intro i p' hp'
    rcases getElem?_add.1 hp' with hp' | ⟨-, rfl⟩
    · exact has_add.2 (.inr (h.has i p' hp'))
    · exact has_add.2 (.inl rfl)
  · intro i j p₁ p₂ h₁ h₂ hpath hnative
    rcases getElem?_add.1 h₁ with hold₁ | ⟨rfl, rfl⟩
    · rcases getElem?_add.1 h₂ with hold₂ | ⟨rfl, rfl⟩
      · exact h.distinct i j p₁ p₂ hold₁ hold₂ hpath hnative
      · exact absurd (hpath ▸ h.has i p₁ hold₁) (hfresh (hpath ▸ hnative))
    · rcases getElem?_add.1 h₂ with hold₂ | ⟨rfl, -⟩
      · exact absurd (hpath ▸ h.has j p₂ hold₂) (hfresh hnative)
      · rfl
  · intro i p' hp' q hq
    rcases getElem?_add.1 hp' with hp' | ⟨rfl, rfl⟩
    · obtain ⟨j, p₁, hj, h₁, hpath⟩ := h.imports i p' hp' q hq
      exact ⟨j, p₁, hj, getElem?_add.2 (.inl h₁), hpath⟩
    · obtain ⟨j, p₁, h₁, hpath⟩ := h.exists_of_has (himports q hq)
      exact ⟨j, p₁, hsize h₁, getElem?_add.2 (.inl h₁), hpath⟩
  · intro i p' hp'
    rcases getElem?_add.1 hp' with hp' | ⟨-, rfl⟩
    · exact h.sources i p' hp'
    · exact hsources
  · intro i p' hp'
    rcases getElem?_add.1 hp' with hp' | ⟨-, rfl⟩
    · exact h.own i p' hp'
    · exact hown
  · intro i p' dir hp' hp'dir
    rcases getElem?_add.1 hp' with hp' | ⟨rfl, rfl⟩
    · obtain ⟨hlookup, hrest⟩ := h.dirs i p' dir hp' hp'dir
      refine ⟨?_, hrest⟩
      -- the new package comes from another directory
      unfold Loaded.add
      cases hpdir : p.dir with
      | none => exact hlookup
      | some dir' =>
        have hne : Path.components dir ≠ Path.components dir' := by
          intro heq
          rw [heq, (hdir dir' hpdir).1] at hlookup
          cases hlookup
        show ((Path.components dir', _) :: l.byDir).lookup (Path.components dir) = some ⟨i⟩
        rw [List.lookup_cons, beq_false_of_ne hne]
        exact hlookup
    · obtain ⟨-, hrest⟩ := hdir dir hp'dir
      refine ⟨?_, hrest⟩
      unfold Loaded.add
      simp [hp'dir]
  · intro c id hc
    unfold Loaded.add at hc
    cases hpdir : p.dir with
    | none =>
      rw [hpdir] at hc
      obtain ⟨p', dir', hp', hrest⟩ := h.byDir c id hc
      exact ⟨p', dir', getElem?_add.2 (.inl hp'), hrest⟩
    | some dir =>
      rw [hpdir] at hc
      simp only [Option.map_some, Option.toList_some, List.cons_append, List.nil_append, List.lookup_cons] at hc
      split at hc
      · rename_i heq
        cases hc
        exact ⟨p, dir, getElem?_add.2 (.inr ⟨rfl, rfl⟩), hpdir, (eq_of_beq heq).symm⟩
      · obtain ⟨p', dir', hp', hrest⟩ := h.byDir c id hc
        exact ⟨p', dir', getElem?_add.2 (.inl hp'), hrest⟩

theorem takeNumbers (h : l.InOrder s home) (n : Nat) : InOrder s home { l with nextFile := n } :=
  ⟨h.stage, h.id, h.found, h.has, h.distinct, h.imports, h.sources, h.own, h.dirs, h.byDir⟩

end InOrder

/-- From a state to one in which more has been loaded, but nothing of what is being loaded. -/
structure Leads (s : Setting) (home : Location) (loading : List String) (l l' : Loaded) : Prop where
  inOrder : l'.InOrder s home
  «extends» : l.Extends l'
  awaits : l'.Awaits loading

theorem Leads.trans (h : l.Leads s home loading l') (h' : l'.Leads s home loading l'') : l.Leads s home loading l'' :=
  ⟨h'.inOrder, h.extends.trans h'.extends, h'.awaits⟩

end Loaded

/-! ## Loading imports -/

/-- An error that reports a cycle of imports, all of which are needed. -/
def Reports (s : Setting) (places : List Location) (e : Error) : Prop :=
  ∃ chain, e = cycleError chain ∧ s.IsCycle s.Imports places chain

/-- An import is loaded, or a cycle is found, while no more is being loaded than the bound on the depth allows. -/
def Importer.Loads (importer : Importer) (s : Setting) (places : List Location) (home : Location) (depth : Nat) : Prop :=
  ∀ (loading : List String) (path : String) (l : Loaded), Wanted s places loading path →
    importDepth s.disk + 1 ≤ depth + loading.length → l.InOrder s home → l.Awaits loading →
    (importer loading path).Ends l (fun _ l' => l.Leads s home loading l' ∧ l'.Has path) (Reports s places)

section Steps

variable {importer : Importer} {depth : Nat} {l : Loaded}

variable {qs : List String} {place : Location}

theorem ends_imports (himporter : importer.Loads s places home depth)
    (hdepth : importDepth s.disk + 1 ≤ depth + loading.length) (hqs : ∀ q ∈ qs, Wanted s places loading q)
    (hl : l.InOrder s home) (hawaits : l.Awaits loading) : Load.Ends (qs.forM fun q => discard (importer loading q)) l
      (fun _ l' => l.Leads s home loading l' ∧ ∀ q ∈ qs, l'.Has q) (Reports s places) := by
  induction qs generalizing l with
  | nil => exact .pure ⟨⟨hl, .refl l, hawaits⟩, by simp⟩
  | cons q qs ih =>
    obtain ⟨hq, hqs⟩ := List.forall_mem_cons.1 hqs
    have hfirst : Load.Ends (discard (importer loading q)) l
        (fun _ l' => l.Leads s home loading l' ∧ l'.Has q) (Reports s places) := by
      have hload := himporter loading q l hq hdepth hl hawaits
      exact .bind hload fun _ _ h => .pure h
    show Load.Ends (discard (importer loading q) >>= fun _ => qs.forM fun q => discard (importer loading q)) l _ _
    refine .bind hfirst fun _ l₁ ⟨h₁, hhas⟩ => ?_
    refine (ih hqs h₁.inOrder h₁.awaits).mono fun _ l₂ ⟨h₂, hall⟩ => ⟨h₁.trans h₂, ?_⟩
    exact List.forall_mem_cons.2 ⟨h₂.extends.has q hhas, hall⟩

/-- The package that is added after its imports, and the state before it is added. -/
structure Checked (s : Setting) (home : Location) (loading : List String) (source : PackageSource) (l l₁ : Loaded)
    (table : Table) (p : Package) : Prop where
  leads : l.Leads s home loading l₁
  imports : ∀ q ∈ importsOf source.files, l₁.Has q
  stage : Stage table (l₁.packages.push p)
  id : p.id = ⟨l₁.packages.size⟩
  path : p.path = source.path
  dir : p.dir = source.dir
  files : p.files = source.files

theorem ends_loadSource (himporter : importer.Loads s places home depth)
    (hdepth : importDepth s.disk + 1 ≤ depth + loading.length) {source : PackageSource}
    (hqs : ∀ q ∈ importsOf source.files, Wanted s places loading q) (hl : l.InOrder s home) (hawaits : l.Awaits loading) :
    (loadSource importer loading source).Ends l
      (fun id l' => ∃ l₁ table p, Checked s home loading source l l₁ table p ∧ id = ⟨l₁.packages.size⟩ ∧
        { l' with byDir := (p.dir.map fun dir => (Path.components dir, id)).toList ++ l'.byDir } = l₁.add table p)
      (Reports s places) := by
  refine .bind (ends_imports himporter hdepth hqs hl hawaits) fun _ l₁ ⟨hleads, himports⟩ => ?_
  have hstage := hleads.inOrder.stage.checked l₁.byPath ⟨l₁.packages.size⟩ source
  exact ⟨l₁, _, _, ⟨hleads, himports, hstage, rfl, rfl, rfl, rfl⟩, rfl, rfl⟩

section Checked

variable {source : PackageSource} {l₁ : Loaded} {table : Table} {p : Package}

/-- The package that is being loaded is added: the rest is still being loaded. -/
theorem Checked.awaits_add (h : Checked s home (path :: loading) source l l₁ table p) (hpath : p.path = path)
    (hnot : path ∉ loading) : (l₁.add table p).Awaits loading := by
  intro i p' hp' hmem
  rcases Loaded.getElem?_add.1 hp' with hp' | ⟨-, rfl⟩
  · exact h.leads.awaits i p' hp' (List.mem_cons_of_mem _ hmem)
  · exact absurd (hpath ▸ hmem) hnot

/-- The package that is being loaded has not been added before. -/
theorem Checked.not_has (h : Checked s home (path :: loading) source l l₁ table p) (hpath : p.path = path) :
    isForeign p.path = false → ¬ l₁.Has p.path := by
  intro hnative hhas
  obtain ⟨i, p', hp', heq⟩ := h.leads.inOrder.exists_of_has hhas
  obtain ⟨hforeign, -⟩ := h.leads.awaits i p' hp' (by simp [heq, hpath])
  rw [heq, hnative] at hforeign
  cases hforeign

end Checked

theorem eq_of_packageOf {dir : String} {files : List File} {source : PackageSource}
    (h : packageOf dir path files = .ok (some source)) : source.path = path ∧ source.dir = some dir := by
  unfold packageOf at h
  split at h
  · cases h
  · dsimp only at h
    split at h
    · cases h
    · cases h
      exact ⟨rfl, rfl⟩

theorem Setting.IsModuleTree.imports_iff (h : s.IsModuleTree m home) (hplace : Setting.IsPlace home place)
    (hqs : s.dirImports? place.path = some qs) (hnative : isForeign (s.importPathOf place.path) = false) :
    s.Imports (s.importPathOf place.path) q ↔ q ∈ qs := by
  have hown := h.ownImports?_importPathOf hplace hqs
  have himports : s.imports? (s.importPathOf place.path) = some qs := Setting.imports?_eq_some.2 ⟨hnative, .inl hown⟩
  unfold Setting.Imports
  rw [himports]
  simp

/-- What is found of the package of a place: none is there, or it has been added. -/
def FoundAt (s : Setting) (place : Location) (l : Loaded) : Option PackageId → Prop
  | none => s.dirImports? place.path = none
  | some id => ∃ p : Package, l.packages[id.index]? = some p ∧ p.dir = some place.path

/-- The package of a place is loaded, when it has become the last of those that are being loaded. -/
theorem ends_loadDir (htree : s.IsModuleTree m home) (himporter : importer.Loads s places home depth)
    (hplace : Setting.IsPlace home place) (hpath : path = s.importPathOf place.path) (hnot : path ∉ loading)
    (hdepth : importDepth s.disk ≤ depth + loading.length)
    (hqs : ∀ qs, s.dirImports? place.path = some qs → ∀ q ∈ qs, Wanted s places (path :: loading) q) (hl : l.InOrder s home)
    (hrest : l.Awaits loading) (hawaits : s.dirImports? place.path ≠ none → l.Awaits (path :: loading))
    (hnone : l.byDir.lookup (Path.components place.path) = none) : (loadDir s importer loading place.path path).Ends l
      (fun r l' => l.Leads s home loading l' ∧ FoundAt s place l' r ∧ (r = none → l'.packages = l.packages))
      (Reports s places) := by
  obtain ⟨r₀, hr₀⟩ := htree.packageIn_eq_ok hplace
  -- the sources can be read, whatever the numbers of the files are
  have hr := Setting.packageIn_eq s l.nextFile place.path
  rw [hr₀] at hr
  obtain ⟨texts, files, htexts, hfiles, hpackage⟩ := Setting.packageIn_eq_ok hr
  rw [← hpath] at hpackage
  unfold loadDir
  refine .of_get ?_
  rw [hnone]
  refine .of_ok (enter_of_not_mem hnot) (.of_ok htexts (.of_takeNumbers (.of_ok hfiles (.of_ok hpackage ?_))))
  have hl := hl.takeNumbers (l.nextFile + texts.length)
  generalize hl' : ({ l with nextFile := l.nextFile + texts.length } : Loaded) = l' at hl
  have hextends : l.Extends l' := by
    subst hl'
    exact ⟨fun _ _ h => h, fun _ h => h⟩
  cases r₀ with
  | none =>
    have hempty : s.dirImports? place.path = none := by
      unfold Setting.dirImports?
      rw [hr₀]
    subst hl'
    exact .pure ⟨⟨hl, hextends, hrest⟩, hempty, fun _ => rfl⟩
  | some source₀ =>
    have hsome : s.dirImports? place.path = some (importsOf source₀.files) :=
      Setting.dirImports?_eq_some.2 ⟨source₀, hr₀, rfl⟩
    obtain ⟨hsource, hdir⟩ := eq_of_packageOf hpackage
    generalize hshift : shiftFiles l.nextFile source₀ = source at hsource hdir
    have hfiles : importsOf source.files = importsOf source₀.files := by
      rw [← hshift]
      exact importsOf_shift _ _
    have hwanted := hqs _ hsome
    rw [← hfiles] at hwanted hsome
    have hdepth' : importDepth s.disk + 1 ≤ depth + (path :: loading).length := by
      rw [List.length_cons]
      omega
    have hawaits' : l'.Awaits (path :: loading) := by
      subst hl'
      exact hawaits (by simp [hsome])
    have hload := ends_loadSource himporter hdepth' hwanted hl hawaits'
    simp only [Option.map_some, hshift]
    refine .bind hload ?_
    rintro _ l₂ ⟨l₁, table, p, hchecked, rfl, hadd⟩
    have hp : p.path = path := hchecked.path.trans hsource
    have hpdir : p.dir = some place.path := hchecked.dir.trans hdir
    have hadd : ({ l₂ with byDir := (Path.components place.path, ⟨l₁.packages.size⟩) :: l₂.byDir } : Loaded) =
        l₁.add table p := by
      rw [hpdir] at hadd
      exact hadd
    have hinOrder : (l₁.add table p).InOrder s home := by
      refine hchecked.leads.inOrder.add hchecked.stage hchecked.id (hchecked.not_has hp) ?_ ?_ ?_ ?_
      · rw [hchecked.files]
        exact hchecked.imports
      · intro hnative q hq
        rw [hp, hpath] at hnative hq
        rw [hchecked.files]
        exact (htree.imports_iff hplace hsome hnative).1 hq
      · intro _ _ hdirs
        rw [hpdir] at hdirs
        cases hdirs
      · intro dir heq
        obtain rfl : place.path = dir := Option.some.inj (hpdir.symm.trans heq)
        refine ⟨?_, hp.trans hpath, by rw [hchecked.files, hsome], place, hplace, rfl⟩
        -- while its imports were loaded, the package was not added
        by_contra hlookup
        obtain ⟨id, hid⟩ := Option.ne_none_iff_exists'.1 hlookup
        obtain ⟨p', dir', hp', hp'dir, hcomponents⟩ := hchecked.leads.inOrder.byDir _ id hid
        obtain ⟨-, hp'path, -, place', hplace', rfl⟩ := hchecked.leads.inOrder.dirs _ p' dir' hp' hp'dir
        obtain rfl : place' = place :=
          Path.path_injective (htree.names_of_isPlace hplace') (htree.names_of_isPlace hplace) hcomponents
        obtain ⟨-, hnodir⟩ := hchecked.leads.awaits _ p' hp' (by simp [hp'path, hpath])
        rw [hp'dir] at hnodir
        cases hnodir
    have hfinal : l.Leads s home loading (l₁.add table p) :=
      ⟨hinOrder, (hextends.trans hchecked.leads.extends).trans (Loaded.extends_add l₁ table p),
        hchecked.awaits_add hp hnot⟩
    show l.Leads s home loading _ ∧ FoundAt s place _ _ ∧ _
    dsimp only
    rw [hadd]
    exact ⟨hfinal, ⟨p, Loaded.getElem?_add.2 (.inr ⟨rfl, rfl⟩), hpdir⟩, nofun⟩

theorem Wanted.next (h : Wanted s places loading path) (htree : s.IsModuleTree m home) (hnot : path ∉ loading)
    (hqs : s.imports? path = some qs) (hq : q ∈ qs) : Wanted s places (path :: loading) q := by
  have himports : s.Imports path q := ⟨qs, hqs, hq⟩
  obtain ⟨hclean, hknown⟩ := htree.isClean_of_imports? h.clean hqs hq
  have hsourced : s.imports? path ≠ none := by simp [hqs]
  refine ⟨h.underway_cons (Setting.isForeign_of_imports himports) hsourced hnot, ?_, hknown, hclean, .step h.reached himports⟩
  intro p hp
  obtain rfl : path = p := Option.some.inj hp
  exact .inl himports

theorem ends_addOpaque (hl : l.InOrder s home) (hwanted : Wanted s places loading path) (hawaits : l.Awaits loading)
    (hnot : ¬ l.Has path) (hnone : isForeign path = true ∨ s.imports? path = none) :
    (Load.addOpaque path).Ends l (fun _ l' => l.Leads s home loading l' ∧ l'.Has path) (Reports s places) := by
  generalize hp : Package.opaqueAt ⟨l.packages.size⟩ path = p
  have hpath : p.path = path := by
    subst hp
    rfl
  have hdir : p.dir = none := by
    subst hp
    rfl
  have hfiles : importsOf p.files = [] := by
    subst hp
    exact List.mergeSort_nil
  have hadd : Load.addOpaque path l = .ok (⟨l.packages.size⟩, l.add l.table p) := by
    subst hp
    rfl
  have hinOrder : (l.add l.table p).InOrder s home := by
    refine hl.add ?_ ?_ (fun _ => hpath ▸ hnot) ?_ ?_ ?_ ?_
    · subst hp
      exact .unknown hl.stage _ _
    · subst hp
      rfl
    · simp [hfiles]
    · rintro hnative q ⟨qs, hqs, -⟩
      rw [hpath] at hnative hqs
      simp [hnative, hqs] at hnone
    · intro hnative hown
      rw [hpath] at hnative hown
      rcases hnone with hforeign | hnone
      · rw [hnative] at hforeign
        cases hforeign
      · unfold Setting.imports? at hnone
        simp [hnative] at hnone
        exact absurd hnone.1 hown
    · intro dir heq
      rw [hdir] at heq
      cases heq
  unfold Load.Ends
  rw [hadd]
  refine ⟨⟨hinOrder, Loaded.extends_add l l.table p, ?_⟩, Loaded.has_add.2 (.inl hpath.symm)⟩
  intro i p' hp' hmem
  rcases Loaded.getElem?_add.1 hp' with hp' | ⟨-, rfl⟩
  · exact hawaits i p' hp' hmem
  · -- what is being loaded has sources
    refine ⟨?_, hdir⟩
    rcases hnone with hforeign | hnone
    · rw [hpath]
      exact hforeign
    · by_contra hnative
      rw [hpath] at hmem hnative
      exact hwanted.underway.sourced path hmem (by simpa using hnative) hnone

theorem ends_loadBundled (htree : s.IsModuleTree m home) (himporter : importer.Loads s places home depth)
    (hwanted : Wanted s places loading path) (hnot : path ∉ loading) (hnative : isForeign path = false)
    (hown : s.ownImports? path = none) {text : String} (htext : Library.source? path = some text)
    (hdepth : importDepth s.disk ≤ depth + loading.length) (hl : l.InOrder s home) (hawaits : l.Awaits (path :: loading)) :
    (loadBundled importer loading path text).Ends l (fun _ l' => l.Leads s home loading l' ∧ l'.Has path)
      (Reports s places) := by
  obtain ⟨tree, hparse, -⟩ := Library.parse_of_source? htext
  have himports : s.imports? path = some (importsOfText text) :=
    Setting.imports?_eq_some.2 ⟨hnative, .inr ⟨hown, text, htext, rfl⟩⟩
  unfold loadBundled
  refine .of_ok (enter_of_not_mem hnot) (.of_takeNumbers ?_)
  generalize hfile : ({ id := l.nextFile, path := _, relPath := _, tree } : File) = file
  have hread : parseFile l.nextFile s!"$GOROOT/src/{path}/stub.go" (Path.slashed s!"$GOROOT/src/{path}/stub.go") text =
      .ok file := by
    unfold parseFile
    rw [hparse, ← hfile]
  refine .of_ok hread ?_
  have hfiles : ∀ q, q ∈ importsOf [file] ↔ q ∈ importsOfText text := by
    intro q
    rw [mem_importsOf, importsOfText, hparse, ← hfile]
    simp
  have hdepth' : importDepth s.disk + 1 ≤ depth + (path :: loading).length := by
    rw [List.length_cons]
    omega
  generalize hsource : ({ path, name := file.tree.package.name, dir := none, files := [file] } : PackageSource) = source
  have hwanted' : ∀ q ∈ importsOf source.files, Wanted s places (path :: loading) q := by
    intro q hq
    rw [← hsource] at hq
    exact hwanted.next htree hnot himports ((hfiles q).1 hq)
  have hload := ends_loadSource himporter hdepth' hwanted' (hl.takeNumbers (l.nextFile + 1)) hawaits
  refine hload.mono ?_
  rintro _ l₂ ⟨l₁, table, p, hchecked, rfl, hadd⟩
  have hp : p.path = path := by rw [hchecked.path, ← hsource]
  have hpdir : p.dir = none := by rw [hchecked.dir, ← hsource]
  have hpfiles : p.files = [file] := by rw [hchecked.files, ← hsource]
  have hadd : l₂ = l₁.add table p := by
    rw [hpdir] at hadd
    exact hadd
  have hinOrder : (l₁.add table p).InOrder s home := by
    refine hchecked.leads.inOrder.add hchecked.stage hchecked.id (hchecked.not_has hp) ?_ ?_ ?_ ?_
    · rw [hchecked.files]
      exact hchecked.imports
    · rintro - q ⟨qs, hqs, hq⟩
      rw [hp, himports] at hqs
      rw [hpfiles, hfiles, Option.some.inj hqs]
      exact hq
    · intro _ hne
      rw [hp] at hne
      exact absurd hown hne
    · intro dir heq
      rw [hpdir] at heq
      cases heq
  rw [hadd]
  have hextends : l.Extends l₁ := ⟨hchecked.leads.extends.packages, hchecked.leads.extends.has⟩
  exact ⟨⟨hinOrder, hextends.trans (Loaded.extends_add l₁ table p), hchecked.awaits_add hp hnot⟩,
    Loaded.has_add.2 (.inl hp.symm)⟩

theorem Loaded.InOrder.lookup_byDir (hl : l.InOrder s home) (htree : s.IsModuleTree m home)
    (hplace : Setting.IsPlace home place) (hnot : ¬ l.Has (s.importPathOf place.path)) :
    l.byDir.lookup (Path.components place.path) = none := by
  by_contra hlookup
  obtain ⟨id, hid⟩ := Option.ne_none_iff_exists'.1 hlookup
  obtain ⟨p, dir, hp, hpdir, hcomponents⟩ := hl.byDir _ id hid
  obtain ⟨-, hpath, -, place', hplace', rfl⟩ := hl.dirs _ p dir hp hpdir
  obtain rfl : place' = place :=
    Path.path_injective (htree.names_of_isPlace hplace') (htree.names_of_isPlace hplace) hcomponents
  exact hnot (hpath ▸ hl.has _ p hp)

theorem ends_loadOwn (htree : s.IsModuleTree m home) (himporter : importer.Loads s places home depth)
    (hwanted : Wanted s places loading path) (hnative : isForeign path = false)
    (hdepth : importDepth s.disk ≤ depth + loading.length) (hl : l.InOrder s home) (hawaits : l.Awaits loading)
    (hnot : ¬ l.Has path) {dir : String} (hdir : s.dirOfImport? path = some dir) :
    (loadDir s importer loading dir path).Ends l
      (fun r l' => l.Leads s home loading l' ∧ (r ≠ none → l'.Has path) ∧
        (r = none → s.ownImports? path = none ∧ l'.Awaits (path :: loading))) (Reports s places) := by
  obtain ⟨place, hplace, rfl, hpath⟩ := htree.exists_isPlace_of_dirOfImport? hwanted.clean hdir
  have hnone := hl.lookup_byDir htree hplace (hpath ▸ hnot)
  by_cases hmem : path ∈ loading
  · -- the package is needed while it is being loaded
    unfold loadDir
    refine .of_get ?_
    rw [hnone]
    exact .of_error (enter_of_mem hmem) ⟨_, rfl, hwanted.isCycle hnative hmem⟩
  · have hawaits' : l.Awaits (path :: loading) := by
      intro i p hp hpmem
      rcases List.mem_cons.1 hpmem with heq | hpmem
      · exact absurd (heq ▸ hl.has i p hp) hnot
      · exact hawaits i p hp hpmem
    have hqs : ∀ qs, s.dirImports? place.path = some qs → ∀ q ∈ qs, Wanted s places (path :: loading) q := by
      intro qs hqs q hq
      have hown : s.ownImports? path = some qs := by rw [Setting.ownImports?, hdir, Option.bind_some, hqs]
      exact hwanted.next htree hmem (Setting.imports?_eq_some.2 ⟨hnative, .inl hown⟩) hq
    refine (ends_loadDir htree himporter hplace hpath hmem hdepth hqs hl hawaits (fun _ => hawaits') hnone).mono ?_
    rintro r l' ⟨hleads, hfound, hsame⟩
    refine ⟨hleads, fun hr => ?_, fun hr => ⟨?_, ?_⟩⟩
    · obtain ⟨id, rfl⟩ := Option.ne_none_iff_exists'.1 hr
      obtain ⟨p, hp, hpdir⟩ := hfound
      obtain ⟨-, hppath, -⟩ := hleads.inOrder.dirs _ p _ hp hpdir
      rw [hpath, ← hppath]
      exact hleads.inOrder.has _ p hp
    · subst hr
      rw [Setting.ownImports?, hdir, Option.bind_some]
      exact hfound
    · unfold Loaded.Awaits
      rw [hsame hr]
      exact hawaits'

theorem ends_loadOther (htree : s.IsModuleTree m home) (himporter : importer.Loads s places home depth)
    (hwanted : Wanted s places loading path) (hnative : isForeign path = false) (hown : s.ownImports? path = none)
    (hdepth : importDepth s.disk ≤ depth + loading.length) (hl : l.InOrder s home) (hawaits : l.Awaits (path :: loading)) :
    (∀ text, Library.source? path = some text → (loadBundled importer loading path text).Ends l
      (fun _ l' => l.Leads s home loading l' ∧ l'.Has path) (Reports s places)) ∧
    (Library.source? path = none → (Load.addOpaque path).Ends l
      (fun _ l' => l.Leads s home loading l' ∧ l'.Has path) (Reports s places)) := by
  constructor
  · intro text htext
    by_cases hmem : path ∈ loading
    · unfold loadBundled
      exact .of_error (enter_of_mem hmem) ⟨_, rfl, hwanted.isCycle hnative hmem⟩
    · exact ends_loadBundled htree himporter hwanted hmem hnative hown htext hdepth hl hawaits
  · intro htext
    have hnot : ¬ l.Has path := by
      intro hhas
      obtain ⟨i, p, hp, heq⟩ := hl.exists_of_has hhas
      obtain ⟨hforeign, -⟩ := hawaits i p hp (by simp [heq])
      rw [heq, hnative] at hforeign
      cases hforeign
    have himports : s.imports? path = none := by
      unfold Setting.imports?
      simp [hnative, hown, htext]
    exact ends_addOpaque hl hwanted (fun i p hp hmem => hawaits i p hp (List.mem_cons_of_mem _ hmem)) hnot (.inr himports)

/-- Imports are loaded in order, and a cycle of imports is found. The bound on the depth is never reached: what is being
loaded has different import paths, and these are known beforehand. -/
theorem loads_loadImport (htree : s.IsModuleTree m home) (depth : Nat) : (loadImport s depth).Loads s places home depth := by
  induction depth with
  | zero =>
    intro loading path l hwanted hdepth _ _
    exfalso
    have hle : loading.dropLast.length ≤ (importsOn s.disk ++ bundledImports).length :=
      (List.subperm_of_subset (hwanted.underway.nodup.sublist (List.dropLast_sublist loading))
        hwanted.underway.known).length_le
    rw [List.length_dropLast, List.length_append] at hle
    unfold importDepth at hdepth
    omega
  | succ depth ih =>
    intro loading path l hwanted hdepth hl hawaits
    have hdepth : importDepth s.disk ≤ depth + loading.length := by omega
    unfold loadImport
    refine .of_get ?_
    cases hlookup : l.byPath.lookup path with
    | some id => exact .pure ⟨⟨hl, .refl l, hawaits⟩, by simp [Loaded.Has, hlookup]⟩
    | none =>
      have hnot : ¬ l.Has path := by simp [Loaded.Has, hlookup]
      dsimp only
      split
      · rename_i hforeign
        exact ends_addOpaque hl hwanted hawaits hnot (.inl hforeign)
      · rename_i hnative
        have hnative : isForeign path = false := by simpa using hnative
        have hawaits' : l.Awaits (path :: loading) := by
          intro i p hp hpmem
          rcases List.mem_cons.1 hpmem with heq | hpmem
          · exact absurd (heq ▸ hl.has i p hp) hnot
          · exact hawaits i p hp hpmem
        split
        · rename_i hdir
          refine .bind (ends_loadOwn htree ih hwanted hnative hdepth hl hawaits hnot hdir) ?_
          rintro (_ | id) l₁ ⟨hleads, hsome, hnone⟩
          · obtain ⟨hown, hawaits₁⟩ := hnone rfl
            obtain ⟨hbundled, hunknown⟩ := ends_loadOther htree ih hwanted hnative hown hdepth hleads.inOrder hawaits₁
            cases htext : Library.source? path with
            | none => exact (hunknown htext).mono fun _ l₂ ⟨h₂, hhas⟩ => ⟨hleads.trans h₂, hhas⟩
            | some text => exact (hbundled text htext).mono fun _ l₂ ⟨h₂, hhas⟩ => ⟨hleads.trans h₂, hhas⟩
          · exact .pure ⟨hleads, hsome (by simp)⟩
        · rename_i hdir
          have hown : s.ownImports? path = none := by rw [Setting.ownImports?, hdir, Option.bind_none]
          obtain ⟨hbundled, hunknown⟩ := ends_loadOther htree ih hwanted hnative hown hdepth hl hawaits'
          cases htext : Library.source? path with
          | none => exact hunknown htext
          | some text => exact hbundled text htext

end Steps

end UnusedMethods.Program
