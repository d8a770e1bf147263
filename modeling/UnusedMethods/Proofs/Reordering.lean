import Mathlib.Data.List.Forall2
import UnusedMethods.Types.Printer
import UnusedMethods.Proofs.DeclarationOrder
import UnusedMethods.Proofs.GenericDefinitions

/-!
# Reordering the declarations of a package

A package is checked phase by phase: first all names are entered, then the right-hand sides of types are resolved, then
those of the other declarations. Within a phase the order of the files and of the declarations in them is kept. So
exchanging declarations of different kinds changes nothing, and every declared name denotes an object of the same kind
whatever the order is.

The right-hand side of a type declaration is resolved together with its type parameters. A generic type that is declared
later has no parameters yet, and applying it to arguments gives the generic type itself.
-/

namespace UnusedMethods.Typing

open Syntax UnusedMethods.Types Checking

/-! ## The declarations of a package -/

/-- The package-level declarations of a file. -/
def File.declared (f : File) : List Declaration := f.tree.decls.flatMap declarationsOf

namespace PackageSource

/-- The package-level declarations of a package. -/
def declared (source : PackageSource) : List Declaration := source.files.flatMap (·.declared)

/-- The package-level names of a package. -/
def names (source : PackageSource) : List String := source.declared.flatMap (·.names)

/-- The package-level declarations of a package, each with its file. -/
def declarations (source : PackageSource) (packages : Array Package) (byPath : ImportMap) :
    List (CurrentFile × Declaration) :=
  declarationsIn (source.currentFiles packages byPath)

/-- The package, and the table, after the check. -/
def checked (source : PackageSource) (packages : Array Package) (byPath : ImportMap) (id : PackageId) (t : Table) :
    Package × Table :=
  (checkPackage packages byPath id source).run t

variable (source : PackageSource) (packages : Array Package) (byPath : ImportMap)

theorem map_currentFiles : (source.currentFiles packages byPath).map (·.2) = source.files.map (·.tree) := by
  refine List.ext_getElem? fun i => ?_
  rw [List.getElem?_map, List.getElem?_map, currentFiles, List.getElem?_mapIdx, Option.map_map]
  rfl

theorem map_declarations : (source.declarations packages byPath).map (·.2) = source.declared := by
  have htrees : source.declared = (source.files.map (·.tree)).flatMap fun tree => tree.decls.flatMap declarationsOf := by
    rw [declared, List.flatMap_map]
    rfl
  rw [htrees, ← map_currentFiles source packages byPath, List.flatMap_map, declarations, declarationsIn, List.map_flatMap]
  simp only [List.map_map, Function.comp_def, List.map_id']

theorem namesIn_declarations : namesIn (source.declarations packages byPath) = source.names := by
  rw [names, ← map_declarations source packages byPath, List.flatMap_map]
  rfl

end PackageSource

/-- The declarations of a package have been entered, and nothing else has been done. -/
structure Entered (source : PackageSource) (packages : Array Package) (es : List (CurrentFile × Entry)) (n : Notes)
    (t : Table) : Prop extends Underway source.openPlan.declares es (source.context packages) n t where
  names : (es.flatMap (·.2.declaration.names)).Nodup
  denotes : ∀ p ∈ es, p.2.declaration.kind ≠ .alias → ∀ name ∈ p.2.declaration.names, (n.scope.find? name).isSome
  locals : n.locals = []
  unresolved : ResolvingTypes.Unresolved t es
  types : ∀ file spec id, (file, .type spec id) ∈ es → t.get id = .named (declaredType source.path spec)

variable {t : Table} {packages : Array Package} {source : PackageSource}

theorem exists_entered (hstage : Stage t packages) (hnames : source.names.Nodup) (byPath : ImportMap) :
    ∃ es n t', Entered source packages es n t' ∧
      es.map (fun p => (p.1, p.2.declaration)) = source.declarations packages byPath ∧
      ∀ id, source.checked packages byPath id t =
        (source.package id ((checkEntries es).eval (source.context packages) n t').1.2,
          ((checkEntries es).eval (source.context packages) n t').2) := by
  obtain ⟨hwf, hpackages⟩ := hstage.wf
  have hds : DeclarationsWF source.openPlan t (source.declarations packages byPath) :=
    (source.currentFiles_wf hpackages byPath).declarationsIn
  have hnodup : (namesIn (source.declarations packages byPath)).Nodup := source.namesIn_declarations packages byPath ▸ hnames
  have hunderway := underway_enterAll source.open_openPlan.denotes hwf (source.context_wf hpackages) source.start_wf rfl hds hnodup
  obtain ⟨n', heval, hdefines⟩ := eval_enterAll (source.declarations packages byPath) (source.context packages)
    source.start t
  refine ⟨_, _, _, ⟨hunderway, ?_, fun p hp halias name hname => isSome_find?_enterAll hp halias hname, ?_,
    unresolved_enterAll _ _ _ _, fun file spec id he => get_enterAll he⟩, ?_, fun id => ?_⟩
  · rw [heval, flatMap_names_entriesFrom]
    exact hnodup
  · rw [heval]
    exact hdefines.locals
  · rw [heval, map_declaration_entriesFrom]
  · rw [PackageSource.checked, run_checkPackage, checkFiles, eval_bind]
    rfl

/-! ## What names denote -/

/-- What sort of thing an object is. -/
inductive ObjectKind where
  | var
  | const
  | type
  | func
  | package
  | builtin
  | nil
deriving DecidableEq

/-- The kind of an object. -/
def Object.kind : Object → ObjectKind
  | .var _ => .var
  | .const _ => .const
  | .typeName _ => .type
  | .func _ => .func
  | .package _ => .package
  | .builtin _ => .builtin
  | .nil => .nil

/-- The kind of what the names of a declaration denote. -/
def DeclarationKind.objectKind : DeclarationKind → ObjectKind
  | .alias | .type => .type
  | .func | .method => .func
  | .var => .var
  | .const => .const

theorem Entry.Denotes.kind {e : Entry} {obj : Object} (h : e.Denotes obj) : obj.kind = e.declaration.kind.objectKind := by
  cases e with
  | «alias» spec =>
    obtain ⟨id, rfl⟩ := h
    rfl
  | type spec id =>
    cases h
    rfl
  | func f id =>
    cases h
    rfl
  | method f recv => cases h
  | var spec =>
    obtain ⟨id, rfl⟩ := h
    rfl
  | consts specs =>
    obtain ⟨id, rfl⟩ := h
    rfl

theorem render_of_declaredType {t' : Table} {id : TypeId} {path : String} {spec : TypeSpec}
    (hget : t.get id = .named (declaredType path spec)) (hgrows : t.Grows t') :
    t'.render id = path ++ "." ++ spec.name.name := by
  obtain ⟨d, hget', hname, hpackage, -, hargs⟩ := hgrows.named hget
  unfold Table.render Table.renderWithin
  rw [hget']
  simp [hname, hpackage, hargs, declaredType]

/-- Every declared name denotes an object of the kind that its declaration says, and a declared type has the name of its
declaration. -/
theorem exists_object_of_declared (hstage : Stage t packages) (hnames : source.names.Nodup) (byPath : ImportMap)
    (id : PackageId) {d : Declaration} (hd : d ∈ source.declared) {name : String} (hname : name ∈ d.names) :
    ∃ obj, (source.checked packages byPath id t).1.scope.find? name = some obj ∧
      obj.kind = d.kind.objectKind ∧
      ∀ spec, d = .type spec → (source.checked packages byPath id t).2.render
        (obj.type (source.checked packages byPath id t).2) = source.path ++ "." ++ spec.name.name := by
  obtain ⟨es, n, t', hentered, hes, hrun⟩ := exists_entered hstage hnames byPath
  rw [← source.map_declarations packages byPath, ← hes, List.map_map] at hd
  obtain ⟨p, hp, rfl⟩ := List.mem_map.1 hd
  rw [hrun]
  obtain ⟨obj, hobj, hdenotes⟩ := exists_object_of_mem hentered.toUnderway hentered.names hentered.denotes hp hname
  refine ⟨obj, hobj, hdenotes.kind, fun spec hspec => ?_⟩
  obtain ⟨-, hgrows, -⟩ := hentered.step (sound_checkEntries (fun h => h) hentered.entries fun _ _ h => h)
  obtain ⟨file, e⟩ := p
  cases e with
  | type spec' x =>
    cases hspec
    cases hdenotes
    exact render_of_declaredType (hentered.types file spec x hp) hgrows
  | _ => cases hspec

/-- The same declarations in another order, in the same or in other files. -/
structure PackageSource.Reordered (source source' : PackageSource) : Prop where
  path : source'.path = source.path
  declared : source'.declared.Perm source.declared

theorem PackageSource.Reordered.names {source' : PackageSource} (h : source.Reordered source') (hnames : source.names.Nodup) :
    source'.names.Nodup :=
  ((h.declared.flatMap_right _).nodup_iff).2 hnames

/-! ## One kind after the other -/

/-- Files with the same imports and the same declarations of each kind, in the same order. -/
structure File.SameByKind (f f' : File) : Prop where
  id : f.id = f'.id
  imports : f.tree.imports = f'.tree.imports
  declared : ∀ k, f.declared.filter (·.kind = k) = f'.declared.filter (·.kind = k)

/-- Parts of a package that are the same file, with the declarations of different kinds mixed in another way. -/
structure SameFileByKind (p p' : CurrentFile × SourceFile) : Prop where
  file : p.1 = p'.1
  declared : ∀ k,
    (p.2.decls.flatMap declarationsOf).filter (·.kind = k) = (p'.2.decls.flatMap declarationsOf).filter (·.kind = k)

theorem SameByKind.of_files {files files' : List (CurrentFile × SourceFile)} (h : List.Forall₂ SameFileByKind files files') :
    SameByKind (declarationsIn files) (declarationsIn files') := by
  intro k
  unfold declarationsOfKind declarationsIn
  induction h with
  | nil => rfl
  | cons hfirst _ ih =>
    obtain ⟨hfile, hdeclared⟩ := hfirst
    rw [List.flatMap_cons, List.flatMap_cons, List.filter_append, List.filter_append, ih, List.filter_map, List.filter_map, hfile]
    exact congrArg (List.map _ · ++ _) (hdeclared k)

/-- Packages that differ at most in the order in which names were entered and recorded. -/
structure SamePackage (r r' : Package × Table) : Prop where
  table : r.2 = r'.2
  scope : ∀ name, r.1.scope.find? name = r'.1.scope.find? name
  facts : r.1.infos.map FileInfo.facts = r'.1.infos.map FileInfo.facts

theorem SamePackage.of_agree {source' : PackageSource} {r r' : (Unit × Notes) × Table} (h : Agree r r') (id : PackageId) :
    SamePackage (source.package id r.1.2, r.2) (source'.package id r'.1.2, r'.2) := by
  have hinfos := congrArg Array.toList h.notes.infos
  rw [Array.toList_map, Array.toList_map] at hinfos
  exact ⟨h.table, h.notes.scope, hinfos⟩

/-- The same files with the declarations of different kinds mixed in another way. -/
structure PackageSource.ReorderedByKind (source source' : PackageSource) : Prop where
  path : source.path = source'.path
  files : List.Forall₂ File.SameByKind source.files source'.files

namespace PackageSource.ReorderedByKind

variable {source' : PackageSource}

theorem declarations (h : source.ReorderedByKind source') (packages : Array Package) (byPath : ImportMap) :
    SameByKind (source.declarations packages byPath) (source'.declarations packages byPath) := by
  obtain ⟨hlength, hget⟩ := List.forall₂_iff_get.1 h.files
  refine .of_files (List.forall₂_iff_get.2 ⟨by simp [currentFiles, hlength], fun i hi hi' => ?_⟩)
  have hsame := hget i (by simpa [currentFiles] using hi) (by simpa [currentFiles] using hi')
  simp only [currentFiles, List.get_eq_getElem, List.getElem_mapIdx] at hsame ⊢
  exact ⟨by rw [hsame.id, hsame.imports], hsame.declared⟩

theorem start (h : source.ReorderedByKind source') : source.start = source'.start := by
  have hmap : source.files.map (fun _ => FileInfo.empty) = source'.files.map fun _ => FileInfo.empty := by
    rw [List.map_const', List.map_const', h.files.length_eq]
  rw [PackageSource.start, hmap]
  rfl

/-- The package becomes the same, except for the order in which names were entered and recorded. -/
theorem samePackage (h : source.ReorderedByKind source') (hstage : Stage t packages) (hnames : source.names.Nodup)
    (byPath : ImportMap) (id : PackageId) :
    SamePackage (source.checked packages byPath id t) (source'.checked packages byPath id t) := by
  obtain ⟨hwf, hpackages⟩ := hstage.wf
  have hnodup : (namesIn (source.declarations packages byPath)).Nodup := source.namesIn_declarations packages byPath ▸ hnames
  have hagree := checkFiles_agree source.open_openPlan hwf (source.context_wf hpackages) source.start_wf
    (source.currentFiles_wf hpackages byPath) (h.declarations packages byPath) hnodup
  have hcontext : source.context packages = source'.context packages := by
    rw [context, h.path]
    rfl
  rw [checked, checked, run_checkPackage, run_checkPackage, ← hcontext, ← h.start]
  exact .of_agree hagree id

end PackageSource.ReorderedByKind

/-! ## Instances of generic types -/

/-- In the list, the first element stands before the second. -/
def Before {α : Type} (l : List α) (a b : α) : Prop := ∃ l₁ l₂ l₃, l = l₁ ++ a :: (l₂ ++ b :: l₃)

theorem before_or_before {α : Type} {l : List α} {a b : α} (ha : a ∈ l) (hb : b ∈ l) (hne : a ≠ b) :
    Before l a b ∨ Before l b a := by
  obtain ⟨l₁, l₂, rfl⟩ := List.append_of_mem ha
  rcases List.mem_append.1 hb with hb | hb
  · obtain ⟨m₁, m₂, rfl⟩ := List.append_of_mem hb
    exact .inr ⟨m₁, m₂, l₂, by simp⟩
  · obtain ⟨m₁, m₂, rfl⟩ := List.append_of_mem (List.mem_of_ne_of_mem (Ne.symm hne) hb)
    exact .inl ⟨l₁, m₁, m₂, rfl⟩

theorem Before.map {α β : Type} {f : α → β} {l : List α} {b b' : β} (h : Before (l.map f) b b') :
    ∃ a a', f a = b ∧ f a' = b' ∧ Before l a a' := by
  obtain ⟨l₁, l₂, l₃, hl⟩ := h
  obtain ⟨m₁, m', rfl, -, hm'⟩ := List.map_eq_append_iff.1 hl
  obtain ⟨a, m, rfl, hb, hm⟩ := List.map_eq_cons_iff.1 hm'
  obtain ⟨m₂, m'', rfl, -, hm''⟩ := List.map_eq_append_iff.1 hm
  obtain ⟨a', m₃, rfl, hb', -⟩ := List.map_eq_cons_iff.1 hm''
  exact ⟨a, a', hb, hb', m₁, m₂, m₃, rfl⟩

theorem isBlank_of_mem_declared {spec : TypeSpec} (h : .type spec ∈ source.declared) : spec.name.isBlank = false := by
  obtain ⟨f, -, h⟩ := List.mem_flatMap.1 h
  obtain ⟨group, -, h⟩ := List.mem_flatMap.1 h
  unfold declarationsOf at h
  split at h
  · obtain ⟨spec', -, hspec⟩ := List.mem_filterMap.1 h
    unfold typeDeclaration? at hspec
    split at hspec
    · cases hspec
    · rename_i hblank
      split at hspec
      · cases hspec
      · cases hspec
        simpa using hblank
  · simp at h
  · simp at h
  · split at h <;> simp at h

theorem exists_type_of_declaration {p : CurrentFile × Entry} {file : CurrentFile} {spec : TypeSpec}
    (h : (p.1, p.2.declaration) = (file, .type spec)) : ∃ x, p = (file, .type spec x) := by
  obtain ⟨file', e⟩ := p
  cases e with
  | type spec' x =>
    cases h
    exact ⟨x, rfl⟩
  | _ => cases h

theorem Entered.find?_type {es : List (CurrentFile × Entry)} {n n₁ : Notes} {t₁ : Table} (h : Entered source packages es n t)
    (hrun : (resolveAliases es).eval (source.context packages) n { t with deferring := true } = (((), n₁), t₁))
    {file : CurrentFile} {spec : TypeSpec} {id : TypeId} (hmem : (file, .type spec id) ∈ es) {name : String}
    (hname : name ∈ namesOf [spec.name]) : n₁.scope.find? name = some (.typeName id) := by
  have h₁ := h.beginDeclarations
  obtain ⟨h₂, -, -⟩ := h₁.step (sound_resolveAliases h₁.entries)
  have hsome := isSome_find?_resolveAliases h₁ h.denotes hmem hname
  rw [hrun] at h₂ hsome
  obtain ⟨obj, hobj⟩ := Option.isSome_iff_exists.1 hsome
  obtain ⟨q, hq, hname', hdenotes⟩ := h₂.notes.denotes name obj hobj
  obtain rfl := eq_of_mem_names h.names hmem hq hname hname'
  exact hobj.trans (congrArg some hdenotes)

section Applies

variable {es l l' : List (CurrentFile × Entry)} {n : Notes} {file gfile : CurrentFile} {spec gspec : TypeSpec}
variable {x gid : TypeId} {g : Ident} {args : List TypeExpr}

theorem Entered.definition?_of_later (h : Entered source packages es n t)
    (hbefore : Before es (file, .type spec x) (gfile, .type gspec gid)) (happlies : file.Applies spec g args)
    (hg : g.name ∈ namesOf [gspec.name]) :
    ∃ params, ((checkEntries es).eval (source.context packages) n t).2.definition? x = some (gid, params) := by
  obtain ⟨l₁, l₂, l₃, hes⟩ := hbefore
  obtain ⟨⟨⟨⟨⟩, n₁⟩, t₁⟩, haliases⟩ : ∃ r, (resolveAliases es).eval (source.context packages) n
    { t with deferring := true } = r := ⟨_, rfl⟩
  obtain ⟨hresolving, hunresolved⟩ := resolvingTypes_of_ready h.toReady (fun h => h) h.entries h.locals h.unresolved haliases
  have hmem : (gfile, .type gspec gid) ∈ l₂ ++ (gfile, .type gspec gid) :: l₃ := by simp
  have hscope := h.find?_type haliases (hes ▸ List.mem_append_right _ (List.mem_cons_of_mem _ hmem)) hg
  obtain ⟨params, hdef⟩ := hresolving.definition?_of_later hunresolved hes (ResolvingTypes.mem_declaredTypes hmem) happlies hscope
  exact ⟨params, (definition?_checkEntries h.toReady (fun h => h) h.entries (fun _ _ h => h) haliases).2 x _ hdef⟩

theorem Entered.definition?_of_earlier (h : Entered source packages es n t)
    (hbefore : Before es (gfile, .type gspec gid) (file, .type spec x)) (happlies : file.Applies spec g args)
    (hg : g.name ∈ namesOf [gspec.name]) (hlength : args.length = (gspec.typeParams.flatMap (·.names)).length)
    (hargs : args ≠ []) :
    ∃ inst params, ((checkEntries es).eval (source.context packages) n t).2.definition? x = some (inst, params) ∧
      ((checkEntries es).eval (source.context packages) n t).2.IsInstance inst gid := by
  obtain ⟨l₁, l₂, l₃, hes⟩ := hbefore
  obtain ⟨⟨⟨⟨⟩, n₁⟩, t₁⟩, haliases⟩ : ∃ r, (resolveAliases es).eval (source.context packages) n
    { t with deferring := true } = r := ⟨_, rfl⟩
  obtain ⟨hresolving, hunresolved⟩ := resolvingTypes_of_ready h.toReady (fun h => h) h.entries h.locals h.unresolved haliases
  have hsplit : es = (l₁ ++ (gfile, .type gspec gid) :: l₂) ++ ([(file, .type spec x)] ++ l₃) := by simp [hes]
  have hmem : (gfile, .type gspec gid) ∈ l₁ ++ (gfile, .type gspec gid) :: l₂ := by simp
  have hscope := h.find?_type haliases (hsplit ▸ List.mem_append_left _ hmem) hg
  obtain ⟨inst, params, hdef, hinst⟩ := hresolving.definition?_of_earlier hunresolved hsplit hmem happlies hscope hlength hargs
  obtain ⟨hgrows, hkeep⟩ := definition?_checkEntries h.toReady (fun h => h) h.entries (fun _ _ h => h) haliases
  exact ⟨inst, params, hkeep x _ hdef, hinst.of_grows hgrows⟩

theorem Entered.not_isInstance_self (h : Entered source packages es n t) (hmem : (gfile, .type gspec gid) ∈ es) :
    ¬ ((checkEntries es).eval (source.context packages) n t).2.IsInstance gid gid := by
  rintro ⟨d', hget', horigin'⟩
  obtain ⟨-, hgrows, -⟩ := h.step (sound_checkEntries (fun h => h) h.entries fun _ _ h => h)
  obtain ⟨d, hget, -, -, horigin, -⟩ := hgrows.named (h.types gfile gspec gid hmem)
  rw [hget] at hget'
  cases hget'
  cases horigin.symm.trans horigin'

theorem Entered.before (h : Entered source packages es n t) {ds : List (CurrentFile × Declaration)}
    (hds : es.map (fun p => (p.1, p.2.declaration)) = ds) {p q : CurrentFile × Entry} (hp : p ∈ es) (hq : q ∈ es)
    {pname qname : String} (hpname : pname ∈ p.2.declaration.names) (hqname : qname ∈ q.2.declaration.names)
    (hbefore : Before ds (p.1, p.2.declaration) (q.1, q.2.declaration)) : Before es p q := by
  rw [← hds] at hbefore
  obtain ⟨p', q', hp', hq', hbefore⟩ := hbefore.map
  have hmem : p' ∈ es ∧ q' ∈ es := by
    obtain ⟨l₁, l₂, l₃, hes⟩ := hbefore
    simp [hes]
  obtain rfl := eq_of_mem_names h.names hp hmem.1 hpname ((Prod.mk.inj hp').2 ▸ hpname)
  obtain rfl := eq_of_mem_names h.names hq hmem.2 hqname ((Prod.mk.inj hq').2 ▸ hqname)
  exact hbefore

theorem Entered.exists_type (h : Entered source packages es n t) {byPath : ImportMap}
    (hds : es.map (fun p => (p.1, p.2.declaration)) = source.declarations packages byPath)
    (hmem : (file, .type spec) ∈ source.declarations packages byPath) :
    spec.name.name ∈ namesOf [spec.name] ∧ ∃ x, (file, .type spec x) ∈ es ∧
      ((checkEntries es).eval (source.context packages) n t).1.2.scope.find? spec.name.name = some (.typeName x) := by
  have hdeclared : .type spec ∈ source.declared := by
    rw [← source.map_declarations packages byPath]
    exact List.mem_map.2 ⟨_, hmem, rfl⟩
  have hname := name_mem_namesOf (List.mem_singleton.2 rfl) (isBlank_of_mem_declared hdeclared)
  rw [← hds] at hmem
  obtain ⟨p, hp, hdeclaration⟩ := List.mem_map.1 hmem
  obtain ⟨x, rfl⟩ := exists_type_of_declaration hdeclaration
  obtain ⟨obj, hobj, hdenotes⟩ := exists_object_of_mem h.toUnderway h.names h.denotes hp hname
  exact ⟨hname, x, hp, hobj.trans (congrArg some hdenotes)⟩

end Applies

/-- Among the declarations of a package: a type that is defined as an instance of a generic type, as in `type X G[int]`. The
generic type has one type parameter for each argument. -/
structure Application (ds : List (CurrentFile × Declaration)) where
  file : CurrentFile
  spec : TypeSpec
  genericFile : CurrentFile
  generic : TypeSpec
  /-- The name of the generic type, where it is used. -/
  name : Ident
  args : List TypeExpr
  declared : (file, .type spec) ∈ ds
  generic_declared : (genericFile, .type generic) ∈ ds
  applies : file.Applies spec name args
  generic_name : generic.name.name = name.name
  name_ne : spec.name.name ≠ name.name
  length_args : args.length = (generic.typeParams.flatMap (·.names)).length
  args_ne_nil : args ≠ []

/-- A type that is defined as an instance of a generic type of the package is such an instance if and only if the generic
type is declared before it, and is the generic type itself if and only if that is declared after it. -/
theorem Application.exists_definition (hstage : Stage t packages) (hnames : source.names.Nodup) (byPath : ImportMap)
    (id : PackageId) (a : Application (source.declarations packages byPath)) :
    ∃ x g rhs params,
      (source.checked packages byPath id t).1.scope.find? a.spec.name.name = some (.typeName x) ∧
      (source.checked packages byPath id t).1.scope.find? a.generic.name.name = some (.typeName g) ∧
      (source.checked packages byPath id t).2.definition? x = some (rhs, params) ∧
      ((source.checked packages byPath id t).2.IsInstance rhs g ↔
        Before (source.declarations packages byPath) (a.genericFile, .type a.generic) (a.file, .type a.spec)) ∧
      (rhs = g ↔
        Before (source.declarations packages byPath) (a.file, .type a.spec) (a.genericFile, .type a.generic)) := by
  obtain ⟨es, n, t', h, hds, hrun⟩ := exists_entered hstage hnames byPath
  obtain ⟨hname, x, hx, hfind⟩ := h.exists_type hds a.declared
  obtain ⟨hgname, g, hg, hgfind⟩ := h.exists_type hds a.generic_declared
  have huse : a.name.name ∈ namesOf [a.generic.name] := a.generic_name ▸ hgname
  rw [hrun]
  have hearlier := fun hbefore => h.definition?_of_earlier (h.before hds hg hx hgname hname hbefore) a.applies huse
    a.length_args a.args_ne_nil
  have hlater := fun hbefore => h.definition?_of_later (h.before hds hx hg hname hgname hbefore) a.applies huse
  have hself := h.not_isInstance_self hg
  have hother : (a.genericFile, Declaration.type a.generic) ≠ (a.file, .type a.spec) := by
    intro heq
    exact a.name_ne (Declaration.type.inj (Prod.mk.inj heq).2 ▸ a.generic_name)
  rcases before_or_before a.generic_declared a.declared hother with hbefore | hbefore
  · obtain ⟨inst, params, hdef, hinst⟩ := hearlier hbefore
    refine ⟨x, g, inst, params, hfind, hgfind, hdef, ⟨fun _ => hbefore, fun _ => hinst⟩, fun heq => ?_, fun hafter => ?_⟩
    · exact absurd (heq ▸ hinst) hself
    · obtain ⟨params', hdef'⟩ := hlater hafter
      exact (Prod.mk.inj (Option.some.inj (hdef.symm.trans hdef'))).1
  · obtain ⟨params, hdef⟩ := hlater hbefore
    refine ⟨x, g, g, params, hfind, hgfind, hdef, ⟨fun hinst => absurd hinst hself, fun hafter => ?_⟩,
      fun _ => hbefore, fun _ => rfl⟩
    obtain ⟨inst, params', hdef', hinst⟩ := hearlier hafter
    obtain rfl := (Prod.mk.inj (Option.some.inj (hdef.symm.trans hdef'))).1
    exact hinst

/-! ## The order of declarations -/

/-- What the order of the declarations of a package with pairwise different names may change.

- Whatever the order, a declared name denotes an object of the same kind, and a declared type has the same text.
- If only declarations of different kinds are exchanged, nothing changes: types, package-level names and the facts about
  the files are the same.
- A type that is defined as an instance of a generic type of the package is such an instance if and only if the generic
  type is declared before it. If it is declared after it, the arguments are lost: the type is the generic type itself. -/
theorem order_of_declarations (hstage : Stage t packages) (byPath : ImportMap) (id : PackageId) (hnames : source.names.Nodup) :
    (∀ source', source.Reordered source' → ∀ d ∈ source.declared, ∀ name ∈ d.names, ∃ obj obj',
      (source.checked packages byPath id t).1.scope.find? name = some obj ∧
      (source'.checked packages byPath id t).1.scope.find? name = some obj' ∧ obj.kind = obj'.kind ∧
      (d.kind = .type →
        (source.checked packages byPath id t).2.render (obj.type (source.checked packages byPath id t).2) =
          (source'.checked packages byPath id t).2.render (obj'.type (source'.checked packages byPath id t).2))) ∧
    (∀ source', source.ReorderedByKind source' →
      SamePackage (source.checked packages byPath id t) (source'.checked packages byPath id t)) ∧
    ∀ a : Application (source.declarations packages byPath), ∃ x g rhs params,
      (source.checked packages byPath id t).1.scope.find? a.spec.name.name = some (.typeName x) ∧
      (source.checked packages byPath id t).1.scope.find? a.generic.name.name = some (.typeName g) ∧
      (source.checked packages byPath id t).2.definition? x = some (rhs, params) ∧
      ((source.checked packages byPath id t).2.IsInstance rhs g ↔
        Before (source.declarations packages byPath) (a.genericFile, .type a.generic) (a.file, .type a.spec)) ∧
      (rhs = g ↔
        Before (source.declarations packages byPath) (a.file, .type a.spec) (a.genericFile, .type a.generic)) := by
  refine ⟨fun source' hreordered d hd name hname => ?_, fun source' h => h.samePackage hstage hnames byPath id,
    Application.exists_definition hstage hnames byPath id⟩
  obtain ⟨obj, hobj, hkind, htext⟩ := exists_object_of_declared hstage hnames byPath id hd hname
  obtain ⟨obj', hobj', hkind', htext'⟩ := exists_object_of_declared hstage (hreordered.names hnames) byPath id
    (hreordered.declared.mem_iff.2 hd) hname
  refine ⟨obj, obj', hobj, hobj', hkind.trans hkind'.symm, fun htype => ?_⟩
  cases d with
  | type spec => rw [htext spec rfl, htext' spec rfl, hreordered.path]
  | _ => cases htype

/-- A package of one file with some type declarations. -/
def PackageSource.ofTypes (specs : List TypeSpec) : PackageSource where
  path := "example.com/app"
  name := "app"
  dir := none
  files := [⟨0, "a.go", "a.go", { package := ⟨"app", ⟨1, 9⟩⟩, imports := [], decls := [.decl (.type specs)] }⟩]

/-- The declaration `type X G[int]`. -/
def intInstance : TypeSpec where
  name := ⟨"X", ⟨3, 6⟩⟩
  typeParams := []
  isAlias := false
  type := .generic (.name ⟨"G", ⟨3, 8⟩⟩) [.name ⟨"int", ⟨3, 10⟩⟩]

/-- The declaration `type G[T any] struct{ v T }`. -/
def genericStruct : TypeSpec where
  name := ⟨"G", ⟨5, 6⟩⟩
  typeParams := [⟨[⟨"T", ⟨5, 8⟩⟩], .name ⟨"any", ⟨5, 10⟩⟩⟩]
  isAlias := false
  type := .struct [⟨[⟨"v", ⟨5, 22⟩⟩], .name ⟨"T", ⟨5, 24⟩⟩, false⟩]

/-- Both declarations in one package. -/
def intApplication {specs : List TypeSpec} (hx : intInstance ∈ specs) (hg : genericStruct ∈ specs) :
    Application ((PackageSource.ofTypes specs).declarations #[] []) where
  file := ⟨0, 0, .empty⟩
  spec := intInstance
  genericFile := ⟨0, 0, .empty⟩
  generic := genericStruct
  name := ⟨"G", ⟨3, 8⟩⟩
  args := [.name ⟨"int", ⟨3, 10⟩⟩]
  declared := List.mem_flatMap.2 ⟨_, List.mem_singleton.2 rfl, List.mem_map.2 ⟨_, by
    simpa [declarationsOf] using ⟨intInstance, hx, rfl⟩, rfl⟩⟩
  generic_declared := List.mem_flatMap.2 ⟨_, List.mem_singleton.2 rfl, List.mem_map.2 ⟨_, by
    simpa [declarationsOf] using ⟨genericStruct, hg, rfl⟩, rfl⟩⟩
  applies := ⟨rfl, by decide, rfl⟩
  generic_name := rfl
  name_ne := by decide
  length_args := rfl
  args_ne_nil := by decide

/-- In one order the arguments are lost, in the other they are not. -/
theorem instance_lost_or_kept :
    (PackageSource.ofTypes [intInstance, genericStruct]).names.Nodup ∧
    (PackageSource.ofTypes [intInstance, genericStruct]).Reordered (.ofTypes [genericStruct, intInstance]) ∧
    (∃ x g params,
      ((PackageSource.ofTypes [intInstance, genericStruct]).checked #[] [] ⟨0⟩ .predeclared).1.scope.find? "X" =
        some (.typeName x) ∧
      ((PackageSource.ofTypes [intInstance, genericStruct]).checked #[] [] ⟨0⟩ .predeclared).1.scope.find? "G" =
        some (.typeName g) ∧
      ((PackageSource.ofTypes [intInstance, genericStruct]).checked #[] [] ⟨0⟩ .predeclared).2.definition? x =
        some (g, params)) ∧
    ∃ x g rhs params,
      ((PackageSource.ofTypes [genericStruct, intInstance]).checked #[] [] ⟨0⟩ .predeclared).1.scope.find? "X" =
        some (.typeName x) ∧
      ((PackageSource.ofTypes [genericStruct, intInstance]).checked #[] [] ⟨0⟩ .predeclared).1.scope.find? "G" =
        some (.typeName g) ∧
      ((PackageSource.ofTypes [genericStruct, intInstance]).checked #[] [] ⟨0⟩ .predeclared).2.definition? x =
        some (rhs, params) ∧
      ((PackageSource.ofTypes [genericStruct, intInstance]).checked #[] [] ⟨0⟩ .predeclared).2.IsInstance rhs g := by
  have hnames : (PackageSource.ofTypes [intInstance, genericStruct]).names.Nodup := by decide
  have hnames' : (PackageSource.ofTypes [genericStruct, intInstance]).names.Nodup := by decide
  refine ⟨hnames, ⟨rfl, .swap _ _ _⟩, ?_, ?_⟩
  · obtain ⟨x, g, rhs, params, hx, hg, hdef, -, hlost⟩ := (order_of_declarations .start [] ⟨0⟩ hnames).2.2
      (intApplication (by simp) (by simp))
    obtain rfl := hlost.2 ⟨[], [], [], rfl⟩
    exact ⟨x, rhs, params, hx, hg, hdef⟩
  · obtain ⟨x, g, rhs, params, hx, hg, hdef, hkept, -⟩ := (order_of_declarations .start [] ⟨0⟩ hnames').2.2
      (intApplication (by simp) (by simp))
    exact ⟨x, g, rhs, params, hx, hg, hdef, hkept.2 ⟨[], [], [], rfl⟩⟩

end UnusedMethods.Typing
