import Mathlib.Data.List.Basic
import UnusedMethods.Filter
import UnusedMethods.Proofs.Heads

/-!
# Packages without some bodies

In the files that a filter leaves out, the bodies of functions and methods can be taken away. The check of the heads does
not notice: it does the same, and it leaves the same bodies, without those that have been taken away. So two packages that
differ only in such bodies are in the same state when their bodies come to be checked.
-/

namespace UnusedMethods

/-! ## Taking bodies away -/

namespace Syntax

/-- The function without its body. -/
def FuncDecl.withoutBody (f : FuncDecl) : FuncDecl := { f with body := none }

/-- The declaration, without a body if it is a function. -/
def TopDecl.withoutBody : TopDecl → TopDecl
  | .func f => .func f.withoutBody
  | d => d

/-- The file without the bodies of its functions and methods. -/
def SourceFile.withoutBodies (file : SourceFile) : SourceFile :=
  { file with decls := file.decls.map TopDecl.withoutBody }

end Syntax

namespace Typing

open Syntax UnusedMethods.Types

/-- The file without the bodies of its functions and methods. -/
def File.withoutBodies (file : File) : File := { file with tree := file.tree.withoutBodies }

namespace PackageSource

/-- The package without the bodies of functions and methods in files that a filter leaves out. -/
def withoutBodies (source : PackageSource) (filter : PathFilter) : PackageSource :=
  { source with files := source.files.map fun f => if filter.ignores f.relPath then f.withoutBodies else f }

/-- Whether the filter leaves out the file with this index. -/
def ignored (source : PackageSource) (filter : PathFilter) (index : Nat) : Bool :=
  source.files[index]?.any fun f => filter.ignores f.relPath

end PackageSource

/-- The declaration, without a body if it is a function or method. -/
def Declaration.withoutBody : Declaration → Declaration
  | .func f => .func f.withoutBody
  | .method f recv => .method f.withoutBody recv
  | d => d

/-- The declaration that has been entered, without a body if it is a function or method. -/
def Entry.withoutBody : Entry → Entry
  | .func f id => .func f.withoutBody id
  | .method f recv => .method f.withoutBody recv
  | e => e

/-- The method without its body. -/
def AttachedMethod.withoutBody (m : AttachedMethod) : AttachedMethod := { m with decl := m.decl.withoutBody }

/-- The function or method without its body. -/
def Body.withoutBody : Body → Body
  | .func f id => .func f.withoutBody id
  | .method m => .method m.withoutBody

theorem Body.check_withoutBody (b : Body) : b.withoutBody.check = pure () := by
  cases b <;> rfl

/-- A piece of a file, from which the bodies are taken away if the file is one of the hidden ones. -/
def strip {α : Type} (hidden : Nat → Bool) (bare : α → α) (p : CurrentFile × α) : CurrentFile × α :=
  (p.1, if hidden p.1.index then bare p.2 else p.2)

/-! ## The heads -/

section Strip

variable {hidden : Nat → Bool}

/-- A piece loses its bodies, or it stays as it is. -/
theorem strip_eq_or {α : Type} (hidden : Nat → Bool) (bare : α → α) (p : CurrentFile × α) :
    strip hidden bare p = (p.1, bare p.2) ∨ strip hidden bare p = p := by
  unfold strip
  split
  · exact .inl rfl
  · exact .inr rfl

/-- A step that does not look at bodies does the same without them. -/
theorem forEach_strip {α : Type} {bare : α → α} {f : α → Checking Unit} (hf : ∀ a, f (bare a) = f a)
    (items : List (CurrentFile × α)) : Checking.forEach (items.map (strip hidden bare)) f = Checking.forEach items f := by
  induction items with
  | nil => rfl
  | cons p items ih =>
    rw [List.map_cons, forEach_cons, forEach_cons, ih]
    rcases strip_eq_or hidden bare p with hstrip | hstrip <;> rw [hstrip]
    rw [hf]

theorem declarationsOf_withoutBody (d : TopDecl) :
    declarationsOf d.withoutBody = (declarationsOf d).map Declaration.withoutBody := by
  cases d with
  | func f =>
    obtain ⟨name, recv, typeParams, sig, body⟩ := f
    cases recv <;> rfl
  | decl d =>
    cases d with
    | type specs =>
      show specs.filterMap typeDeclaration? = (specs.filterMap typeDeclaration?).map Declaration.withoutBody
      rw [List.map_filterMap]
      refine List.filterMap_congr fun spec _ => ?_
      unfold typeDeclaration?
      split
      · rfl
      · split <;> rfl
    | var specs =>
      show specs.map Declaration.var = (specs.map Declaration.var).map Declaration.withoutBody
      rw [List.map_map]
      rfl
    | const specs => rfl

theorem declarationsIn_strip (files : List (CurrentFile × SourceFile)) :
    declarationsIn (files.map (strip hidden SourceFile.withoutBodies)) =
      (declarationsIn files).map (strip hidden Declaration.withoutBody) := by
  unfold declarationsIn
  rw [List.flatMap_map, List.map_flatMap]
  refine List.flatMap_congr fun p _ => ?_
  obtain ⟨file, tree⟩ := p
  dsimp only [strip]
  rw [List.map_map]
  split
  · rename_i hfile
    show ((tree.decls.map TopDecl.withoutBody).flatMap declarationsOf).map (file, ·) = _
    rw [List.flatMap_map, List.flatMap_congr fun d _ => declarationsOf_withoutBody d, ← List.map_flatMap, List.map_map]
    refine List.map_congr_left fun d _ => ?_
    simp [strip, hfile]
  · rename_i hfile
    refine List.map_congr_left fun d _ => ?_
    simp [strip, hfile]

theorem enter_withoutBody (d : Declaration) : enter d.withoutBody = Entry.withoutBody <$> enter d := by
  cases d <;> simp [enter, Declaration.withoutBody, Entry.withoutBody, enterFunc, FuncDecl.withoutBody]

theorem enterAll_cons (file : CurrentFile) (d : Declaration) (ds : List (CurrentFile × Declaration)) :
    enterAll ((file, d) :: ds) = (do
      let e ← Checking.inFile file (enter d)
      let es ← enterAll ds
      return (file, e) :: es) := by
  simp only [enterAll, List.mapM_cons, bind_assoc, pure_bind]

theorem inFile_map {α β : Type} (file : CurrentFile) (g : α → β) (x : Checking α) :
    Checking.inFile file (g <$> x) = g <$> Checking.inFile file x := rfl

theorem enterAll_strip (ds : List (CurrentFile × Declaration)) :
    enterAll (ds.map (strip hidden Declaration.withoutBody)) = List.map (strip hidden Entry.withoutBody) <$> enterAll ds := by
  induction ds with
  | nil => rfl
  | cons p ds ih =>
    obtain ⟨file, d⟩ := p
    have hstrip : strip hidden Declaration.withoutBody (file, d) = (file, if hidden file.index then d.withoutBody else d) := rfl
    rw [List.map_cons, hstrip, enterAll_cons, enterAll_cons, ih]
    cases hfile : hidden file.index with
    | true => simp [enter_withoutBody, inFile_map, strip, hfile]
    | false => simp [strip, hfile]

theorem declaredTypes_strip (es : List (CurrentFile × Entry)) :
    declaredTypes (es.map (strip hidden Entry.withoutBody)) = declaredTypes es := by
  unfold declaredTypes
  rw [List.filterMap_map]
  refine List.filterMap_congr fun p _ => ?_
  obtain ⟨file, e⟩ := p
  rw [Function.comp_apply]
  rcases strip_eq_or hidden Entry.withoutBody (file, e) with hstrip | hstrip <;> rw [hstrip]
  cases e <;> rfl

theorem attachMethod_withoutBody (f : FuncDecl) (recv : Field) :
    attachMethod f.withoutBody recv = List.map AttachedMethod.withoutBody <$> attachMethod f recv := by
  unfold attachMethod
  rw [map_bind]
  refine bind_congr fun o => ?_
  cases o with
  | none => rfl
  | some r =>
    simp only [map_bind, FuncDecl.withoutBody]
    refine bind_congr fun sig => bind_congr fun context => bind_congr fun id => ?_
    by_cases hblank : f.name.isBlank = true <;> simp [hblank, AttachedMethod.withoutBody, FuncDecl.withoutBody]

/-- The methods that an entry declares. -/
def attachEntry : Entry → Checking (List AttachedMethod)
  | .method f recv => attachMethod f recv
  | _ => pure []

theorem attachEntry_withoutBody (e : Entry) :
    attachEntry e.withoutBody = List.map AttachedMethod.withoutBody <$> attachEntry e := by
  cases e with
  | method f recv => exact attachMethod_withoutBody f recv
  | _ => rfl

theorem attachMethods_cons (file : CurrentFile) (e : Entry) (es : List (CurrentFile × Entry)) :
    attachMethods ((file, e) :: es) = (do
      let ms ← Checking.inFile file (attachEntry e)
      let rest ← attachMethods es
      return ms.map (file, ·) ++ rest) := by
  unfold attachMethods
  rw [List.mapM_cons]
  cases e <;> simp [attachEntry] <;> rfl

theorem attachMethods_strip (es : List (CurrentFile × Entry)) :
    attachMethods (es.map (strip hidden Entry.withoutBody)) =
      List.map (strip hidden AttachedMethod.withoutBody) <$> attachMethods es := by
  induction es with
  | nil => rfl
  | cons p es ih =>
    obtain ⟨file, e⟩ := p
    have hstrip : strip hidden Entry.withoutBody (file, e) = (file, if hidden file.index then e.withoutBody else e) := rfl
    rw [List.map_cons, hstrip, attachMethods_cons, attachMethods_cons, ih]
    cases hfile : hidden file.index with
    | true => simp [attachEntry_withoutBody, inFile_map, strip, hfile, Function.comp_def]
    | false => simp [strip, hfile, Function.comp_def]

theorem bodiesOf_strip (es : List (CurrentFile × Entry)) (methods : List (CurrentFile × AttachedMethod)) :
    bodiesOf (es.map (strip hidden Entry.withoutBody)) (methods.map (strip hidden AttachedMethod.withoutBody)) =
      (bodiesOf es methods).map (strip hidden Body.withoutBody) := by
  unfold bodiesOf
  rw [List.map_append, List.filterMap_map, List.map_filterMap, List.map_map, List.map_map]
  congr 1
  · refine List.filterMap_congr fun p _ => ?_
    obtain ⟨file, e⟩ := p
    cases hfile : hidden file.index <;> cases e <;>
      simp [strip, hfile, Entry.body?, Entry.withoutBody, Body.withoutBody]
  · refine List.map_congr_left fun p _ => ?_
    obtain ⟨file, m⟩ := p
    cases hfile : hidden file.index <;> simp [strip, hfile, Body.withoutBody]

theorem checkHeads_strip (es : List (CurrentFile × Entry)) :
    checkHeads (es.map (strip hidden Entry.withoutBody)) =
      List.map (strip hidden Body.withoutBody) <$> checkHeads es := by
  unfold checkHeads
  rw [attachMethods_strip, declaredTypes_strip]
  simp only [map_bind, bind_map_left, map_pure, bodiesOf_strip]
  refine bind_congr fun methods => ?_
  iterate 5 rw [forEach_strip fun e => by cases e <;> rfl]

theorem declareFiles_strip (files : List (CurrentFile × SourceFile)) :
    declareFiles (files.map (strip hidden SourceFile.withoutBodies)) =
      List.map (strip hidden Body.withoutBody) <$> declareFiles files := by
  unfold declareFiles
  rw [declarationsIn_strip, enterAll_strip, bind_map_left, map_bind]
  refine bind_congr fun es => ?_
  rw [map_bind]
  refine bind_congr fun _ => ?_
  rw [resolveAliases, forEach_strip fun e => by cases e <;> rfl, resolveDeclaredTypes,
    forEach_strip fun e => by cases e <;> rfl, checkHeads_strip, map_bind, map_bind]
  rfl

end Strip

/-! ## The whole package -/

namespace PackageSource

variable (source : PackageSource) (filter : PathFilter)

theorem currentFiles_withoutBodies (packages : Array Package) (byPath : ImportMap) :
    (source.withoutBodies filter).currentFiles packages byPath =
      (source.currentFiles packages byPath).map (strip (source.ignored filter) SourceFile.withoutBodies) := by
  refine List.ext_getElem? fun i => ?_
  unfold currentFiles withoutBodies
  rw [List.getElem?_mapIdx, List.getElem?_map, List.getElem?_map, List.getElem?_mapIdx]
  cases hfile : source.files[i]? with
  | none => rfl
  | some f =>
    by_cases hignores : filter.ignores f.relPath = true <;>
      simp [strip, ignored, hfile, hignores, File.withoutBodies, SourceFile.withoutBodies]

theorem start_withoutBodies : (source.withoutBodies filter).start = source.start := by
  unfold start withoutBodies
  rw [List.map_map]
  rfl

end PackageSource

end Typing

end UnusedMethods
