import UnusedMethods.Typing.Check

/-!
# Declarations first, bodies last

The bodies of functions and methods are the last that is checked in a package. All that comes before is the check of the
heads: it tells what is declared, and it leaves a list of bodies, which are then checked one after the other.
-/

namespace UnusedMethods.Typing

open Syntax UnusedMethods.Types

theorem forEach_cons {α : Type} (a : CurrentFile × α) (as : List (CurrentFile × α)) (f : α → Checking Unit) :
    Checking.forEach (a :: as) f = Checking.inFile a.1 (f a.2) >>= fun _ => Checking.forEach as f := rfl

theorem forEach_append {α : Type} (as bs : List (CurrentFile × α)) (f : α → Checking Unit) :
    Checking.forEach (as ++ bs) f = Checking.forEach as f >>= fun _ => Checking.forEach bs f := by
  induction as with
  | nil => rfl
  | cons a as ih => rw [List.cons_append, forEach_cons, forEach_cons, ih, bind_assoc]

/-- A function or method that has been declared, and whose body waits to be checked. -/
inductive Body where
  | func (f : FuncDecl) (id : FuncId)
  | method (m : AttachedMethod)

namespace Body

/-- The function or method as it is written. -/
def decl : Body → FuncDecl
  | .func f _ => f
  | .method m => m.decl

/-- Checks the body. -/
def check : Body → Checking Unit
  | .func f id => checkFunc f id
  | .method m => checkMethod m

end Body

/-- The body of a function. That of a method waits until the method has been attached. -/
def Entry.body? : Entry → Option Body
  | .func f id => some (.func f id)
  | _ => none

/-- All bodies: first those of functions, then those of methods. -/
def bodiesOf (entries : List (CurrentFile × Entry)) (methods : List (CurrentFile × AttachedMethod)) :
    List (CurrentFile × Body) :=
  (entries.filterMap fun p => p.2.body?.map (p.1, ·)) ++ methods.map fun p => (p.1, .method p.2)

/-- Checks what belongs to types and functions, and values, up to the bodies. -/
def checkHeads (entries : List (CurrentFile × Entry)) : Checking (List (CurrentFile × Body)) := do
  let methods ← attachMethods entries
  Checking.forEach entries fun
    | .func f id => resolveFunc f id
    | _ => pure ()
  let order ← orderInterfaces (declaredTypes entries)
  Build.endDeclarations order
  Checking.forEach entries fun
    | .consts specs => checkConstSpecs .package none specs
    | _ => pure ()
  Checking.forEach entries fun
    | .var spec => declareTyped spec
    | _ => pure ()
  Checking.forEach entries fun
    | .var spec => if spec.type.isNone then checkVarSpec .package spec else pure ()
    | _ => pure ()
  Checking.forEach entries fun
    | .var spec => checkTypedValues spec
    | _ => pure ()
  return bodiesOf entries methods

/-- The part of it that comes while declarations are being read: methods, signatures, and the order of interfaces. -/
def resolveMembers (entries : List (CurrentFile × Entry)) :
    Checking (List (CurrentFile × AttachedMethod) × List TypeId) := do
  let methods ← attachMethods entries
  Checking.forEach entries fun
    | .func f id => resolveFunc f id
    | _ => pure ()
  let order ← orderInterfaces (declaredTypes entries)
  return (methods, order)

/-- Checks the constants and variables of a package. -/
def checkValueDecls (entries : List (CurrentFile × Entry)) : Checking Unit := do
  Checking.forEach entries fun
    | .consts specs => checkConstSpecs .package none specs
    | _ => pure ()
  Checking.forEach entries fun
    | .var spec => declareTyped spec
    | _ => pure ()
  Checking.forEach entries fun
    | .var spec => if spec.type.isNone then checkVarSpec .package spec else pure ()
    | _ => pure ()
  Checking.forEach entries fun
    | .var spec => checkTypedValues spec
    | _ => pure ()

/-- Checks the files of a package up to the bodies. -/
def declareFiles (files : List (CurrentFile × SourceFile)) : Checking (List (CurrentFile × Body)) := do
  let entries ← enterAll (declarationsIn files)
  Build.beginDeclarations
  resolveAliases entries
  resolveDeclaredTypes entries
  checkHeads entries

theorem forEach_filterMap_body? (entries : List (CurrentFile × Entry)) :
    Checking.forEach (entries.filterMap fun p => p.2.body?.map (p.1, ·)) Body.check =
      Checking.forEach entries fun
        | .func f id => checkFunc f id
        | _ => pure () := by
  induction entries with
  | nil => rfl
  | cons p entries ih =>
    obtain ⟨file, e⟩ := p
    cases e with
    | func f id =>
      have hcons : ((file, Entry.func f id) :: entries).filterMap (fun p => p.2.body?.map (p.1, ·)) =
          (file, .func f id) :: entries.filterMap fun p => p.2.body?.map (p.1, ·) := rfl
      rw [hcons, forEach_cons, forEach_cons, ih]
      rfl
    | _ =>
      rw [List.filterMap_cons_none rfl, forEach_cons, ih]
      rfl

theorem forEach_map_method (methods : List (CurrentFile × AttachedMethod)) :
    Checking.forEach (methods.map fun p => (p.1, Body.method p.2)) Body.check = Checking.forEach methods checkMethod := by
  induction methods with
  | nil => rfl
  | cons p methods ih =>
    rw [List.map_cons, forEach_cons, forEach_cons, ih]
    rfl

theorem forEach_bodiesOf (entries : List (CurrentFile × Entry)) (methods : List (CurrentFile × AttachedMethod)) :
    Checking.forEach (bodiesOf entries methods) Body.check = (do
      Checking.forEach entries fun
        | .func f id => checkFunc f id
        | _ => pure ()
      Checking.forEach methods checkMethod) := by
  rw [bodiesOf, forEach_append, forEach_filterMap_body?, forEach_map_method]

theorem checkMembers_eq (entries : List (CurrentFile × Entry)) :
    checkMembers entries = checkHeads entries >>= fun bodies => Checking.forEach bodies Body.check := by
  -- what is left are the same cases, of which each definition has its own
  simp only [checkMembers, checkHeads, bind_assoc, pure_bind, forEach_bodiesOf] <;> rfl

theorem checkHeads_eq (entries : List (CurrentFile × Entry)) :
    checkHeads entries = (do
      let r ← resolveMembers entries
      Build.endDeclarations r.2
      checkValueDecls entries
      return bodiesOf entries r.1) := by
  simp only [checkHeads, resolveMembers, checkValueDecls, bind_assoc, pure_bind] <;> rfl

theorem checkFiles_eq (files : List (CurrentFile × SourceFile)) :
    checkFiles files = declareFiles files >>= fun bodies => Checking.forEach bodies Body.check := by
  simp only [checkFiles, checkEntries, declareFiles, bind_assoc, checkMembers_eq]

end UnusedMethods.Typing
