import UnusedMethods.Typing.Embedding
import UnusedMethods.Typing.Expr

/-!
# Checking a package

All declarations are collected first, so that their order does not matter. Then types are resolved,
methods are attached to them, interfaces are completed, and last the values of package-level
variables and the bodies of functions are checked.
-/

namespace UnusedMethods.Typing

open Syntax UnusedMethods.Types

/-- A package-level declaration, taken out of its group. The constants of a group stay together, as one may
repeat another. -/
inductive Declaration where
  | alias (spec : TypeSpec)
  | type (spec : TypeSpec)
  | func (f : FuncDecl)
  | method (f : FuncDecl) (recv : Field)
  | var (spec : ValueSpec)
  | consts (specs : List ValueSpec)

/-- A package-level declaration, with the type or function that has been entered for it. -/
inductive Entry where
  | alias (spec : TypeSpec)
  | type (spec : TypeSpec) (id : TypeId)
  | func (f : FuncDecl) (id : FuncId)
  | method (f : FuncDecl) (recv : Field)
  | var (spec : ValueSpec)
  | consts (specs : List ValueSpec)

structure AttachedMethod where
  decl : FuncDecl
  recv : Field
  id : FuncId
  owner : TypeId

namespace Checking

def inFile {α : Type} (file : CurrentFile) (x : Checking α) : Checking α := withReader (fun c => { c with file }) x

/-- Goes through pieces of several files, each in its file. -/
def forEach {α : Type} (items : List (CurrentFile × α)) (f : α → Checking Unit) : Checking Unit :=
  items.forM fun (file, a) => inFile file (f a)

end Checking

/-! ### Collecting declarations -/

/-- What a type spec declares. A blank name declares nothing. -/
def typeDeclaration? (spec : TypeSpec) : Option Declaration :=
  if spec.name.isBlank then none
  else if spec.isAlias then some (.alias spec)
  else some (.type spec)

def declarationsOf : TopDecl → List Declaration
  | .decl (.type specs) => specs.filterMap typeDeclaration?
  | .decl (.var specs) => specs.map .var
  | .decl (.const specs) => [.consts specs]
  | .func f =>
    match f.recv with
    | some recv => [.method f recv]
    | none => [.func f]

def declarationsIn (files : List (CurrentFile × SourceFile)) : List (CurrentFile × Declaration) :=
  files.flatMap fun (file, tree) => (tree.decls.flatMap declarationsOf).map (file, ·)

/-- Enters a function. The function `init` cannot be referred to. -/
def enterFunc (f : FuncDecl) : Checking FuncId := do
  let context ← read
  let id ← Build.newFunc
    { Func.ofName f.name.name .func with
      package := some context.path, pos := some ⟨context.file.id, f.name.pos⟩ }
  if f.name.name != "init" && !f.name.isBlank then
    Checking.definePackageLevel f.name.name (.func id)
  Checking.noteDef f.name.pos (.func id)
  return id

/-- Enters the names of variables or constants, whose types are not known yet. -/
def enterNames (obj : Object) (spec : ValueSpec) : Checking Unit :=
  spec.names.forM fun name => do
    if !name.isBlank then
      Checking.definePackageLevel name.name obj

/-- Enters what is declared. Aliases and methods wait until there are types. -/
def enter : Declaration → Checking Entry
  | .alias spec => return .alias spec
  | .type spec => do
    let id ← Build.newNamed spec.name.name (some (← read).path)
    Checking.declare .package spec.name (.typeName id)
    return .type spec id
  | .func f => return .func f (← enterFunc f)
  | .method f recv => return .method f recv
  | .var spec => do
    enterNames (.var .invalid) spec
    return .var spec
  | .consts specs => do
    specs.forM (enterNames (.const .invalid))
    return .consts specs

def enterAll (declarations : List (CurrentFile × Declaration)) : Checking (List (CurrentFile × Entry)) :=
  declarations.mapM fun (file, d) => return (file, ← Checking.inFile file (enter d))

/-! ### Types and signatures -/

def declareParam (name : Ident) (index : Nat) : Checking TypeId := do
  let param ← Build.typeParam name.name index
  Checking.defineLocal name.name (.typeName param)
  return param

def declareParams (names : List Ident) : Checking (List TypeId) :=
  names.zipIdx.mapM fun (name, index) => declareParam name index

/-- Resolves the bounds of type parameters. A bound that is no interface stands for the interface that
embeds it. -/
def resolveBounds : List TypeParamDecl → List TypeId → Checking Unit
  | [], _ => return
  | decl :: decls, params => do
    let bound ← resolveType decl.constraint
    let isBound ← Checking.ask fun t => t.isInterface bound || bound = .invalid
    let constraint ← if isBound then pure bound else Build.interface [] [bound]
    (params.take decl.names.length).forM fun param => Checking.change (·.setConstraint param constraint)
    resolveBounds decls (params.drop decl.names.length)

def declareTypeParams (decls : List TypeParamDecl) : Checking (List TypeId) := do
  let params ← declareParams (decls.flatMap (·.names))
  resolveBounds decls params
  return params

def resolveAlias (spec : TypeSpec) : Checking Unit := do
  let type ← resolveType spec.type
  Checking.declare .package spec.name (.typeName type)

def resolveDeclaredType (spec : TypeSpec) (id : TypeId) : Checking Unit := do
  let rhs ←
    if spec.typeParams.isEmpty then resolveType spec.type
    else
      Checking.inScope do
        let params ← declareTypeParams spec.typeParams
        Checking.change (·.setTypeParams id params)
        resolveType spec.type
  Checking.change (·.setRhs id rhs)

/-- What the type expression of a receiver says. -/
structure Receiver where
  owner : TypeId
  isPointer : Bool
  /-- The names that the receiver gives to the type parameters of the owner. -/
  typeParams : List Ident

def receiverName? : TypeExpr → Option (Ident × List Ident)
  | .name id => some (id, [])
  | .generic (.name id) args =>
    some (id, args.map fun
      | .name param => param
      | _ => ⟨"_", id.pos⟩)
  | _ => none

def receiver? (type : TypeExpr) : Checking (Option Receiver) := do
  let (inner, isPointer) :=
    match type with
    | .pointer elem => (elem, true)
    | _ => (type, false)
  match receiverName? inner with
  | none => return none
  | some (name, typeParams) =>
    match ← Checking.packageLevel? name.name with
    | some (.typeName owner) =>
      let declared ← Checking.ask fun t => (t.named? owner).isSome
      return if declared then some { owner, isPointer, typeParams } else none
    | _ => return none

def typeParamsOf (t : Table) (named : TypeId) : List TypeId := (t.named? named).elim [] (·.typeParams)

/-- Attaches a method to the type of its receiver. A method without a name is not attached but
checked. -/
def attachMethod (f : FuncDecl) (recv : Field) : Checking (List AttachedMethod) := do
  match ← receiver? recv.type with
  | none => return []
  | some r =>
    let sig ← Checking.inScope do
      bindTypeParams r.typeParams (← Checking.ask (typeParamsOf · r.owner))
      resolveSignature f.sig
    let context ← read
    let id ← Build.newFunc
      { Func.ofName f.name.name (.method r.owner r.isPointer) with
        sig, package := some context.path, pos := some ⟨context.file.id, f.name.pos⟩ }
    if !f.name.isBlank then
      Checking.change (·.addMethod r.owner id)
    Checking.noteDef f.name.pos (.func id)
    return [{ decl := f, recv, id, owner := r.owner }]

def attachMethods (entries : List (CurrentFile × Entry)) :
    Checking (List (CurrentFile × AttachedMethod)) := do
  let attached ← entries.mapM fun (file, entry) =>
    match entry with
    | .method f recv =>
      Checking.inFile file do
        return (← attachMethod f recv).map (file, ·)
    | _ => pure []
  return attached.flatten

def resolveFunc (f : FuncDecl) (id : FuncId) : Checking Unit := do
  let (typeParams, sig) ← Checking.inScope do
    let typeParams ← declareTypeParams f.typeParams
    return (typeParams, ← resolveSignature f.sig)
  Checking.change (·.modifyFunc id fun f => { f with sig, typeParams })

/-! ### Values and bodies -/

def declareTyped (spec : ValueSpec) : Checking Unit := do
  match spec.type with
  | some type =>
    let type ← resolveType type
    spec.names.forM fun name => Checking.declare .package name (.var type)
  | none => return

def checkTypedValues (spec : ValueSpec) : Checking Unit := do
  match spec.type with
  | some type =>
    let type ← resolveType type
    let _ ← checkExprs (some type) spec.values
  | none => return

def checkFunc (f : FuncDecl) (id : FuncId) : Checking Unit := do
  match f.body with
  | none => return
  | some body =>
    Checking.inScope do
      let func ← Checking.ask (·.func id)
      bindTypeParams (f.typeParams.flatMap (·.names)) func.typeParams
      bindSignature f.sig func.sig
      Checking.inScope (checkStmts body)

def checkMethod (m : AttachedMethod) : Checking Unit := do
  match m.decl.body with
  | none => return
  | some body =>
    Checking.inScope do
      match ← receiver? m.recv.type with
      | some r =>
        bindTypeParams r.typeParams (← Checking.ask (typeParamsOf · m.owner))
        let type ← if r.isPointer then Build.pointer m.owner else pure m.owner
        m.recv.names.forM fun name => Checking.declareLocal name (.var type)
      | none => pure ()
      bindSignature m.decl.sig (← Checking.ask fun t => (t.func m.id).sig)
      Checking.inScope (checkStmts body)

/-! ### The whole package -/

def declaredTypes (entries : List (CurrentFile × Entry)) : List TypeId :=
  entries.filterMap fun
    | (_, .type _ id) => some id
    | _ => none

def resolveAliases (entries : List (CurrentFile × Entry)) : Checking Unit :=
  Checking.forEach entries fun
    | .alias spec => resolveAlias spec
    | _ => pure ()

def resolveDeclaredTypes (entries : List (CurrentFile × Entry)) : Checking Unit :=
  Checking.forEach entries fun
    | .type spec id => resolveDeclaredType spec id
    | _ => pure ()

/-- Checks what belongs to types and functions, and values, when it is known what the declared types are. -/
def checkMembers (entries : List (CurrentFile × Entry)) : Checking Unit := do
  let methods ← attachMethods entries
  Checking.forEach entries fun
    | .func f id => resolveFunc f id
    | _ => pure ()
  let order ← orderInterfaces (declaredTypes entries)
  Build.endDeclarations order
  Checking.forEach entries fun
    | .consts specs => checkConstSpecs .package none specs
    | _ => pure ()
  Checking.forEach entries fun
    | .var spec => declareTyped spec
    | _ => pure ()
  Checking.forEach entries fun
    | .var spec => if spec.type.isNone then checkVarSpec .package spec else pure ()
    | _ => pure ()
  Checking.forEach entries fun
    | .var spec => checkTypedValues spec
    | _ => pure ()
  Checking.forEach entries fun
    | .func f id => checkFunc f id
    | _ => pure ()
  Checking.forEach methods checkMethod

/-- Checks the declarations of a package, kind after kind. -/
def checkEntries (entries : List (CurrentFile × Entry)) : Checking Unit := do
  Build.beginDeclarations
  resolveAliases entries
  resolveDeclaredTypes entries
  checkMembers entries

def checkFiles (files : List (CurrentFile × SourceFile)) : Checking Unit := do
  checkEntries (← enterAll (declarationsIn files))

/-- Which package an import path stands for. -/
abbrev ImportMap := List (String × PackageId)

/-- The names that a file imports. An import of which nothing is known brings no name. -/
def importScope (packages : Array Package) (byPath : ImportMap) (imports : List ImportSpec) : Scope :=
  imports.foldl (fun scope i =>
    match (byPath.lookup i.path).bind fun id => packages[id.index]? with
    | none => scope
    | some dep =>
      match i.name.map (·.name) with
      | some "_" => scope
      | some "." => scope.insertAll dep.scope
      | some name => scope.insert name (.package dep.id)
      | none => scope.insert dep.name (.package dep.id)) .empty

structure PackageSource where
  path : String
  name : String
  dir : Option String
  files : List File

namespace PackageSource

def currentFiles (source : PackageSource) (packages : Array Package) (byPath : ImportMap) :
    List (CurrentFile × SourceFile) :=
  source.files.mapIdx fun index f =>
    ({ index, id := f.id, scope := importScope packages byPath f.tree.imports }, f.tree)

def context (source : PackageSource) (packages : Array Package) : Context :=
  { path := source.path, packages, file := { index := 0, id := 0, scope := .empty } }

def start (source : PackageSource) : Notes :=
  { scope := .empty, locals := [], infos := (source.files.map fun _ => FileInfo.empty).toArray }

def package (source : PackageSource) (id : PackageId) (notes : Notes) : Package :=
  { id, path := source.path, name := source.name, dir := source.dir, files := source.files,
    infos := notes.infos.toList, scope := notes.scope }

end PackageSource

def checkPackage (packages : Array Package) (byPath : ImportMap) (id : PackageId)
    (source : PackageSource) : Build Package := do
  let files := source.currentFiles packages byPath
  let ((), notes) ← ((checkFiles files).run (source.context packages)).run source.start
  return source.package id notes

end UnusedMethods.Typing
