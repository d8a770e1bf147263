import UnusedMethods.Types.Generics
import UnusedMethods.Types.Members
import UnusedMethods.Typing.Package

/-!
# Checking

The computation in which a package is checked: what it reads, what it keeps, how names are looked up
and how facts are recorded.
-/

namespace UnusedMethods.Typing

open Syntax UnusedMethods.Types

/-- The file that is being read. -/
structure CurrentFile where
  index : Nat
  id : Nat
  /-- Names that the file imports. -/
  scope : Scope

/-- What stays the same while a piece of a file is checked. -/
structure Context where
  path : String
  packages : Array Package
  file : CurrentFile

/-- What becomes known while a package is checked. -/
structure Notes where
  /-- Package-level names. -/
  scope : Scope
  /-- Open local scopes, the innermost first. -/
  locals : List Scope
  infos : Array FileInfo

/-- Where a declaration stands. -/
inductive Level where
  | package
  | local
deriving DecidableEq

/-- A step of the check of a package. -/
abbrev Checking := ReaderT Context (StateT Notes Build)

namespace Checking

/-! ### Reading the table -/

def ask {α : Type} (f : Table → α) : Checking α := return f (← getThe Table)

def change (f : Table → Table) : Checking Unit := modifyThe Table f

/-! ### Recording facts -/

def modifyInfo (f : FileInfo → FileInfo) : Checking Unit := do
  let i := (← read).file.index
  modifyThe Notes fun s => { s with infos := s.infos.modify i f }

/-- An answer that follows from what is known about the current file. -/
def askInfo {α : Type} (f : FileInfo → α) : Checking α := do
  return f ((← getThe Notes).infos[(← read).file.index]?.getD .empty)

def useOf? (id : Nat) : Checking (Option Object) := askInfo fun i => i.use? id

/-- The types of the expressions of the current file, as far as they are known. -/
def knownTypes : Checking (Nat → Option TypeId) := askInfo fun i id => i.type? id

def noteType (id : Nat) (type : TypeId) : Checking Unit :=
  modifyInfo fun i => { i with types := (id, type) :: i.types }

def noteUse (id : Nat) (obj : Object) : Checking Unit :=
  modifyInfo fun i => { i with uses := (id, obj) :: i.uses }

def noteSelection (id : Nat) (s : Selection) : Checking Unit :=
  modifyInfo fun i => { i with selections := (id, s) :: i.selections }

/-- Records what the name declared at a place denotes. -/
def noteDef (pos : Pos) (obj : Object) : Checking Unit :=
  modifyInfo fun i => { i with defs := (pos, obj) :: i.defs.filter fun d => d.1 != pos }

/-! ### Scopes -/

def inScope {α : Type} (x : Checking α) : Checking α := do
  modifyThe Notes fun s => { s with locals := .empty :: s.locals }
  let a ← x
  modifyThe Notes fun s => { s with locals := s.locals.tail }
  return a

def defineLocal (name : String) (obj : Object) : Checking Unit :=
  modifyThe Notes fun s =>
    { s with
      locals :=
        match s.locals with
        | [] => []
        | scope :: rest => scope.insert name obj :: rest }

def definePackageLevel (name : String) (obj : Object) : Checking Unit :=
  modifyThe Notes fun s => { s with scope := s.scope.insert name obj }

/-- Declares a name in the package or in the innermost local scope. -/
def declare (level : Level) (name : Ident) (obj : Object) : Checking Unit := do
  if !name.isBlank then
    match level with
    | .package => definePackageLevel name.name obj
    | .local => defineLocal name.name obj
    noteDef name.pos obj

def declareLocal (name : Ident) (obj : Object) : Checking Unit := declare .local name obj

/-- What a name denotes: local names hide imported ones, these hide those of the package, and these
hide predeclared ones. -/
def lookup (name : String) : Checking (Option Object) := do
  let notes ← getThe Notes
  let scopes := notes.locals ++ [(← read).file.scope, notes.scope, .predeclared]
  return scopes.findSome? (·.find? name)

def innermost? (name : String) : Checking (Option Object) := do
  return (← getThe Notes).locals.head?.bind (·.find? name)

def packageLevel? (name : String) : Checking (Option Object) := do
  return (← getThe Notes).scope.find? name

def member (id : PackageId) (name : String) : Checking (Option Object) := do
  return (← read).packages[id.index]?.bind (·.scope.find? name)

/-- What `p.name` denotes if `p` is an imported package. -/
def qualified (package name : String) : Checking (Option Object) := do
  match ← lookup package with
  | some (.package id) => member id name
  | _ => return none

def typeNamed? (name : String) : Checking (Option TypeId) := do
  match ← lookup name with
  | some (.typeName t) => return some t
  | _ => return none

/-- The type that `p.name` denotes. -/
def qualifiedType? (package name : String) : Checking (Option TypeId) := do
  match ← qualified package name with
  | some (.typeName t) => return some t
  | _ => return none

end Checking

end UnusedMethods.Typing
