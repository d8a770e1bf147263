import UnusedMethods.Typing.Object

/-!
# Packages
-/

namespace UnusedMethods.Typing

open Syntax

/-- A source file of a program. -/
structure File where
  id : Nat
  path : String
  /-- The path that reports and filters use. -/
  relPath : String
  tree : SourceFile

/-- A package whose types are known. -/
structure Package where
  id : PackageId
  path : String
  name : String
  dir : Option String
  files : List File
  infos : List FileInfo
  scope : Scope

/-- Drops all copies of `go-` in front of a name. -/
def dropToolMark : List Char → List Char
  | 'g' :: 'o' :: '-' :: rest => dropToolMark rest
  | cs => cs

/-- Whether the last element of an import path is a major version: `v` and digits. -/
def isMajorVersion : List Char → Bool
  | 'v' :: digits => !digits.isEmpty && digits.all Char.isDigit
  | _ => false

/-- The name of a package of which only the import path is known: the last element of the path that
is not a major version, without `go-` in front, and with `_` for what cannot stand in a name. -/
def defaultPackageName (path : String) : String :=
  let parts := (path.splitOn "/").reverse.map String.toList
  let name :=
    match parts with
    | last :: before :: _ => if isMajorVersion last then before else last
    | [last] => last
    | [] => []
  String.ofList ((dropToolMark name).map fun c => if c = '-' ∨ c = '.' then '_' else c)

/-- A package without sources, in which no name can be found. -/
def Package.opaqueAt (id : PackageId) (path : String) : Package where
  id := id
  path := path
  name := defaultPackageName path
  dir := none
  files := []
  infos := []
  scope := .empty

end UnusedMethods.Typing
