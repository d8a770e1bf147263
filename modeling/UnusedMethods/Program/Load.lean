import UnusedMethods.Discovery
import UnusedMethods.Library
import UnusedMethods.Program.Module
import UnusedMethods.Syntax.Numbering
import UnusedMethods.Typing.Check

/-!
# Loading a program

Patterns lead to directories. The package of each is read and checked after the packages that it
imports, each once. Imports below the module's path are read from the disk, others from the bundled
library; of all the rest nothing is known but the import path.
-/

namespace UnusedMethods

open Syntax UnusedMethods.Types Typing

structure Program where
  table : Table
  packages : Array Package
  /-- The packages that the patterns name, in the order of their directories. -/
  roots : List PackageId

namespace Program

def rootPackages (p : Program) : List Package := p.roots.filterMap fun id => p.packages[id.index]?

def fileCount (p : Program) : Nat := (p.rootPackages.map (·.files.length)).foldr (· + ·) 0

/-! ### Reading the package of a directory -/

/-- What stays the same while a program is loaded. -/
structure Setting where
  disk : Disk
  module : Option GoModule
  /-- Absolute path of the directory that filters see files from. -/
  base : String

namespace Setting

/-- The path that filters see: as seen from the base, or else as shown to users. -/
def filterPath (s : Setting) (path : String) : String :=
  Path.slashed ((Path.relativeTo? s.base path).getD (s.disk.shown path))

/-- The import path of a directory: below that of the module, or else the path as shown to users. -/
def importPathOf (s : Setting) (dir : String) : String :=
  let below? := do
    let m ← s.module
    let rest := Path.slashed (← Path.relativeTo? m.dir dir)
    some (if rest.isEmpty then m.path else m.path ++ "/" ++ rest)
  below?.getD (Path.slashed (s.disk.shown dir))

def dirOfImport? (s : Setting) (path : String) : Option String := do
  let m ← s.module
  if path = m.path then some m.dir
  else
    let rest ← Text.after? (m.path ++ "/").toList path.toList
    let dir := Path.join m.dir (String.ofList rest)
    if s.disk.isDir dir then some dir else none

end Setting

def parseFile (id : Nat) (path relPath text : String) : Except Error File :=
  match SourceFile.parse text with
  | .ok tree => .ok { id, path, relPath, tree }
  | .error fault => .error (.parse path fault.message)

def isExternalTest (f : File) : Bool :=
  f.tree.package.name.endsWith "_test" && (Path.fileName? f.path).any (·.endsWith "_test.go")

/-- The Go files of a directory that can be built, with their texts. -/
def sourceTexts (d : Disk) (dir : String) : Except Error (List (String × String)) := do
  let texts ← (Discovery.packageFiles d dir).mapM fun path => return (path, ← d.source path)
  return texts.filter fun (_, text) => !isBuildIgnored text

def parseFiles (s : Setting) (first : Nat) (texts : List (String × String)) : Except Error (List File) :=
  (texts.zipIdx first).mapM fun ((path, text), id) =>
    parseFile id (s.disk.shown path) (s.filterPath path) text

/-- The package that some files make up; none if they only test a package from outside. Files of
different packages are an error. -/
def packageOf (dir path : String) (files : List File) : Except Error (Option PackageSource) :=
  match files.filter fun f => !isExternalTest f with
  | [] => .ok none
  | f :: rest =>
    let name := f.tree.package.name
    match rest.find? fun g => g.tree.package.name ≠ name with
    | some g =>
      .error (.typeCheck path s!"found packages {name} and {g.tree.package.name} in {dir}")
    | none => .ok (some { path, name, dir := some dir, files := f :: rest })

def importsOf (files : List File) : List String :=
  (files.flatMap fun f => f.tree.imports.map (·.path)).eraseDups.mergeSort (· ≤ ·)

/-! ### Loading packages -/

structure Loaded where
  table : Table
  packages : Array Package
  byPath : ImportMap
  byDir : List (List Path.Component × PackageId)
  nextFile : Nat

def Loaded.start : Loaded :=
  { table := .predeclared, packages := #[], byPath := [], byDir := [], nextFile := 0 }

/-- A step of loading, which may fail. -/
abbrev Load := StateT Loaded (Except Error)

namespace Load

def takeNumbers (count : Nat) : Load Nat :=
  modifyGet fun l => (l.nextFile, { l with nextFile := l.nextFile + count })

def addOpaque (path : String) : Load PackageId :=
  modifyGet fun l =>
    let id : PackageId := ⟨l.packages.size⟩
    (id, { l with packages := l.packages.push (.opaqueAt id path), byPath := (path, id) :: l.byPath })

def addChecked (source : PackageSource) : Load PackageId :=
  modifyGet fun l =>
    let id : PackageId := ⟨l.packages.size⟩
    let (package, table) := (checkPackage l.packages l.byPath id source).run l.table
    (id, { l with table, packages := l.packages.push package, byPath := (source.path, id) :: l.byPath })

end Load

/-- Starts to load a package, while others that need it are being loaded: `loading` lists their import
paths from the last to the first. A package that needs itself is an error. -/
def enter (loading : List String) (path : String) : Except Error (List String) :=
  if path ∈ loading then
    let chain := path :: (loading.takeWhile (· ≠ path)).reverse ++ [path]
    .error (.typeCheck path ("import cycle not allowed: " ++ " -> ".intercalate chain))
  else .ok (path :: loading)

/-- How an import is loaded, given the import paths that are being loaded. -/
abbrev Importer := List String → String → Load PackageId

def loadSource (importer : Importer) (loading : List String) (source : PackageSource) :
    Load PackageId := do
  (importsOf source.files).forM fun path => discard (importer loading path)
  Load.addChecked source

/-- Loads the package of a directory under an import path, unless it is loaded already; none if the
directory has no package. -/
def loadDir (s : Setting) (importer : Importer) (loading : List String) (dir path : String) :
    Load (Option PackageId) := do
  match (← get).byDir.lookup (Path.components dir) with
  | some id => return some id
  | none =>
    let loading ← enter loading path
    let texts ← sourceTexts s.disk dir
    let first ← Load.takeNumbers texts.length
    match ← packageOf dir path (← parseFiles s first texts) with
    | none => return none
    | some source =>
      let id ← loadSource importer loading source
      modify fun l => { l with byDir := (Path.components dir, id) :: l.byDir }
      return some id

def loadBundled (importer : Importer) (loading : List String) (path text : String) :
    Load PackageId := do
  let loading ← enter loading path
  let shown := s!"$GOROOT/src/{path}/stub.go"
  let file ← parseFile (← Load.takeNumbers 1) shown (Path.slashed shown) text
  loadSource importer loading { path, name := file.tree.package.name, dir := none, files := [file] }

/-- Whether an import path stands for something that is no package of Go sources. -/
def isForeign (path : String) : Bool := path = "C" ∨ path = "unsafe"

/-- Loads what an import path stands for. Imports may nest as deep as the number says. -/
def loadImport (s : Setting) : Nat → Importer
  | 0, _, path => throw (.internal s!"imports nest too deep at {path}")
  | depth + 1, loading, path => do
    match (← get).byPath.lookup path with
    | some id => return id
    | none =>
      if isForeign path then Load.addOpaque path
      else
        let found ←
          match s.dirOfImport? path with
          | some dir => loadDir s (loadImport s depth) loading dir path
          | none => pure none
        match found, Library.source? path with
        | some id, _ => return id
        | none, some text => loadBundled (loadImport s depth) loading path text
        | none, none => Load.addOpaque path

/-! ### Loading all -/

/-- The import paths of a text; none if it is malformed. -/
def importsOfText (text : String) : List String :=
  match SourceFile.parse text with
  | .ok tree => tree.imports.map (·.path)
  | .error _ => []

def bundledImports : List String := Library.sources.flatMap fun (_, text) => importsOfText text

def importsOn (d : Disk) : List String :=
  d.root.contents.flatMap fun content => ((String.fromUTF8? content).map importsOfText).getD []

/-- How deep imports can nest: packages that are being loaded have different import paths, and all but
the first are imported somewhere. -/
def importDepth (d : Disk) : Nat := (importsOn d).length + bundledImports.length + 1

/-- The places of the directories with Go files that a pattern leads to. -/
def placesOf (d : Disk) (pattern : PackagePattern) : Except Error (List Location) :=
  match Discovery.packageDirs? d pattern with
  | none =>
    .error (.invalidArgument s!"package pattern {pattern.dir}: directory does not exist")
  | some dirs => .ok (dirs.filterMap fun (dir, _) => d.locate? dir)

def sortPlaces (places : List Location) : List Location :=
  places.eraseDups.mergeSort fun a b => (Path.compare a.path b.path).isLE

def loadPlaces (s : Setting) (places : List Location) : Load (List PackageId) := do
  let importer := loadImport s (importDepth s.disk)
  let ids ← places.mapM fun l => loadDir s importer [] l.path (s.importPathOf l.path)
  return ids.filterMap id

/-- Loads the packages that the patterns name, and all that they import. Without patterns, all
packages at and below the working directory are meant. -/
def load (d : Disk) (patterns : List String) : Except Error Program := do
  let patterns := (if patterns.isEmpty then ["./..."] else patterns).map PackagePattern.read
  let places := sortPlaces (← patterns.mapM (placesOf d)).flatten
  let base := ((patterns.head?.bind fun p => d.locate? p.dir).getD [])
  let module ← d.moduleAt (places.headD base)
  let s : Setting := { disk := d, module, base := base.path }
  let (roots, l) ← (loadPlaces s places).run .start
  return { table := l.table, packages := l.packages, roots }

end Program

end UnusedMethods
