import UnusedMethods.Filter
import UnusedMethods.Methods.Registry
import UnusedMethods.Typing.Package

/-!
# Collecting the declared methods of a package
-/

namespace UnusedMethods.Methods

open Syntax UnusedMethods.Types Typing

/-- How calls on instances of generic types are matched with declarations. -/
inductive GenericMatch where
  /-- A method of an instance stands for every method of its name in an interface that is called like
  the generic type. -/
  | heuristic
  /-- A method of an instance stands only for the method that it is a copy of. -/
  | strict
deriving DecidableEq

namespace GenericMatch

def name : GenericMatch → String
  | .heuristic => "heuristic"
  | .strict => "strict"

/-- Reads the name of a way to match, in letters of any case. -/
def ofName (s : String) : Except String GenericMatch :=
  match s.toLower with
  | "heuristic" => .ok .heuristic
  | "strict" => .ok .strict
  | other => .error s!"unknown generic match mode '{other}' (expected heuristic or strict)"

end GenericMatch

/-- What an analysis takes into account. -/
structure Options where
  /-- Interfaces with type parameters count too. -/
  includeGenerics : Bool
  genericMatch : GenericMatch
  /-- From this many files on, a package is collected in parts. -/
  parallelThreshold : Nat

def Options.default : Options :=
  { includeGenerics := true, genericMatch := .heuristic, parallelThreshold := 32 }

/-- A package and the table in which its types are. -/
structure CheckedPackage where
  table : Table
  package : Package

namespace CheckedPackage

def files (u : CheckedPackage) (filter : PathFilter) : List (File × FileInfo) :=
  (u.package.files.zip u.package.infos).filter fun (f, _) => !filter.ignores f.relPath

end CheckedPackage

/-- The methods that a declared type declares itself, if it is written as an interface. -/
def collectSpec (t : Table) (options : Options) (path : String) (info : FileInfo) (spec : TypeSpec) :
    List MethodDeclaration :=
  let generic := !spec.typeParams.isEmpty
  match spec.type, info.def? spec.name.pos with
  | .interface methods _, some (.typeName named) =>
    let interface := t.underlying named
    if spec.isAlias || (generic && !options.includeGenerics) || (t.named? named).isNone
        || (t.interface? interface).isNone then []
    else
      methods.filterMap fun m =>
        match info.def? m.name.pos with
        | some (.func method) =>
          some { interfaceName := spec.name.name, interface, method, name := m.name.name, path,
                 pos := m.name.pos, generic, used := false }
        | _ => none
  | _, _ => []

/-- The methods that the interfaces of a file declare, in the order of the file. -/
def collectFile (t : Table) (options : Options) (file : File) (info : FileInfo) :
    List MethodDeclaration :=
  file.tree.decls.flatMap fun
    | .decl (.type specs) => specs.flatMap (collectSpec t options file.path info)
    | _ => []

/-- Joins what is found in the elements of a list, which is halved `n` times and found half by half. -/
def flatMapHalves {α β : Type} (f : α → List β) : Nat → List α → List β
  | 0, as => as.flatMap f
  | n + 1, as =>
    let half := as.length / 2
    flatMapHalves f n (as.take half) ++ flatMapHalves f n (as.drop half)

/-- The registry of a package. Files that the filter leaves out declare nothing, and methods that an
interface only takes over belong to the interface that it embeds. -/
def collect (u : CheckedPackage) (filter : PathFilter) (options : Options) : Registry :=
  let files := u.files filter
  let find (f : File × FileInfo) : List MethodDeclaration := collectFile u.table options f.1 f.2
  let parallel := files.length ≥ max options.parallelThreshold 1
  .ofDeclarations (if parallel then flatMapHalves find files.length.log2 files else files.flatMap find)

end UnusedMethods.Methods
