import UnusedMethods.Disk

/-!
# Finding Go files

A pattern names a directory, or a directory and all those below it that can hold packages. A pattern
leads to directories with their Go files.
-/

namespace UnusedMethods

/-- Directories to look for packages in. -/
structure PackagePattern where
  dir : String
  /-- Whether the directories below are meant too. -/
  recursive : Bool
deriving DecidableEq

namespace PackagePattern

def dropSlashes (s : String) : String :=
  String.ofList (s.toList.reverse.dropWhile (· = '/')).reverse

/-- Reads a pattern: `...` at the end, alone or after a slash, stands for all directories below. -/
def read (pattern : String) : PackagePattern :=
  let pattern := dropSlashes pattern
  if pattern = "..." then { dir := ".", recursive := true }
  else if pattern.endsWith "/..." then
    let dir := (pattern.dropEnd 4).toString
    { dir := if dir.isEmpty then "/" else dir, recursive := true }
  else { dir := pattern, recursive := false }

end PackagePattern

namespace Discovery

def isExcluded (name : String) : Bool :=
  name = "vendor" ∨ name = "testdata" ∨ name = "node_modules" ∨ name.startsWith "." ∨
    name.startsWith "_"

/-- Names of files that hold Go sources. -/
def isGoName (name : String) : Bool :=
  name.endsWith ".go" && !name.startsWith "." && !name.startsWith "_"

def sortPaths (paths : List String) : List String := paths.mergeSort fun a b => (Path.compare a b).isLE

mutual

/-- The Go files of an entry with the given path and name, and those of all directories below it that
are not excluded. -/
def goFiles (path name : String) : FileTree → List String
  | .file _ => if isGoName name then [path] else []
  | .dir es => if isExcluded name then [] else goFilesIn path es

def goFilesIn (dir : String) : List (String × FileTree) → List String
  | [] => []
  | (name, e) :: es => goFiles (Path.join dir name) name e ++ goFilesIn dir es

end

/-- The Go files in a directory and in all directories below it. The directory itself is not
excluded, whatever its name. -/
def gather (d : Disk) (dir : String) : List String :=
  sortPaths (goFilesIn dir (((d.entry? dir).map FileTree.entries).getD []))

def packageFiles (d : Disk) (dir : String) : List String :=
  let here := ((d.entry? dir).map FileTree.entries).getD []
  sortPaths ((here.filter fun (name, e) => e.isFile && isGoName name).map fun (name, _) =>
    Path.join dir name)

/-- Adds a file to the files of its directory. Directories are kept in their order. -/
def addFile (file : String) : List (String × List String) → List (String × List String)
  | [] => [(Path.parent file, [file])]
  | (dir, files) :: rest =>
    match Path.compare (Path.parent file) dir with
    | .lt => (Path.parent file, [file]) :: (dir, files) :: rest
    | .eq => (dir, files ++ [file]) :: rest
    | .gt => (dir, files) :: addFile file rest

/-- The directories of a pattern that have Go files, each with its files; none if the pattern does not
name a directory. -/
def packageDirs? (d : Disk) (pattern : PackagePattern) : Option (List (String × List String)) :=
  if !d.isDir pattern.dir then none
  else if pattern.recursive then
    some ((gather d pattern.dir).foldl (fun dirs file => addFile file dirs) [])
  else
    match packageFiles d pattern.dir with
    | [] => some []
    | files => some [(pattern.dir, files)]

end Discovery

end UnusedMethods
