import UnusedMethods.Path

/-!
# Files and directories

A disk is a finite tree of directories and files, seen from a working directory. Paths are resolved
step by step, so each step but the last has to lead to a directory.
-/

namespace UnusedMethods

/-- A file, or a directory with what stands in it under each name. -/
inductive FileTree where
  | file (content : ByteArray)
  | dir (entries : List (String × FileTree))

namespace FileTree

def isDir : FileTree → Bool
  | .file _ => false
  | .dir _ => true

def isFile : FileTree → Bool
  | .file _ => true
  | .dir _ => false

/-- What stands in a directory. A file holds nothing. -/
def entries : FileTree → List (String × FileTree)
  | .file _ => []
  | .dir es => es

def child? (e : FileTree) (name : String) : Option FileTree := e.entries.lookup name

/-- What is reached by going down through directories. -/
def descend? : FileTree → List String → Option FileTree
  | e, [] => some e
  | e, name :: names => do descend? (← e.child? name) names

mutual

def contents : FileTree → List ByteArray
  | .file content => [content]
  | .dir es => contentsIn es

def contentsIn : List (String × FileTree) → List ByteArray
  | [] => []
  | (_, e) :: es => e.contents ++ contentsIn es

end

/-- Puts an entry where a list of names leads, with the directories on the way to it. What stands in
the way is replaced. -/
def insert (e : FileTree) (place : List String) (new : FileTree) : FileTree :=
  match place with
  | [] => new
  | name :: names =>
    let below := ((e.child? name).getD (.dir [])).insert names new
    .dir (e.entries.filter (·.1 ≠ name) ++ [(name, below)])

end FileTree

/-- A place on the disk: the names on the way to it from the root. -/
abbrev Location := List String

def Location.path (l : Location) : String := "/" ++ "/".intercalate l

/-- A tree of files with a working directory. -/
structure Disk where
  root : FileTree
  cwd : Location

namespace Disk

/-- Follows a part of a path from a place, which has to be a directory. -/
def step (d : Disk) (l : Location) (part : String) : Option Location := do
  let here ← d.root.descend? l
  if !here.isDir then none
  else if part = "" ∨ part = "." then some l
  else if part = ".." then some l.dropLast
  else do
    let _ ← here.child? part
    some (l ++ [part])

/-- The place that a path leads to. The empty path leads nowhere. -/
def locate? (d : Disk) (path : String) : Option Location :=
  if path.isEmpty then none
  else (path.splitOn "/").foldlM d.step (if path.startsWith "/" then [] else d.cwd)

def entry? (d : Disk) (path : String) : Option FileTree := do d.root.descend? (← d.locate? path)

def isDir (d : Disk) (path : String) : Bool := (d.entry? path).any FileTree.isDir

def isFile (d : Disk) (path : String) : Bool := (d.entry? path).any FileTree.isFile

/-- The absolute path of what a path leads to. A path that leads nowhere is left as it is. -/
def resolve (d : Disk) (path : String) : String := ((d.locate? path).map Location.path).getD path

/-- Why the text of a file cannot be read. -/
inductive ReadFault where
  | missing
  | directory
  | encoding
deriving DecidableEq

def ReadFault.message : ReadFault → String
  | .missing => "No such file or directory (os error 2)"
  | .directory => "Is a directory (os error 21)"
  | .encoding => "stream did not contain valid UTF-8"

def readText (d : Disk) (path : String) : Except ReadFault String :=
  match d.entry? path with
  | none => .error .missing
  | some (.dir _) => .error .directory
  | some (.file content) =>
    match String.fromUTF8? content with
    | some text => .ok text
    | none => .error .encoding

/-- A path as seen from the working directory, if it is in or below it. -/
def shown (d : Disk) (path : String) : String := (Path.relativeTo? d.cwd.path path).getD path

end Disk

end UnusedMethods
