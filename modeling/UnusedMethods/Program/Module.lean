import UnusedMethods.Disk
import UnusedMethods.Error
import UnusedMethods.Text.Blank

/-!
# Modules

A module is a directory with a file `go.mod`, which names the import path of the directory. Files can
be kept out of the module by a line of their own.
-/

namespace UnusedMethods

/-- A module: the import path of a directory. -/
structure GoModule where
  path : String
  /-- Absolute path of the directory. -/
  dir : String

namespace GoModule

open Text

/-- The import path at the start of a text: after blanks, `module` and blanks, up to a blank or quote. -/
def pathAt? (text : List Char) : Option String := do
  let rest ← after? "module".toList (text.dropWhile isBlank)
  if !rest.head?.any isBlank then none
  else
    let rest := rest.dropWhile isBlank
    let rest := if rest.head? = some '"' then rest.tail else rest
    match rest.takeWhile fun c => !isBlank c && c ≠ '"' with
    | [] => none
    | name => some (String.ofList name)

/-- The import path that the text of a file `go.mod` gives: that of the first line which has one. -/
def readPath? (text : String) : Option String := (lineStarts text.toList).findSome? pathAt?

end GoModule

/-- The directories that a place is in, from the place itself up to the root. -/
def Location.ancestors (l : Location) : List Location :=
  (List.range (l.length + 1)).reverse.map fun n => l.take n

namespace Disk

/-- The text of a file, or the error that says why it cannot be read. -/
def source (d : Disk) (path : String) : Except Error String :=
  match d.readText path with
  | .ok text => .ok text
  | .error fault => .error (.io path fault.message)

/-- The module of a directory: that of the nearest `go.mod`, if it gives an import path. -/
def moduleAt (d : Disk) (dir : Location) : Except Error (Option GoModule) :=
  match dir.ancestors.find? fun l => d.isFile (Path.join l.path "go.mod") with
  | none => .ok none
  | some l => do
    let text ← d.source (Path.join l.path "go.mod")
    return (GoModule.readPath? text).map fun path => { path, dir := l.path }

end Disk

open Text in
def isBuildIgnored (text : String) : Bool :=
  (lineStarts text.toList).any fun line =>
    match after? "//go:build".toList line with
    | none => false
    | some rest =>
      rest.head?.any isBlank &&
        match after? "ignore".toList (rest.dropWhile isBlank) with
        | none => false
        | some rest =>
          (rest.dropWhile fun c => isBlank c && c ≠ '\n').head?.all (· = '\n')

end UnusedMethods
