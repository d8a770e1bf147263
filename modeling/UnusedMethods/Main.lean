import UnusedMethods.CommandLine

/-!
# The program

Takes a picture of the parts of the disk that a run can look at, and runs the command line on it.
-/

namespace UnusedMethods.Main

/-- Whether the content of a file can matter: Go sources, modules and configurations. -/
def isRead (name : String) : Bool :=
  name = "go.mod" || [".go", ".yml", ".yaml", ".toml"].any fun ending => name.endsWith ending

def listDirectory (path : String) : IO (Array IO.FS.DirEntry) :=
  (IO.FS.DirEntry.mk path ".").path.readDir

def isDirectory (path : String) : IO Bool := (IO.FS.DirEntry.mk path ".").path.isDir

/-- Reads a directory and all that is below it. Links are not followed. -/
partial def readTree (path : String) : IO FileTree := do
  let entries ← (← listDirectory path).mapM fun e => do
    let here := Path.join path e.fileName
    match (← e.path.symlinkMetadata).type with
    | .dir => return some (e.fileName, ← readTree here)
    | .file =>
      let content ← if isRead e.fileName then IO.FS.readBinFile here else pure .empty
      return some (e.fileName, FileTree.file content)
    | _ => return none
  return .dir (entries.toList.filterMap id)

/-- The place of an absolute path without `.` and `..`. -/
def placeOf (path : String) : Location := (path.splitOn "/").filter (· ≠ "")

/-- The directory of the nearest module around a place, or the place itself. -/
def moduleDirectory (l : Location) : IO Location := do
  for dir in l.ancestors do
    if ← isDirectory dir.path then
      if (← listDirectory dir.path).any (·.fileName = "go.mod") then return dir
  return l

/-- Puts what stands at a place into a picture, unless it is in it already. -/
def addTree (root : FileTree) (l : Location) : IO FileTree := do
  match root.descend? l with
  | some (.dir (_ :: _)) => return root
  | _ => return root.insert l (← readTree l.path)

def addFile (root : FileTree) (path : String) : IO FileTree := do
  if (root.descend? (placeOf path)).isSome then return root
  try
    return root.insert (placeOf path) (.file (← IO.FS.readBinFile path))
  catch _ => return root

def readDisk (cwd : String) (a : CommandLine.Arguments) : IO Disk := do
  let mut root : FileTree := .dir []
  for pattern in a.effectivePatterns do
    let dir := Path.join cwd (PackagePattern.read pattern).dir
    if ← isDirectory dir then
      root ← addTree root (← moduleDirectory (placeOf (← IO.FS.realPath dir).toString))
  for path in a.config.toList ++ Config.standardNames do
    root ← addFile root (Path.join cwd path)
  if (root.descend? (placeOf cwd)).isNone then
    root := root.insert (placeOf cwd) (.dir [])
  return { root, cwd := placeOf cwd }

def run (cwd : String) (args : List String) : IO CommandLine.Outcome := do
  match CommandLine.Arguments.read args with
  | .ok a => return CommandLine.run (← readDisk cwd a) args
  | .error _ => return CommandLine.run { root := .dir [], cwd := [] } args

end UnusedMethods.Main

open UnusedMethods in
def main (args : List String) : IO UInt32 := do
  let cwd := (← IO.FS.realPath (← IO.currentDir)).toString
  if CommandLine.isVerbose (← IO.getEnv CommandLine.verboseVariable) then
    IO.eprintln s!"working directory: {cwd}"
  let outcome ← Main.run cwd args
  IO.print outcome.stdout
  IO.eprint outcome.stderr
  return outcome.exit.toUInt32
