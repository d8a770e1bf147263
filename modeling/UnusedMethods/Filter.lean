import UnusedMethods.Path
import UnusedMethods.Text.Glob

/-!
# Which files are left out

A filter holds globs. A file is left out if one of them matches its cleaned path. Whoever asks about many files can have
the cleaned paths remembered.
-/

namespace UnusedMethods

/-- Globs with their texts, in the order given. -/
structure PathFilter where
  globs : List (String × List Glob.Token)

structure GlobError where
  glob : String
  fault : Glob.Fault
deriving DecidableEq

def GlobError.message (e : GlobError) : String :=
  "error parsing glob '" ++ e.glob ++ "': " ++ e.fault.message

namespace PathFilter

/-- The globs that are used where none are given: tests and mocks. -/
def defaultPatterns : List String :=
  ["**/*_test.go", "test/**", "**/*_mock.go", "**/mock/**", "**/mocks/**"]

/-- The filter with the given globs; the first that cannot be read is an error. -/
def ofPatterns (patterns : List String) : Except GlobError PathFilter := do
  let globs ← patterns.mapM fun p =>
    match Glob.read p with
    | .ok tokens => .ok (p, tokens)
    | .error fault => .error { glob := p, fault }
  return { globs }

def allowAll : PathFilter := { globs := [] }

def defaults : PathFilter := (ofPatterns defaultPatterns).toOption.getD allowAll

def patterns (f : PathFilter) : List String := f.globs.map (·.1)

def ignores (f : PathFilter) (path : String) : Bool :=
  let path := Path.clean path
  f.globs.any fun (_, glob) => Glob.isMatch glob path

/-! ### Asking again -/

/-- The paths that have been asked about, with their cleaned forms. -/
abbrev Cleaned := List (String × String)

/-- The cleaned form of a path. It is found once and remembered. -/
def normalize (known : Cleaned) (path : String) : String × Cleaned :=
  match known.lookup path with
  | some hit => (hit, known)
  | none =>
    let clean := Path.clean path
    (clean, (path, clean) :: known)

/-- Whether a file is left out, which the first glob that matches decides, and what is remembered then. -/
def ask (f : PathFilter) (known : Cleaned) (path : String) : Bool × Cleaned :=
  let (path, known) := normalize known path
  ((f.globs.find? fun (_, glob) => Glob.isMatch glob path).isSome, known)

end PathFilter

end UnusedMethods
