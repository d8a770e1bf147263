/-!
# Errors

Why an analysis cannot be carried out, with the wording that users see.
-/

namespace UnusedMethods

inductive Error where
  /-- A file or directory cannot be read. -/
  | io (path cause : String)
  | parse (path cause : String)
  | typeCheck (package cause : String)
  | config (path cause : String)
  | invalidArgument (cause : String)
  | internal (cause : String)
deriving DecidableEq

namespace Error

def message : Error → String
  | .io path cause => s!"I/O error at {path}: {cause}"
  | .parse path cause => s!"Parse error in {path}: {cause}"
  | .typeCheck package cause => s!"Type check error in package {package}: {cause}"
  | .config path cause => s!"Config error at {path}: {cause}"
  | .invalidArgument cause => s!"Invalid argument: {cause}"
  | .internal cause => s!"Internal error: {cause}"

def path? : Error → Option String
  | .io path _ | .parse path _ | .config path _ => some path
  | .typeCheck .. | .invalidArgument _ | .internal _ => none

end Error

end UnusedMethods
