import UnusedMethods.Disk
import UnusedMethods.Error
import UnusedMethods.Filter
import UnusedMethods.Text.Blank
import UnusedMethods.Toml.Reader
import UnusedMethods.Yaml.Node

/-!
# Configuration

A configuration may name the files to leave out. It is a document in TOML, if the file's name says so,
or else in YAML: a table whose entry `ignore` lists globs. Other entries do not count.
-/

namespace UnusedMethods

/-- What a user sets. -/
structure Config where
  /-- The globs of files to leave out, if any are named. -/
  ignore : Option (List String)
  source : Option String
deriving DecidableEq

namespace Config

def default : Config := { ignore := none, source := none }

def patterns (c : Config) : List String := c.ignore.getD PathFilter.defaultPatterns

def filter (c : Config) : Except Error PathFilter :=
  match PathFilter.ofPatterns c.patterns with
  | .ok f => .ok f
  | .error e =>
    .error (.config (c.source.getD "<defaults>") ("invalid ignore pattern: " ++ e.message))

/-! ### YAML -/

def nullTag : String := "tag:yaml.org,2002:null"

/-- Whether a plain scalar says that there is nothing. -/
def isNullWord (s : String) : Bool := s = "null" ∨ s = "Null" ∨ s = "NULL" ∨ s = "~"

open Yaml in
/-- A list of texts. Scalars of all kinds stand for their texts. -/
def textsOfYaml? : Node → Option (List String)
  | .sequence items =>
    items.mapM fun
      | .scalar _ _ text => some text
      | _ => none
  | .scalar true _ "" => some []
  | _ => none

open Yaml in
/-- A list of texts that may be left out. A scalar without a tag that is empty or says so stands for
nothing. -/
def optionalTexts? : Node → Option (Option (List String))
  | .scalar true none text =>
    if text.isEmpty ∨ isNullWord text then some none else none
  | .scalar true (some tag) text =>
    if tag = nullTag then if isNullWord text then some none else none
    else (textsOfYaml? (.scalar true (some tag) text)).map some
  | node => (textsOfYaml? node).map some

open Yaml in
/-- The globs that the pairs of a mapping name. The keys are scalars, and `ignore` is there at most
once. -/
def ignoreOfPairs? : List (Node × Node) → Option (Option (List String)) → Option (Option (List String))
  | [], found => some (found.getD none)
  | (.scalar _ _ key, v) :: rest, found =>
    if key ≠ "ignore" then ignoreOfPairs? rest found
    else if found.isSome then none
    else do ignoreOfPairs? rest (some (← optionalTexts? v))
  | _ :: _, _ => none

def ignoreOfYaml? (text : String) : Option (Option (List String)) := do
  match ← Yaml.document? text with
  | none => some none
  | some (.mapping pairs) => ignoreOfPairs? pairs none
  | some (.scalar true _ "") => some none
  | some _ => none

/-! ### TOML -/

def ignoreOfToml? (text : String) : Option (Option (List String)) := do
  match (← Toml.document? text).lookup "ignore" with
  | none => some none
  | some (.array items) =>
    let texts ← items.mapM fun
      | .string s => some s
      | _ => none
    some (some texts)
  | some _ => none

/-! ### Files -/

/-- Reads the text of a configuration file. A blank text says nothing. -/
def read (path text : String) : Except Error Config :=
  let ignore? :=
    if Text.isBlankText text then some none
    else if Path.extension? path = some "toml" then ignoreOfToml? text
    else ignoreOfYaml? text
  match ignore? with
  | some ignore => .ok { ignore, source := some path }
  | none => .error (.config path "malformed document")

def standardNames : List String :=
  [".deadiface.yml", "deadiface.yml", ".config/deadiface.yml", ".deadiface.yaml", "deadiface.yaml",
    ".config/deadiface.yaml", "deadiface.toml"]

/-- The configuration file to use: the one that is asked for, or else the first one with a standard
name in a directory. -/
def file? (d : Disk) (explicit : Option String) (root : String) : Option String :=
  match explicit with
  | some path => if d.isFile path then some path else none
  | none => (standardNames.map (Path.join root)).find? d.isFile

/-- The configuration on a disk. A file that is asked for but not there counts as none. -/
def load (d : Disk) (explicit : Option String) (root : String) : Except Error Config :=
  match file? d explicit root with
  | none => .ok .default
  | some path =>
    match d.readText path with
    | .ok text => read path text
    | .error fault => .error (.config path ("cannot read: " ++ fault.message))

end Config

end UnusedMethods
