/-!
# Paths as text

Paths are texts with `/` between their parts. They are compared and taken apart part by part, and they
are cleaned without looking at the disk.
-/

namespace UnusedMethods.Path

/-! ### Order -/

inductive Component where
  | root
  | current
  | parent
  | name (s : String)
deriving DecidableEq

/-- The root comes first, then `.`, then `..`, then names in the order of their characters. -/
def Component.compare : Component → Component → Ordering
  | .name s, .name t => Ord.compare s t
  | c, d => Ord.compare (rank c) (rank d)
where
  rank : Component → Nat
    | .root => 0
    | .current => 1
    | .parent => 2
    | .name _ => 3

/-- The component that a part of a path stands for; none for an empty part and for `.`. -/
def component? : String → Option Component
  | "" => none
  | "." => none
  | ".." => some .parent
  | s => some (.name s)

/-- The texts between the slashes of a path, each with the component that it stands for. A repeated or
trailing `/` and a `.` count for nothing, except a `.` at the start. -/
def parts (path : String) : List (Option Component × String) :=
  match path.splitOn "/" with
  | [] => []
  | first :: rest =>
    let start :=
      match first with
      | "" => if rest.isEmpty then none else some .root
      | "." => some .current
      | s => component? s
    (start, first) :: rest.map fun s => (component? s, s)

def components (path : String) : List Component := (parts path).filterMap (·.1)

/-- Lists in the order of their first difference; a list comes after what it continues. -/
def compareLists : List Component → List Component → Ordering
  | [], [] => .eq
  | [], _ :: _ => .lt
  | _ :: _, [] => .gt
  | c :: cs, d :: ds => (c.compare d).then (compareLists cs ds)

def compare (p q : String) : Ordering := compareLists (components p) (components q)

/-! ### Taking apart and putting together -/

def ofParts : List (Option Component × String) → String
  | [(some .root, _)] => "/"
  | ps => "/".intercalate (ps.map (·.2))

/-- Leaves out parts at the end that count for nothing. -/
def trimParts (ps : List (Option Component × String)) : List (Option Component × String) :=
  (ps.reverse.dropWhile (·.1.isNone)).reverse

/-- A path below a directory. An absolute path stands for itself. -/
def join (dir rest : String) : String :=
  if rest.startsWith "/" ∨ dir.isEmpty then rest
  else if dir.endsWith "/" then dir ++ rest
  else dir ++ "/" ++ rest

def parent (path : String) : String := ofParts (trimParts (trimParts (parts path)).dropLast)

/-- The parts that come after some components; none if the parts do not start with those. -/
def partsAfter? : List Component → List (Option Component × String) →
    Option (List (Option Component × String))
  | [], ps => some (ps.dropWhile (·.1.isNone))
  | _ :: _, [] => none
  | c :: cs, (none, _) :: ps => partsAfter? (c :: cs) ps
  | c :: cs, (some d, _) :: ps => if c = d then partsAfter? cs ps else none

/-- A path as seen from a directory that it is in or below of; none if it is not. -/
def relativeTo? (dir path : String) : Option String :=
  (partsAfter? (components dir) (parts path)).map fun ps => ofParts (trimParts ps)

def fileName? (path : String) : Option String :=
  match (components path).getLast? with
  | some (.name s) => some s
  | _ => none

/-- What comes after the last dot of a file's name, which has to have something before the dot. -/
def extension? (path : String) : Option String := do
  let name ← fileName? path
  match (name.splitOn ".").reverse with
  | ext :: stem@(_ :: _) => if stem = [""] then none else some ext
  | _ => none

/-! ### Cleaning -/

/-- The path with `/` in place of every backslash. -/
def slashed (path : String) : String := path.map fun c => if c = '\\' then '/' else c

def cleanStep (absolute : Bool) (parts : List String) (part : String) : List String :=
  if part = "" ∨ part = "." then parts
  else if part = ".." then
    match parts with
    | last :: before => if last = ".." then ".." :: parts else before
    | [] => if absolute then [] else [".."]
  else part :: parts

/-- The path without backslashes, empty parts and `.`, and with each `..` resolved against the part
before it. The path without parts is `.`. -/
def clean (path : String) : String :=
  let path := slashed path
  let absolute := path.startsWith "/"
  let joined := "/".intercalate ((path.splitOn "/").foldl (cleanStep absolute) []).reverse
  if absolute then "/" ++ joined
  else if joined.isEmpty then "."
  else joined

end UnusedMethods.Path
