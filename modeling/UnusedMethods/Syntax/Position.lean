/-!
# Places in a source file

A place is a line and a column, both counted from one. Columns count bytes of the UTF-8
encoding, and only a line feed ends a line.
-/

namespace UnusedMethods.Syntax

/-- A place in a source file. -/
structure Pos where
  line : Nat
  column : Nat
deriving DecidableEq, Hashable, Inhabited

namespace Pos

def start : Pos := ⟨1, 1⟩

/-- The place after the character `c` that stands at `p`. -/
def advance (p : Pos) (c : Char) : Pos :=
  if c = '\n' then ⟨p.line + 1, 1⟩ else ⟨p.line, p.column + c.utf8Size⟩

/-- The place after a run of characters that starts at `p`. -/
def after (p : Pos) (cs : List Char) : Pos := cs.foldl advance p

/-- Places in the order in which they are read: by line, then by column. -/
def compare (p q : Pos) : Ordering :=
  (Ord.compare p.line q.line).then (Ord.compare p.column q.column)

/-- The text `line:column`. -/
def render (p : Pos) : String := s!"{p.line}:{p.column}"

/-- An empty run leads nowhere else. -/
theorem after_nil (p : Pos) : p.after [] = p := rfl

/-- The place after two runs is that after the second, from the place after the first. -/
theorem after_append (p : Pos) (cs ds : List Char) : p.after (cs ++ ds) = (p.after cs).after ds :=
  List.foldl_append

end Pos

/-- A name together with the place where it is written. -/
structure Ident where
  name : String
  pos : Pos
deriving DecidableEq, Inhabited

/-- The blank identifier `_` declares nothing. -/
def Ident.isBlank (i : Ident) : Bool := i.name == "_"

end UnusedMethods.Syntax
