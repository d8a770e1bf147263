import UnusedMethods.Types.Table

/-!
# The text of a type
-/

namespace UnusedMethods.Types

open Syntax (ChanDir)

/-- What stands in front of the element type of a channel. -/
def chanMark : ChanDir → String
  | .both => "chan "
  | .send => "chan<- "
  | .recv => "<-chan "

namespace Table

/-- The text of a type, for a type nested fewer than `n` levels; what is deeper is left out. -/
def renderWithin (t : Table) : Nat → TypeId → String
  | 0, _ => "..."
  | n + 1, id =>
    let list (ids : List TypeId) : String := ", ".intercalate (ids.map (t.renderWithin n))
    match t.get id with
    | .invalid => "invalid type"
    | .basic k => k.name
    | .named d =>
      let base := d.package.elim d.name fun path => path ++ "." ++ d.name
      if d.typeArgs.isEmpty then base else base ++ "[" ++ list d.typeArgs ++ "]"
    | .pointer elem => "*" ++ t.renderWithin n elem
    | .slice elem => "[]" ++ t.renderWithin n elem
    | .array len elem => "[" ++ len.elim "?" toString ++ "]" ++ t.renderWithin n elem
    | .map key value => "map[" ++ t.renderWithin n key ++ "]" ++ t.renderWithin n value
    | .chan dir elem => chanMark dir ++ t.renderWithin n elem
    | .signature s =>
      let head := "func(" ++ list s.params ++ ")"
      match s.results with
      | [] => head
      | [_] => head ++ " " ++ list s.results
      | _ => head ++ " (" ++ list s.results ++ ")"
    | .interface i =>
      "interface\x7b" ++ "; ".intercalate (i.methodList.map fun m => (t.func m).name) ++ "\x7d"
    | .struct fields =>
      "struct\x7b" ++
        "; ".intercalate (fields.map fun f => f.name ++ " " ++ t.renderWithin n f.type) ++ "\x7d"
    | .tuple elems => "(" ++ list elems ++ ")"
    | .typeParam p => p.name
    | .union terms =>
      " | ".intercalate (terms.map fun m => (if m.tilde then "~" else "") ++ t.renderWithin n m.type)

/-- The text of a type. Types nested deeper than sixteen levels are cut. -/
def render (t : Table) (id : TypeId) : String := t.renderWithin 17 id

end Table

end UnusedMethods.Types
