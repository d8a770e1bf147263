import UnusedMethods.Types.Table

/-!
# Identical types

A declared type is identical only to itself or to an instance of the same generic type with
identical arguments. Other types are identical when they are built alike.

The comparison follows the methods of interfaces, which may lead back to the interface, so it
counts its steps. `identicalWithin` says whether it came to an end.
-/

namespace UnusedMethods.Types

/-- Conjunction that asks the second question only if the first answer is yes. -/
def andThen (a : Option Bool) (b : Unit → Option Bool) : Option Bool :=
  match a with
  | some true => b ()
  | a => a

/-- Whether a relation holds between two lists as far as both go. -/
def allZip {α : Type} (r : α → α → Option Bool) : List α → List α → Option Bool
  | x :: xs, y :: ys => andThen (r x y) fun _ => allZip r xs ys
  | _, _ => some true

/-- Whether two lists have the same length and a relation holds between them element by element. -/
def allPairs {α : Type} (r : α → α → Option Bool) (xs ys : List α) : Option Bool :=
  if xs.length = ys.length then allZip r xs ys else some false

namespace Table

/-- Whether two types are identical, for a comparison nested at most `n` levels; none if it is
nested deeper. -/
def identicalWithin (t : Table) : Nat → TypeId → TypeId → Option Bool
  | 0, _, _ => none
  | n + 1, a, b =>
    if a = b then some true
    else
      match t.get a, t.get b with
      | .basic x, .basic y => some (x = y)
      | .named x, .named y =>
        match x.origin, y.origin with
        | some o, some p =>
          if o = p then allPairs (t.identicalWithin n) x.typeArgs y.typeArgs else some false
        | _, _ => some false
      | .pointer x, .pointer y => t.identicalWithin n x y
      | .slice x, .slice y => t.identicalWithin n x y
      | .array k x, .array l y => if k = l then t.identicalWithin n x y else some false
      | .map k x, .map l y => andThen (t.identicalWithin n k l) fun _ => t.identicalWithin n x y
      | .chan d x, .chan e y => if d = e then t.identicalWithin n x y else some false
      | .signature x, .signature y =>
        if x.variadic = y.variadic then
          andThen (allPairs (t.identicalWithin n) x.params y.params) fun _ =>
            allPairs (t.identicalWithin n) x.results y.results
        else some false
      | .tuple xs, .tuple ys => allPairs (t.identicalWithin n) xs ys
      | .struct xs, .struct ys =>
        allPairs (fun f g =>
          if f.name = g.name ∧ f.embedded = g.embedded then t.identicalWithin n f.type g.type
          else some false) xs ys
      | .interface x, .interface y =>
        if x.hasTerms || y.hasTerms then some false
        else
          allPairs (fun f g =>
            if (t.func f).name = (t.func g).name then t.identicalWithin n (t.func f).sig (t.func g).sig
            else some false) x.methodList y.methodList
      | .union xs, .union ys =>
        allPairs (fun f g => if f.tilde = g.tilde then t.identicalWithin n f.type g.type else some false) xs ys
      | _, _ => some false

/-- The levels that a comparison is given. No comparison that ends is nested deeper than there are pairs
of types; the rest is more than any machine can follow one that does not end, so that such a comparison
is never taken for an answer. -/
def comparisonBound (t : Table) : Nat := t.types.size * t.types.size + 1 <<< 40

def identical (t : Table) (a b : TypeId) : Bool :=
  (t.identicalWithin t.comparisonBound a b).getD false

/-- Whether two lists of types are identical element by element. -/
def identicalLists (t : Table) (as bs : List TypeId) : Bool :=
  as.length == bs.length && (as.zip bs).all fun (a, b) => t.identical a b

end Table

end UnusedMethods.Types
