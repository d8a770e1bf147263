import UnusedMethods.Types.Generics

/-!
# Inference of type arguments

The type of a parameter is compared with the type of an argument; where a type parameter stands in
the one, the other shows what it is.
-/

namespace UnusedMethods.Types.Table

/-- Adds to `bound` what the type of an argument shows about type parameters, for types nested at
most `n` levels. -/
def unifyWithin (t : Table) (typeParams : List TypeId) : Nat → TypeId → TypeId → Subst → Subst
  | 0, _, _, bound => bound
  | n + 1, param, arg, bound =>
    let unifyLists (ps as : List TypeId) (bound : Subst) : Subst :=
      (ps.zip as).foldl (fun bound (p, a) => t.unifyWithin typeParams n p a bound) bound
    if typeParams.contains param then
      if (bound.lookup param).isSome || t.isInvalid arg then bound
      else bound ++ [(param, t.defaultType arg)]
    else
      match t.get param, t.get arg with
      | .pointer p, .pointer a => t.unifyWithin typeParams n p a bound
      | .slice p, .slice a => t.unifyWithin typeParams n p a bound
      | .array _ p, .array _ a => t.unifyWithin typeParams n p a bound
      | .chan _ p, .chan _ a => t.unifyWithin typeParams n p a bound
      | .map pk pv, .map ak av => unifyLists [pk, pv] [ak, av] bound
      | .signature p, .signature a => unifyLists p.results a.results (unifyLists p.params a.params bound)
      | .named p, .named a =>
        if p.origin.isSome ∧ p.origin = a.origin then unifyLists p.typeArgs a.typeArgs bound else bound
      | _, _ => bound

/-- Adds to `bound` what the type of an argument shows about type parameters. The components that
are compared stand before the type in the table, so the size of the table bounds the nesting. -/
def unify (t : Table) (param arg : TypeId) (typeParams : List TypeId) (bound : Subst) : Subst :=
  t.unifyWithin typeParams (t.types.size + 1) param arg bound

end UnusedMethods.Types.Table
