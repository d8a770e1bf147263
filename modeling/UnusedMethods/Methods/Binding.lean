import UnusedMethods.Typing.Package

/-!
# Where the values of interface variables come from

A variable of an interface type that is declared with a value is bound to the declared type of the
variable that it copies, or to the type to which its value points. Bindings are kept by the name of
the variable for a whole package.
-/

namespace UnusedMethods.Methods

open Syntax UnusedMethods.Types Typing

structure Bindings where
  /-- Names of variables and of the types of the variables that they copy, the latest first. -/
  copies : List (String × String)
  /-- Names of variables and of the types to which their values point, the latest first. -/
  pointees : List (String × String)

namespace Bindings

def empty : Bindings := ⟨[], []⟩

def copied? (b : Bindings) (var : String) : Option String := b.copies.lookup var

/-- The types to which the values of a variable point, in the order of the declarations. -/
def pointeesOf (b : Bindings) (var : String) : List String :=
  ((b.pointees.filter fun p => p.1 = var).map (·.2)).reverse

def bind (b : Bindings) (t : Table) (info : FileInfo) (var : String) (value : Expr) : Bindings :=
  match value with
  | .ident node _ =>
    match info.use? node.id with
    | some (.var type) | some (.const type) =>
      match t.named? type with
      | some d => { b with copies := (var, d.name) :: b.copies }
      | none => b
    | _ => b
  | .unary node "&" _ =>
    match (info.type? node.id).map t.deref with
    | some (elem, true) =>
      match t.named? elem with
      | some d => { b with pointees := (var, d.name) :: b.pointees }
      | none => b
    | _ => b
  | _ => b

/-- Notes a `var` spec with one name and one value, if the variable is of an interface type. -/
def record (b : Bindings) (t : Table) (info : FileInfo) (spec : ValueSpec) : Bindings :=
  match spec.names, spec.values with
  | [name], [value] =>
    match info.def? name.pos with
    | some (.var type) => if t.isInterface type then b.bind t info name.name value else b
    | _ => b
  | _, _ => b

end Bindings

def declaredTypesNamed (t : Table) (package : Package) (name : String) : List TypeId :=
  let declared := package.infos.flatMap fun info => info.defs.filterMap fun
    | (_, .typeName id) => some id
    | _ => none
  (declared.filter fun id => (t.named? id).any fun d => d.origin.isNone && d.name = name).eraseDups

end UnusedMethods.Methods
