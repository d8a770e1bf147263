import UnusedMethods.Types.Identity

/-!
# Members and method sets

The fields and methods of a type, with those that it gets from embedded fields, and whether a type
implements an interface.
-/

namespace UnusedMethods.Types

/-- A field, by its type, or a method. -/
inductive Member where
  | field (type : TypeId)
  | method (func : FuncId)
deriving DecidableEq

structure Lookup where
  member : Member
  /-- The way to the member goes through a pointer. -/
  indirect : Bool
deriving DecidableEq

/-- Where a search has come to: the types to look at and the declared types already seen. -/
structure Frontier where
  /-- Types at the next depth of embedding, and whether the way to each goes through a pointer. -/
  next : List (TypeId × Bool)
  seen : List TypeId

namespace Table

def funcNamed? (t : Table) (name : String) (funcs : List FuncId) : Option FuncId :=
  funcs.find? fun f => (t.func f).name = name

/-- The member that a type has of itself: a method attached to it, a field, or a method of the
interface that it is. -/
def ownMember? (t : Table) (name : String) (id : TypeId) : Option Member :=
  let attached := (t.named? id).elim none fun d => t.funcNamed? name d.methods
  match attached with
  | some m => some (.method m)
  | none =>
    let id :=
      match t.get id with
      | .typeParam p => p.constraint
      | _ => id
    match t.get (t.underlying id) with
    | .struct fields => (fields.find? (·.name = name)).map (.field ·.type)
    | .interface i => (t.funcNamed? name i.methodList).map .method
    | _ => none

def embeddedTypes (t : Table) (id : TypeId) : List (TypeId × Bool) :=
  let id :=
    match t.get id with
    | .typeParam p => p.constraint
    | _ => id
  match t.get (t.underlying id) with
  | .struct fields => (fields.filter (·.embedded)).map fun f => t.deref f.type
  | _ => []

def searchLevel (t : Table) (name : String) : List (TypeId × Bool) → Frontier → Lookup ⊕ Frontier
  | [], front => .inr front
  | (id, indirect) :: rest, front =>
    let declared := (t.named? id).isSome
    if declared && front.seen.contains id then t.searchLevel name rest front
    else
      match t.ownMember? name id with
      | some member => .inl { member, indirect }
      | none =>
        t.searchLevel name rest
          { next := front.next ++ (t.embeddedTypes id).map fun (id, ptr) => (id, indirect || ptr)
            seen := if declared then id :: front.seen else front.seen }

/-- Looks for a member depth by depth, for at most `n` depths. -/
def searchWithin (t : Table) (name : String) : Nat → Frontier → Option Lookup
  | 0, _ => none
  | n + 1, front =>
    if front.next.isEmpty then none
    else
      match t.searchLevel name front.next { front with next := [] } with
      | .inl found => some found
      | .inr front => t.searchWithin name n front

/-- The field or method of a type with a name. Members of embedded fields count too; the least depth
of embedding wins, and at the same depth the first. No type stands on the way to a member more than
twice, so twice the size of the table bounds the depth. -/
def lookup (t : Table) (id : TypeId) (name : String) : Option Lookup :=
  t.searchWithin name (2 * t.types.size + 2) { next := [t.deref id], seen := [] }

/-- Whether a type has a method with a name and an identical signature. Methods with a pointer
receiver count if the value is addressable or is reached through a pointer. -/
def hasMethod (t : Table) (id : TypeId) (name : String) (sig : TypeId) (addressable : Bool) : Bool :=
  match t.lookup id name with
  | some { member := .method m, indirect } =>
    let f := t.func m
    if f.hasPointerRecv && !(addressable || indirect) then false else t.identical f.sig sig
  | _ => false

def implementsWith (t : Table) (id iface : TypeId) (addressable : Bool) : Bool :=
  match t.interface? iface with
  | none => false
  | some target =>
    if target.hasTerms || t.isInvalid (t.underlying id) then false
    else
      target.methodList.all fun m => t.hasMethod id (t.func m).name (t.func m).sig addressable

def implements (t : Table) (id iface : TypeId) : Bool := t.implementsWith id iface false

def satisfies (t : Table) (id iface : TypeId) : Bool :=
  t.implements id iface ||
    (!t.isPointer id && !t.isInterface id && t.implementsWith id iface true)

end Table

end UnusedMethods.Types
