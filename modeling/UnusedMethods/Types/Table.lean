import UnusedMethods.Types.Basic

/-!
# The table of types and functions

A table only grows: building a type adds an entry, and the entries of declared types, interfaces
and type parameters are filled in later. Pointer and slice types are entered once for each element
type; an instance of a generic type is entered once for each list of arguments.
-/

namespace UnusedMethods.Types

open Syntax (ChanDir)

/-- All types and functions of a program. -/
structure Table where
  types : Array Ty
  funcs : Array Func
  /-- Declarations are being read: instances stay unexpanded and interfaces incomplete until the
  declarations end. -/
  deferring : Bool

/-- A computation that may add to a table or fill in entries of it. -/
abbrev Build := StateM Table

namespace Table

/-- The predeclared types: the invalid type, the basic types, `any`, `error` and `comparable`. -/
def predeclaredTypes : List Ty :=
  .invalid :: BasicKind.all.map .basic ++
    [.interface { explicit := [], embedded := [], methods := [], complete := true, hasTerms := false },
     .signature { params := [], results := [BasicKind.string.typeId], variadic := false },
     .interface
      { explicit := [⟨0⟩], embedded := [], methods := [⟨0⟩], complete := true, hasTerms := false },
     .named
      { name := "error", package := none, rhs := ⟨27⟩, methods := [], typeParams := [], origin := none,
        typeArgs := [], expanded := true },
     .interface { explicit := [], embedded := [], methods := [], complete := true, hasTerms := true },
     .named
      { name := "comparable", package := none, rhs := ⟨29⟩, methods := [], typeParams := [],
        origin := none, typeArgs := [], expanded := true }]

/-- The table with the predeclared types and the method of `error`. -/
def predeclared : Table where
  types := predeclaredTypes.toArray
  funcs := #[{ Func.ofName "Error" .interfaceMethod with sig := ⟨26⟩ }]
  deferring := false

/-! ### Entries -/

/-- The type at an index; the invalid type where there is none. -/
def get (t : Table) (id : TypeId) : Ty := t.types[id.index]?.getD .invalid

def func (t : Table) (id : FuncId) : Func := t.funcs[id.index]?.getD default

def named? (t : Table) (id : TypeId) : Option Named :=
  match t.get id with
  | .named n => some n
  | _ => none

def modifyType (t : Table) (id : TypeId) (f : Ty → Ty) : Table :=
  { t with types := t.types.modify id.index f }

/-- Replaces the entry of a declared type; other types stay. -/
def modifyNamed (t : Table) (id : TypeId) (f : Named → Named) : Table :=
  t.modifyType id fun
    | .named n => .named (f n)
    | ty => ty

/-- Replaces the entry of an interface; other types stay. -/
def modifyInterface (t : Table) (id : TypeId) (f : Interface → Interface) : Table :=
  t.modifyType id fun
    | .interface i => .interface (f i)
    | ty => ty

def modifyFunc (t : Table) (id : FuncId) (f : Func → Func) : Table :=
  { t with funcs := t.funcs.modify id.index f }

def setConstraint (t : Table) (param constraint : TypeId) : Table :=
  t.modifyType param fun
    | .typeParam p => .typeParam { p with constraint }
    | ty => ty

def setRhs (t : Table) (id rhs : TypeId) : Table :=
  t.modifyNamed id fun n => { n with rhs }

def setTypeParams (t : Table) (id : TypeId) (typeParams : List TypeId) : Table :=
  t.modifyNamed id fun n => { n with typeParams }

def addMethod (t : Table) (id : TypeId) (method : FuncId) : Table :=
  t.modifyNamed id fun n => { n with methods := n.methods ++ [method] }

/-- Drops the embeddings of an interface, which breaks an embedding cycle. -/
def clearEmbedded (t : Table) (id : TypeId) : Table :=
  t.modifyInterface id fun i => { i with embedded := [] }

def setSignature (t : Table) (id : FuncId) (sig : TypeId) : Table :=
  t.modifyFunc id fun f => { f with sig }

/-! ### Questions -/

/-- Follows declared types to what they are, and type parameters to their bound, for at most `n`
steps. -/
def underlyingWithin (t : Table) : Nat → TypeId → TypeId
  | 0, _ => .invalid
  | n + 1, id =>
    match t.get id with
    | .named d => t.underlyingWithin n d.rhs
    | .typeParam p => t.underlyingWithin n p.constraint
    | _ => id

/-- The underlying type. A chain of a hundred declarations or more is taken for a cycle, and its
underlying type is invalid. -/
def underlying (t : Table) (id : TypeId) : TypeId := t.underlyingWithin 100 id

def isInvalid (t : Table) (id : TypeId) : Bool :=
  match t.get id with
  | .invalid => true
  | _ => false

/-- The interface that a type is, seen through declarations and bounds. -/
def interface? (t : Table) (id : TypeId) : Option Interface :=
  match t.get (t.underlying id) with
  | .interface i => some i
  | _ => none

def signature? (t : Table) (id : TypeId) : Option Signature :=
  match t.get (t.underlying id) with
  | .signature s => some s
  | _ => none

/-- Whether a type is an interface, seen through declarations and bounds. -/
def isInterface (t : Table) (id : TypeId) : Bool := (t.interface? id).isSome

def isPointer (t : Table) (id : TypeId) : Bool :=
  match t.get id with
  | .pointer _ => true
  | _ => false

/-- The methods of an interface type; none for other types. -/
def interfaceMethods (t : Table) (id : TypeId) : List FuncId :=
  (t.interface? id).elim [] (·.methodList)

def deref (t : Table) (id : TypeId) : TypeId × Bool :=
  match t.get id with
  | .pointer elem => (elem, true)
  | _ => (id, false)

/-- The name of a declared type, or of the declared type behind a pointer. -/
def namedName? (t : Table) (id : TypeId) : Option String :=
  (t.named? (t.deref id).1).map (·.name)

def isStringerSignature (t : Table) (id : TypeId) : Bool :=
  match t.signature? id with
  | some { params := [], results := [r], .. } =>
    match t.get r with
    | .basic .string => true
    | _ => false
  | _ => false

/-- The type that a constant takes where none is asked for. -/
def defaultType (t : Table) (id : TypeId) : TypeId :=
  match t.get id with
  | .basic k => if k.isUntyped && k != .untypedNil then k.default.typeId else id
  | _ => id

/-- Index of the first entry for which a question has the answer yes. -/
def find? (t : Table) (p : Ty → Bool) : Option TypeId :=
  (t.types.findIdx? p).map (⟨·⟩)

/-- The indices of the entries for which a question has the answer yes, in order. -/
def idsWhere (t : Table) (p : Ty → Bool) : List TypeId :=
  (List.range t.types.size).map TypeId.mk |>.filter fun id => p (t.get id)

def unexpanded (t : Table) : List TypeId :=
  t.idsWhere fun
    | .named n => !n.expanded
    | _ => false

/-- Interfaces whose method set is not known. -/
def incomplete (t : Table) : List TypeId :=
  t.idsWhere fun
    | .interface i => !i.complete
    | _ => false

end Table

/-! ### New entries -/

namespace Build

def push (ty : Ty) : Build TypeId := fun t => (⟨t.types.size⟩, { t with types := t.types.push ty })

def newFunc (f : Func) : Build FuncId := fun t => (⟨t.funcs.size⟩, { t with funcs := t.funcs.push f })

def pointer (elem : TypeId) : Build TypeId := do
  match (← get).find? fun | .pointer e => e = elem | _ => false with
  | some id => return id
  | none => push (.pointer elem)

def slice (elem : TypeId) : Build TypeId := do
  match (← get).find? fun | .slice e => e = elem | _ => false with
  | some id => return id
  | none => push (.slice elem)

def signature (params results : List TypeId) (variadic : Bool) : Build TypeId :=
  push (.signature { params, results, variadic })

def typeParam (name : String) (index : Nat) : Build TypeId :=
  push (.typeParam { name, index, constraint := .invalid })

def newNamed (name : String) (package : Option String) : Build TypeId :=
  push (.named { name, package, rhs := .invalid, methods := [], typeParams := [], origin := none,
                 typeArgs := [], expanded := true })

end Build

end UnusedMethods.Types
