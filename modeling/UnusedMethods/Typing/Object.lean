import UnusedMethods.Types.Table

/-!
# What names denote, and what is known about a file
-/

namespace UnusedMethods.Typing

open Syntax UnusedMethods.Types

structure PackageId where
  index : Nat
deriving DecidableEq

/-- Predeclared functions. -/
inductive Builtin where
  | append
  | cap
  | clear
  | close
  | complex
  | copy
  | delete
  | imag
  | len
  | make
  | max
  | min
  | new
  | panic
  | print
  | println
  | real
  | recover
deriving DecidableEq

namespace Builtin

def all : List Builtin :=
  [.append, .cap, .clear, .close, .complex, .copy, .delete, .imag, .len, .make, .max, .min, .new,
   .panic, .print, .println, .real, .recover]

def name : Builtin → String
  | .append => "append"
  | .cap => "cap"
  | .clear => "clear"
  | .close => "close"
  | .complex => "complex"
  | .copy => "copy"
  | .delete => "delete"
  | .imag => "imag"
  | .len => "len"
  | .make => "make"
  | .max => "max"
  | .min => "min"
  | .new => "new"
  | .panic => "panic"
  | .print => "print"
  | .println => "println"
  | .real => "real"
  | .recover => "recover"

def takesType : Builtin → Bool
  | .make | .new => true
  | _ => false

end Builtin

/-- What a name denotes. -/
inductive Object where
  | var (type : TypeId)
  | const (type : TypeId)
  | typeName (type : TypeId)
  | func (id : FuncId)
  | package (id : PackageId)
  | builtin (b : Builtin)
  | nil
deriving DecidableEq

/-- The type of an object; that of a type name is the type itself. -/
def Object.type (t : Table) : Object → TypeId
  | .var id | .const id | .typeName id => id
  | .func f => (t.func f).sig
  | .nil => BasicKind.untypedNil.typeId
  | .package _ | .builtin _ => .invalid

/-! ### Scopes -/

/-- Names and what they denote. -/
structure Scope where
  entries : List (String × Object)

namespace Scope

def empty : Scope := ⟨[]⟩

def find? (s : Scope) (name : String) : Option Object := s.entries.lookup name

/-- Lets a name denote an object, whatever it denoted before. -/
def insert (s : Scope) (name : String) (obj : Object) : Scope :=
  ⟨(name, obj) :: s.entries.filter fun e => e.1 != name⟩

def insertAll (s t : Scope) : Scope := t.entries.foldl (fun s e => s.insert e.1 e.2) s

def sorted (s : Scope) : List (String × Object) := s.entries.mergeSort fun a b => a.1 ≤ b.1

def predeclared : Scope where
  entries :=
    ((BasicKind.all.filter fun k => !k.isUntyped && k != .unsafePointer).map fun k =>
      (k.name, .typeName k.typeId)) ++
    [("byte", .typeName BasicKind.uint8.typeId), ("rune", .typeName BasicKind.int32.typeId),
     ("error", .typeName .error), ("any", .typeName .emptyInterface),
     ("comparable", .typeName .comparable), ("true", .const BasicKind.untypedBool.typeId),
     ("false", .const BasicKind.untypedBool.typeId), ("iota", .const BasicKind.untypedInt.typeId),
     ("nil", .nil)] ++
    Builtin.all.map fun b => (b.name, .builtin b)

end Scope

/-! ### Facts about expressions -/

inductive SelectionKind where
  | fieldVal
  | methodVal
  | methodExpr
deriving DecidableEq

/-- A resolved selector `x.f`. -/
structure Selection where
  kind : SelectionKind
  /-- The type of `x`. -/
  recv : TypeId
  method : Option FuncId
  type : TypeId

/-- What is known about one file. Facts about expressions are kept by the number of the expression;
the latest fact stands first and counts. -/
structure FileInfo where
  types : List (Nat × TypeId)
  selections : List (Nat × Selection)
  uses : List (Nat × Object)
  /-- What the names declared at places denote; each place stands once. -/
  defs : List (Pos × Object)

namespace FileInfo

def empty : FileInfo := ⟨[], [], [], []⟩

def recordedType? (info : FileInfo) (id : Nat) : Option TypeId := info.types.lookup id

def type? (info : FileInfo) (id : Nat) : Option TypeId :=
  (info.recordedType? id).filter (· != .invalid)

def selection? (info : FileInfo) (id : Nat) : Option Selection := info.selections.lookup id

def use? (info : FileInfo) (id : Nat) : Option Object := info.uses.lookup id

def def? (info : FileInfo) (pos : Pos) : Option Object := info.defs.lookup pos

end FileInfo

end UnusedMethods.Typing
