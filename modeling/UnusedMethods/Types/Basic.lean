import UnusedMethods.Syntax.Tree

/-!
# Types and functions of a program

Types and functions are kept in a table and named by their index in it. A type refers to its
components by index, so a declared type may refer to itself.
-/

namespace UnusedMethods.Types

open Syntax (Pos ChanDir)

structure TypeId where
  index : Nat
deriving DecidableEq, Hashable

structure FuncId where
  index : Nat
deriving DecidableEq, Hashable

namespace TypeId

/-- The invalid type, which stands for whatever cannot be resolved. -/
def invalid : TypeId := ⟨0⟩

/-- The interface without methods, also called `any`. -/
def emptyInterface : TypeId := ⟨25⟩

def error : TypeId := ⟨28⟩

def comparable : TypeId := ⟨30⟩

instance : Inhabited TypeId := ⟨invalid⟩

end TypeId

/-- Predeclared types, and the types of untyped constants. -/
inductive BasicKind where
  | bool
  | string
  | int
  | int8
  | int16
  | int32
  | int64
  | uint
  | uint8
  | uint16
  | uint32
  | uint64
  | uintptr
  | float32
  | float64
  | complex64
  | complex128
  | unsafePointer
  | untypedBool
  | untypedInt
  | untypedRune
  | untypedFloat
  | untypedString
  | untypedNil
deriving DecidableEq

namespace BasicKind

def all : List BasicKind :=
  [.bool, .string, .int, .int8, .int16, .int32, .int64, .uint, .uint8, .uint16, .uint32, .uint64,
   .uintptr, .float32, .float64, .complex64, .complex128, .unsafePointer, .untypedBool,
   .untypedInt, .untypedRune, .untypedFloat, .untypedString, .untypedNil]

def name : BasicKind → String
  | .bool => "bool"
  | .string => "string"
  | .int => "int"
  | .int8 => "int8"
  | .int16 => "int16"
  | .int32 => "int32"
  | .int64 => "int64"
  | .uint => "uint"
  | .uint8 => "uint8"
  | .uint16 => "uint16"
  | .uint32 => "uint32"
  | .uint64 => "uint64"
  | .uintptr => "uintptr"
  | .float32 => "float32"
  | .float64 => "float64"
  | .complex64 => "complex64"
  | .complex128 => "complex128"
  | .unsafePointer => "unsafe.Pointer"
  | .untypedBool => "untyped bool"
  | .untypedInt => "untyped int"
  | .untypedRune => "untyped rune"
  | .untypedFloat => "untyped float"
  | .untypedString => "untyped string"
  | .untypedNil => "untyped nil"

/-- Whether a kind is that of an untyped constant or of `nil`. -/
def isUntyped : BasicKind → Bool
  | .untypedBool | .untypedInt | .untypedRune | .untypedFloat | .untypedString | .untypedNil => true
  | _ => false

/-- The kind that an untyped constant takes where none is asked for. -/
def default : BasicKind → BasicKind
  | .untypedBool => .bool
  | .untypedInt => .int
  | .untypedRune => .int32
  | .untypedFloat => .float64
  | .untypedString => .string
  | k => k

def typeId : BasicKind → TypeId
  | .bool => ⟨1⟩
  | .string => ⟨2⟩
  | .int => ⟨3⟩
  | .int8 => ⟨4⟩
  | .int16 => ⟨5⟩
  | .int32 => ⟨6⟩
  | .int64 => ⟨7⟩
  | .uint => ⟨8⟩
  | .uint8 => ⟨9⟩
  | .uint16 => ⟨10⟩
  | .uint32 => ⟨11⟩
  | .uint64 => ⟨12⟩
  | .uintptr => ⟨13⟩
  | .float32 => ⟨14⟩
  | .float64 => ⟨15⟩
  | .complex64 => ⟨16⟩
  | .complex128 => ⟨17⟩
  | .unsafePointer => ⟨18⟩
  | .untypedBool => ⟨19⟩
  | .untypedInt => ⟨20⟩
  | .untypedRune => ⟨21⟩
  | .untypedFloat => ⟨22⟩
  | .untypedString => ⟨23⟩
  | .untypedNil => ⟨24⟩

/-- Basic types stand behind the invalid type in the order of `all`. -/
theorem map_typeId_all : all.map (·.typeId.index) = List.range' 1 24 := by decide

end BasicKind

/-- A declared type or an instance of a generic one. -/
structure Named where
  name : String
  /-- Import path of the declaring package; none for predeclared types. -/
  package : Option String
  /-- What the declaration says the type is; possibly again a declared type. -/
  rhs : TypeId
  methods : List FuncId
  typeParams : List TypeId
  /-- The generic declaration of which this is an instance. -/
  origin : Option TypeId
  typeArgs : List TypeId
  /-- Right-hand side and methods have been filled in. -/
  expanded : Bool

/-- Parameters and results. -/
structure Signature where
  params : List TypeId
  results : List TypeId
  variadic : Bool

/-- An interface: what its body says, and its whole method set once that is known. -/
structure Interface where
  explicit : List FuncId
  embedded : List TypeId
  /-- The whole method set by name, once `complete`. -/
  methods : List FuncId
  complete : Bool
  /-- The body restricts the types themselves, not only their methods. -/
  hasTerms : Bool

def Interface.methodList (i : Interface) : List FuncId := if i.complete then i.methods else i.explicit

structure StructField where
  name : String
  type : TypeId
  embedded : Bool

/-- A type parameter and the interface that bounds it. -/
structure TypeParam where
  name : String
  index : Nat
  constraint : TypeId

/-- A term of a union; with a tilde it stands for all types of that underlying type. -/
structure Term where
  tilde : Bool
  type : TypeId

inductive Ty where
  | invalid
  | basic (kind : BasicKind)
  | named (n : Named)
  | pointer (elem : TypeId)
  | slice (elem : TypeId)
  | array (len : Option Nat) (elem : TypeId)
  | map (key value : TypeId)
  | chan (dir : ChanDir) (elem : TypeId)
  | signature (s : Signature)
  | interface (i : Interface)
  | struct (fields : List StructField)
  | tuple (elems : List TypeId)
  | typeParam (p : TypeParam)
  | union (terms : List Term)

/-- What a function belongs to. -/
inductive FuncKind where
  | func
  | method (recv : TypeId) (pointerRecv : Bool)
  | interfaceMethod
deriving DecidableEq

/-- A place in one of the files of a program. -/
structure FilePos where
  file : Nat
  pos : Pos
deriving DecidableEq

structure Func where
  name : String
  sig : TypeId
  package : Option String
  kind : FuncKind
  typeParams : List TypeId
  /-- The declaration of which this is a copy for an instance. -/
  origin : Option FuncId
  pos : Option FilePos

def Func.ofName (name : String) (kind : FuncKind) : Func :=
  { name, sig := .invalid, package := none, kind, typeParams := [], origin := none, pos := none }

instance : Inhabited Func := ⟨.ofName "" .func⟩

def Func.hasPointerRecv (f : Func) : Bool :=
  match f.kind with
  | .method _ pointerRecv => pointerRecv
  | _ => false

end UnusedMethods.Types
