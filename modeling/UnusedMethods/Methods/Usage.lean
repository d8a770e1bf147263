import UnusedMethods.Methods.Binding
import UnusedMethods.Methods.Match
import UnusedMethods.Syntax.Traversal

/-!
# Which declared methods are used

One walk through the files of a package. Declarations of variables are noted as bindings; a selected
method is a use of the declared methods that match it, or that its variable is bound to; and a call of
a function that formats its arguments is a use of `String` methods.

Methods that are known to be used are not looked at again, and when as many methods are used as there
are, the walk ends.
-/

namespace UnusedMethods.Methods

open Syntax UnusedMethods.Types Typing

/-- What a walk has found. -/
structure Progress (t : Table) where
  bindings : Bindings
  memo : Memo t
  used : UsedSet

namespace Progress

def start (t : Table) : Progress t := ⟨.empty, .empty t, .empty⟩

def markOne {t : Table} (test : MethodDeclaration → Remembering t Bool) (p : Progress t)
    (d : MethodDeclaration) : Progress t :=
  let (hit, memo) := (test d).run p.memo
  { p with memo, used := if hit then p.used.insert d.method else p.used }

def mark {t : Table} (p : Progress t) (ds : List MethodDeclaration)
    (test : MethodDeclaration → Remembering t Bool) : Progress t :=
  ds.foldl (markOne test) p

end Progress

/-- What a walk goes by. -/
structure Search where
  unit : CheckedPackage
  registry : Registry
  mode : GenericMatch

namespace Search

abbrev table (s : Search) : Table := s.unit.table

def allUsed (s : Search) (p : Progress s.table) : Bool := p.used.size == s.registry.size

def unused (s : Search) (p : Progress s.table) (name : String) : List MethodDeclaration :=
  (s.registry.candidates name).filter fun d => !p.used.contains d.method

/-! ### Selected methods -/

def sameSignature (s : Search) (called : FuncId) (d : MethodDeclaration) : Bool :=
  s.table.identical (s.table.func d.method).sig (s.table.func called).sig

/-- The types declared in the package to which the values of a variable may point. -/
def pointedTypes (s : Search) (b : Bindings) (var : String) : List TypeId :=
  (b.pointeesOf var).flatMap (declaredTypesNamed s.table s.unit.package)

/-- A variable that copies another one stands for the interface that the other one is declared with. -/
def copiedVariable (s : Search) (p : Progress s.table) (var : String) (called : FuncId) : Progress s.table :=
  match p.bindings.copied? var with
  | some source =>
    p.mark (s.unused p (s.table.func called).name) fun d =>
      return d.interfaceName = source && s.sameSignature called d
  | none => p

/-- A variable whose values point to declared types stands for the interfaces that these satisfy. -/
def pointingVariable (s : Search) (p : Progress s.table) (var : String) (called : FuncId) : Progress s.table :=
  if (p.bindings.pointeesOf var).isEmpty then p
  else
    p.mark (s.unused p (s.table.func called).name) fun d => do
      if s.sameSignature called d then
        (s.pointedTypes p.bindings var).anyM fun id => Memo.satisfies id d.interface
      else return false

/-- The method `called` is selected from `operand`, which has the type `recv`. -/
def selection (s : Search) (p : Progress s.table) (operand : Expr) (called : FuncId) (recv : TypeId) :
    Progress s.table :=
  if s.allUsed p then p
  else
    let p := p.mark (s.unused p (s.table.func called).name) fun d =>
      return (← Decision.resolve s.table s.mode called d (some recv)).isMatch
    match operand with
    | .ident _ var => s.pointingVariable (s.copiedVariable p var called) var called
    | _ => p

/-! ### Calls -/

/-- The package whose functions call `String`. -/
def formattingPackage : String := "fmt"

/-- Whether an object is a function that calls the `String` method of its arguments. -/
def isFormattingFunction (s : Search) : Object → Bool
  | .func f => (s.table.func f).package = some formattingPackage
  | _ => false

/-- Whether an expression denotes a function that calls the `String` method of its arguments. -/
def isFormatter (s : Search) (info : FileInfo) : Expr → Bool
  | .ident node _ | .selector node _ _ => (info.use? node.id).any s.isFormattingFunction
  | _ => false

/-- Whether a declared method is `String() string` and the only one that its interface declares. -/
def isSoleStringer (s : Search) (d : MethodDeclaration) : Bool :=
  d.name = "String" && s.table.isStringerSignature (s.table.func d.method).sig &&
    s.registry.declaredBy d.interfaceName = 1

def call (s : Search) (info : FileInfo) (p : Progress s.table) (func : Expr) (args : List Expr) :
    Progress s.table :=
  if s.isFormatter info func then
    let stringers := (s.unused p "String").filter s.isSoleStringer
    let types := args.filterMap fun a => info.type? a.id
    types.foldl (fun p id => p.mark stringers fun d => Memo.implements id d.interface) p
  else p

/-! ### The walk -/

def visit (s : Search) (info : FileInfo) (p : Progress s.table) : Item → Progress s.table
  | .varSpec spec => { p with bindings := p.bindings.record s.table info spec }
  | .expr (.selector node operand _) =>
    match info.selection? node.id with
    | some { kind := .methodVal, recv, method := some m, .. }
    | some { kind := .methodExpr, recv, method := some m, .. } => s.selection p operand m recv
    | _ => p
  | .expr (.call _ func _ args _) => s.call info p func args
  | .expr _ => p

def visitFile (s : Search) (p : Progress s.table) (file : File × FileInfo) : Progress s.table :=
  file.1.tree.items.foldl (s.visit file.2) p

/-- Walks through files, until all methods are used. -/
def visitFiles (s : Search) (p : Progress s.table) : List (File × FileInfo) → Progress s.table
  | [] => p
  | file :: files => if s.allUsed p then p else s.visitFiles (s.visitFile p file) files

end Search

/-- The registered methods that the files of a package use; those that the filter leaves out do not
count. -/
def track (u : CheckedPackage) (registry : Registry) (filter : PathFilter) (options : Options) : UsedSet :=
  let s : Search := { unit := u, registry, mode := options.genericMatch }
  (s.visitFiles (.start s.table) (u.files filter)).used

def packageBindings (u : CheckedPackage) (filter : PathFilter) : Bindings :=
  (u.files filter).foldl (fun b (file, info) =>
    (file.tree.items.filterMap Item.varSpec?).foldl (fun b spec => b.record u.table info spec) b) .empty

end UnusedMethods.Methods
