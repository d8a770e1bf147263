import UnusedMethods.Methods.Collect
import UnusedMethods.Types.Members

/-!
# Whether a selected method is a use of a declared one

Whether a type can be assigned to an interface is asked again and again, so the answers are
remembered. A `Memo` carries the proof that its answers are those of the table.
-/

namespace UnusedMethods.Methods

open UnusedMethods.Types

/-! ### Questions that are remembered -/

/-- Which values of a type are meant when it is asked whether they can be assigned to an interface. -/
inductive Form where
  | value
  | valueOrPointer
deriving DecidableEq

/-- A question about a type and an interface. -/
structure Question where
  type : TypeId
  interface : TypeId
  form : Form
deriving DecidableEq

def Question.answer (t : Table) (q : Question) : Bool :=
  match q.form with
  | .value => t.implements q.type q.interface
  | .valueOrPointer => t.satisfies q.type q.interface

/-- Questions that have been asked, with the answers of the table. -/
structure Memo (t : Table) where
  answers : List (Question × Bool)
  truthful : ∀ p ∈ answers, p.2 = p.1.answer t

/-- A computation that remembers answers. -/
abbrev Remembering (t : Table) := StateM (Memo t)

namespace Memo

def empty (t : Table) : Memo t := ⟨[], fun _ h => nomatch h⟩

/-- The answer to a question, which is remembered or else found and noted. -/
def ask {t : Table} (q : Question) : Remembering t Bool := fun m =>
  match m.answers.lookup q with
  | some b => (b, m)
  | none =>
    (q.answer t,
      { answers := (q, q.answer t) :: m.answers
        truthful := by
          intro p hp
          rcases List.mem_cons.1 hp with rfl | hp
          · rfl
          · exact m.truthful p hp })

def implements {t : Table} (id iface : TypeId) : Remembering t Bool := ask ⟨id, iface, .value⟩

def satisfies {t : Table} (id iface : TypeId) : Remembering t Bool := ask ⟨id, iface, .valueOrPointer⟩

end Memo

/-! ### Decisions -/

/-- Why a selected method is a use of a declared one, or that it is none. -/
inductive Decision where
  /-- Nothing is known about the receiver, but name and signature agree. -/
  | noReceiver
  | sameMethod
  /-- The receiver is an instance of the interface that declares the method. -/
  | genericOrigin
  | interfaceReceiver
  /-- The receiver, or the pointer to it, implements the interface. -/
  | satisfied
  | rejected
deriving DecidableEq

def Decision.isMatch (d : Decision) : Bool := d != .rejected

/-- Whether an instance of a generic type stands for the interface of a declaration. -/
def isOrigin (t : Table) (mode : GenericMatch) (called : FuncId) (candidate : MethodDeclaration)
    (recv : TypeId) : Bool :=
  match (t.named? recv).bind (·.origin) with
  | some origin =>
    origin != recv && candidate.generic &&
      match mode with
      | .heuristic => (t.named? origin).any (·.name = candidate.interfaceName)
      | .strict => (t.func called).origin = some candidate.method
  | none => false

def sameName (t : Table) (called : FuncId) (candidate : MethodDeclaration) : Bool :=
  (t.func called).name = (t.func candidate.method).name

def sameShape (t : Table) (called : FuncId) (candidate : MethodDeclaration) : Bool :=
  t.identical (t.func called).sig (t.func candidate.method).sig

/-- Whether selecting the method `called` from a value of type `recv` is a use of a declared method. -/
def Decision.resolve (t : Table) (mode : GenericMatch) (called : FuncId) (candidate : MethodDeclaration)
    (recv : Option TypeId) : Remembering t Decision := do
  match recv.filter fun r => !t.isInvalid r with
  | none => return if sameName t called candidate && sameShape t called candidate then .noReceiver else .rejected
  | some recv =>
    if called = candidate.method then return .sameMethod
    else if !sameName t called candidate then return .rejected
    else if isOrigin t mode called candidate recv then return .genericOrigin
    else if !sameShape t called candidate then return .rejected
    else if t.isInterface recv then
      return if t.identical recv candidate.interface then .interfaceReceiver else .rejected
    else
      return if ← Memo.satisfies recv candidate.interface then .satisfied else .rejected

def Decision.ofSelection (t : Table) (mode : GenericMatch) (called : FuncId) (candidate : MethodDeclaration)
    (recv : Option TypeId) : Decision :=
  ((resolve t mode called candidate recv).run (.empty t)).1

end UnusedMethods.Methods
