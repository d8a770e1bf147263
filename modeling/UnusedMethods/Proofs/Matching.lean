import UnusedMethods.Methods.Match

/-!
# Remembered answers

A computation that remembers answers gives the same result whatever it remembers, because every memo
is truthful. So the decision about a selected method does not depend on what was asked before.
-/

namespace UnusedMethods.Methods

open UnusedMethods.Types

/-! ## Results that do not depend on the memo -/

/-- The computation has the result `a`, whatever is remembered when it starts. -/
def Remembering.Gives {t : Table} {α : Type} (x : Remembering t α) (a : α) : Prop :=
  ∀ memo, (x.run memo).1 = a

namespace Remembering.Gives

variable {t : Table} {α β : Type}

theorem pure (a : α) : Gives (Pure.pure a : Remembering t α) a := fun _ => rfl

theorem bind {x : Remembering t α} {f : α → Remembering t β} {a : α} {b : β} (hx : Gives x a)
    (hf : Gives (f a) b) : Gives (x >>= f) b := by
  intro memo
  have hrun : ((x >>= f).run memo).1 = ((f (x.run memo).1).run (x.run memo).2).1 := rfl
  rw [hrun, hx memo]
  exact hf _

theorem anyM {q : α → Remembering t Bool} {p : α → Bool} (h : ∀ a, Gives (q a) (p a)) (as : List α) :
    Gives (as.anyM q) (as.any p) := by
  induction as with
  | nil => exact pure false
  | cons a as ih =>
    rw [List.anyM_cons, List.any_cons]
    refine (h a).bind ?_
    cases p a with
    | true => exact pure true
    | false => exact ih

end Remembering.Gives

/-! ## Questions -/

theorem Memo.answer_of_lookup {t : Table} (memo : Memo t) {q : Question} {b : Bool}
    (h : memo.answers.lookup q = some b) : b = q.answer t := by
  obtain ⟨l₁, l₂, heq, -⟩ := List.lookup_eq_some_iff.1 h
  exact memo.truthful (q, b) (by rw [heq]; simp)

theorem Memo.ask_gives {t : Table} (q : Question) : (Memo.ask q : Remembering t Bool).Gives (q.answer t) := by
  intro memo
  show (Memo.ask q memo).1 = q.answer t
  unfold Memo.ask
  split
  · rename_i h
    exact memo.answer_of_lookup h
  · rfl

theorem Memo.implements_gives {t : Table} (id iface : TypeId) :
    (Memo.implements id iface : Remembering t Bool).Gives (t.implements id iface) :=
  ask_gives _

theorem Memo.satisfies_gives {t : Table} (id iface : TypeId) :
    (Memo.satisfies id iface : Remembering t Bool).Gives (t.satisfies id iface) :=
  ask_gives _

/-! ## Decisions -/

namespace Decision

variable (t : Table) (mode : GenericMatch) (called : FuncId) (candidate : MethodDeclaration)

/-- The decision about a receiver whose type is known, without a memo. -/
def ofReceiver (recv : TypeId) : Decision :=
  if called = candidate.method then .sameMethod
  else if !sameName t called candidate then .rejected
  else if isOrigin t mode called candidate recv then .genericOrigin
  else if !sameShape t called candidate then .rejected
  else if t.isInterface recv then
    if t.identical recv candidate.interface then .interfaceReceiver else .rejected
  else if t.satisfies recv candidate.interface then .satisfied
  else .rejected

/-- The decision, without a memo. -/
def ofReceiver? (recv : Option TypeId) : Decision :=
  match recv.filter fun r => !t.isInvalid r with
  | none => if sameName t called candidate && sameShape t called candidate then .noReceiver else .rejected
  | some recv => ofReceiver t mode called candidate recv

private theorem resolve_gives_ofReceiver (recv : Option TypeId) :
    (resolve t mode called candidate recv).Gives (ofReceiver? t mode called candidate recv) := by
  unfold resolve ofReceiver? ofReceiver
  -- the branches of the two are the same; only the last one asks a question
  cases recv.filter fun r => !t.isInvalid r with
  | none => exact .pure _
  | some recv =>
    dsimp only
    split
    · exact .pure _
    split
    · exact .pure _
    split
    · exact .pure _
    split
    · exact .pure _
    split
    · exact .pure _
    · exact (Memo.satisfies_gives _ _).bind (.pure _)

/-- The decision on an empty memo is the one without a memo. -/
theorem ofSelection_eq (recv : Option TypeId) :
    ofSelection t mode called candidate recv = ofReceiver? t mode called candidate recv :=
  resolve_gives_ofReceiver t mode called candidate recv (.empty t)

/-- Whatever is remembered, the decision is the one that is taken when nothing is remembered. -/
theorem resolve_gives (recv : Option TypeId) :
    (resolve t mode called candidate recv).Gives (ofSelection t mode called candidate recv) := by
  rw [ofSelection_eq]
  exact resolve_gives_ofReceiver t mode called candidate recv

@[simp] theorem isMatch_iff {d : Decision} : d.isMatch = true ↔ d ≠ .rejected := by
  simp [isMatch]

end Decision

end UnusedMethods.Methods
