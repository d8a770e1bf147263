import UnusedMethods.Proofs.SameAnswers

/-!
# Building types in step

Two computations are in step if, run on tables between which there is a correspondence, they lead to tables between which
there is a larger one, and their results correspond. The second table may have entries to which nothing corresponds, so
that the computations do not find the same indices, and the bounds on the nesting of calls are not the same either.

A correspondence is only kept up between tables in which nothing has to be filled in later (`Table.Calm`). There, an
instance is filled in and an interface completed when it is entered, and calls do not nest deeper than substitution may.
-/

namespace UnusedMethods.Types

variable {α α' β β' : Type} {k : Correspondence} {s t : Table}

/-! ## Tables in which nothing is missing -/

/-- Unless declarations are being read, method sets are known and instances are filled in. -/
structure Table.Calm (t : Table) : Prop where
  known : t.MethodSetsKnown
  filled : t.InstancesFilled

namespace Table

theorem calm_iff : t.Calm ↔ (t.deferring = false → ∀ id, (t.get id).isOpen = false) := by
  constructor
  · intro h hdeferring id
    exact Ty.isOpen_eq_false.2 ⟨h.known hdeferring id, h.filled hdeferring id⟩
  · intro h
    exact ⟨fun hdeferring id => (Ty.isOpen_eq_false.1 (h hdeferring id)).1,
      fun hdeferring id => (Ty.isOpen_eq_false.1 (h hdeferring id)).2⟩

theorem Calm.withType (h : t.Calm) {ty : Ty} (hopen : t.deferring = false → ty.isOpen = false) : (t.withType ty).Calm := by
  refine calm_iff.2 fun hdeferring id => ?_
  by_cases hid : id = t.nextType
  · rw [hid, get_withType_nextType]
    exact hopen hdeferring
  · rw [get_withType hid]
    exact calm_iff.1 h hdeferring id

theorem Calm.withFunc (h : t.Calm) (f : Func) : (t.withFunc f).Calm := ⟨h.known, h.filled⟩

/-- A type that has been filled in may be changed, if nothing is missing of it then. -/
theorem Calm.modifyType (h : t.Calm) {id : TypeId} {f : Ty → Ty}
    (hf : (t.get id).isOpen = false → (f (t.get id)).isOpen = false) : (t.modifyType id f).Calm := by
  refine calm_iff.2 fun hdeferring id' => ?_
  have hclosed := calm_iff.1 h hdeferring
  by_cases heq : id' = id
  · by_cases hid : t.HasType id
    · rw [heq, get_modifyType_self hid]
      exact hf (hclosed id)
    · rw [heq, get_eq_invalid_of_not_hasType fun hhas => hid (hasType_modifyType.1 hhas)]
      rfl
  · rw [get_modifyType_of_ne heq]
    exact hclosed id'

theorem Calm.modifyNamed (h : t.Calm) {id : TypeId} {f : Named → Named}
    (hf : ∀ d, (f d).origin = d.origin ∧ (f d).expanded = d.expanded) : (t.modifyNamed id f).Calm := by
  refine h.modifyType fun hclosed => ?_
  cases hget : t.get id with
  | named d =>
    rw [hget] at hclosed
    have hsame : (Ty.named (f d)).isOpen = (Ty.named d).isOpen := by
      simp only [Ty.isOpen, Ty.isIncomplete, Ty.isUnexpanded, (hf d).1, (hf d).2]
    exact hsame.trans hclosed
  | _ => rwa [hget] at hclosed

end Table

theorem Ty.Alike.isOpen {x y : Ty} (h : x.Alike k y) : y.isOpen = x.isOpen := by
  cases h with
  | named h => simp only [Ty.isOpen, Ty.isIncomplete, Ty.isUnexpanded, h.expanded, isSome_of_optionRel h.origin]
  | interface h => simp only [Ty.isOpen, Ty.isIncomplete, Ty.isUnexpanded, h.complete]
  | _ => rfl

namespace Correspondence

/-- What holds of two results that correspond goes on to hold. -/
def Kept (Q : Correspondence → α → β → Prop) : Prop := ∀ k k' a b, Grows k k' → Q k a b → Q k' a b

theorem Kept.types : Kept Correspondence.types := fun _ _ _ _ hk h => hk.types h

theorem Kept.funcs : Kept Correspondence.funcs := fun _ _ _ _ hk h => hk.funcs h

theorem Kept.always : Kept fun _ (_ : α) (_ : β) => True := fun _ _ _ _ _ _ => trivial

theorem Kept.forall₂ {Q : Correspondence → α → β → Prop} (hQ : Kept Q) : Kept fun k => List.Forall₂ (Q k) :=
  fun _ _ _ _ hk h => h.imp fun _ _ => hQ _ _ _ _ hk

namespace Between

/-- Nothing is missing in the first table if nothing is missing in the second. -/
theorem calmLeft (h : k.Between s t) (hcalm : t.Calm) : s.Calm := by
  refine Table.calm_iff.2 fun hdeferring id => ?_
  by_cases hid : s.HasType id
  · obtain ⟨b, hb⟩ := h.total hid
    rw [← (h.get hb).isOpen]
    exact Table.calm_iff.1 hcalm (h.deferring.trans hdeferring) b
  · rw [Table.get_eq_invalid_of_not_hasType hid]
    rfl

theorem deferringLeft (h : k.Between s t) : s.deferring = k.base.deferring := h.deferring.symm.trans h.base.deferring

/-- What is entered next is none of what the second table must not lose. -/
theorem not_hasType_base (h : k.Between s t) : ¬ k.base.HasType t.nextType :=
  fun hhas => Table.not_hasType_nextType (h.base.hasType hhas)

end Between

/-- Two outcomes correspond. -/
def Outcome (k : Correspondence) (r : α × Table) (r' : β × Table) (Q : Correspondence → α → β → Prop) : Prop :=
  ∃ k', k.Grows k' ∧ k'.Between r.2 r'.2 ∧ r'.2.Calm ∧ Q k' r.1 r'.1

theorem Outcome.of_grows {k' : Correspondence} {r : α × Table} {r' : β × Table} {Q : Correspondence → α → β → Prop}
    (hk : k.Grows k') (h : k'.Outcome r r' Q) : k.Outcome r r' Q := by
  obtain ⟨k₂, hk₂, h⟩ := h
  exact ⟨k₂, hk.trans hk₂, h⟩

end Correspondence

open Correspondence (Kept Outcome)

/-! ## Computations on tables -/

/-- Run on tables between which there is a correspondence, the computations have outcomes that correspond. -/
def Build.InStep (k : Correspondence) (x : Build α) (y : Build β) (Q : Correspondence → α → β → Prop) : Prop :=
  ∀ k₁ s t, k.Grows k₁ → k₁.Between s t → t.Calm → k₁.Outcome (x.run s) (y.run t) Q

/-- The same for computations that may run out of their bounds, which they do not. -/
def Expansion.InStep (k : Correspondence) (x : Expansion α) (y : Expansion β) (Q : Correspondence → α → β → Prop) : Prop :=
  ∀ k₁ s t, k.Grows k₁ → k₁.Between s t → t.Calm →
    ∃ r r', StateT.run x s = some r ∧ StateT.run y t = some r' ∧ k₁.Outcome r r' Q

theorem Build.run_get (f : Table → Build α) (t : Table) : (get >>= f).run t = (f t).run t := rfl

theorem Expansion.run_get (f : Table → Expansion α) (t : Table) : StateT.run (get >>= f) t = StateT.run (f t) t := rfl

theorem Expansion.run_bind_of {x : Expansion α} {a : α} {t' : Table} (h : StateT.run x t = some (a, t'))
    (f : α → Expansion β) : StateT.run (x >>= f) t = StateT.run (f a) t' := by
  rw [StateT.run_bind, h]
  rfl

theorem Expansion.run_forIn {f : α → β → Expansion (ForInStep β)} (step : β → α → β)
    (h : ∀ a b, StateT.run (f a b) t = some (.yield (step b a), t)) (as : List α) (b : β) :
    StateT.run (ForIn.forIn as b f) t = some (as.foldl step b, t) := by
  induction as generalizing b with
  | nil => rfl
  | cons a as ih =>
    rw [List.forIn_cons, Expansion.run_bind_of (h a b)]
    exact ih (step b a)

namespace Build.InStep

theorem post {x : Build α} {y : Build β} {Q R : Correspondence → α → β → Prop} (h : InStep k x y Q)
    (hQR : ∀ k a b, Q k a b → R k a b) : InStep k x y R := by
  intro k₁ s t hk hst hcalm
  obtain ⟨k₂, hk₂, hst₂, hcalm₂, hQ⟩ := h k₁ s t hk hst hcalm
  exact ⟨k₂, hk₂, hst₂, hcalm₂, hQR k₂ _ _ hQ⟩

theorem pure {a : α} {b : β} {Q : Correspondence → α → β → Prop} (hQ : Kept Q) (h : Q k a b) :
    InStep k (Pure.pure a) (Pure.pure b) Q :=
  fun k₁ _ _ hk hst hcalm => ⟨k₁, .refl k₁, hst, hcalm, hQ _ _ _ _ hk h⟩

end Build.InStep

namespace Expansion.InStep

variable {x : Expansion α} {y : Expansion β} {Q : Correspondence → α → β → Prop}

theorem weaken {k' : Correspondence} (h : InStep k x y Q) (hk : k.Grows k') : InStep k' x y Q :=
  fun k₁ s t hk₁ => h k₁ s t (hk.trans hk₁)

theorem pure {a : α} {b : β} (hQ : Kept Q) (h : Q k a b) : InStep k (Pure.pure a) (Pure.pure b) Q :=
  fun k₁ s t hk hst hcalm => ⟨(a, s), (b, t), rfl, rfl, k₁, .refl k₁, hst, hcalm, hQ _ _ _ _ hk h⟩

theorem bind {f : α → Expansion α'} {g : β → Expansion β'} {R : Correspondence → α' → β' → Prop} (hxy : InStep k x y Q)
    (hfg : ∀ k₁ a b, k.Grows k₁ → Q k₁ a b → InStep k₁ (f a) (g b) R) : InStep k (x >>= f) (y >>= g) R := by
  intro k₁ s t hk hst hcalm
  obtain ⟨⟨a, s₁⟩, ⟨b, t₁⟩, hx, hy, k₂, hk₂, hst₂, hcalm₂, hQ⟩ := hxy k₁ s t hk hst hcalm
  obtain ⟨r, r', hr, hr', houtcome⟩ := hfg k₂ a b (hk.trans hk₂) hQ k₂ s₁ t₁ (.refl k₂) hst₂ hcalm₂
  refine ⟨r, r', ?_, ?_, houtcome.of_grows hk₂⟩
  · rw [Expansion.run_bind_of hx, hr]
  · rw [Expansion.run_bind_of hy, hr']

theorem given (h : ∀ k₁ s t, k.Grows k₁ → k₁.Between s t → InStep k₁ x y Q) : InStep k x y Q :=
  fun k₁ s t hk hst hcalm => h k₁ s t hk hst k₁ s t (.refl k₁) hst hcalm

theorem ite {p q : Prop} [Decidable p] [Decidable q] {x' : Expansion α} {y' : Expansion β} (hpq : q ↔ p)
    (hxy : p → InStep k x y Q) (hxy' : ¬ p → InStep k x' y' Q) : InStep k (if p then x else x') (if q then y else y') Q := by
  by_cases hp : p
  · rw [if_pos hp, if_pos (hpq.2 hp)]
    exact hxy hp
  · rw [if_neg hp, if_neg (mt hpq.1 hp)]
    exact hxy' hp

theorem readTable {f : Table → Expansion α} {g : Table → Expansion β}
    (hfg : ∀ k₁ s t, k.Grows k₁ → k₁.Between s t → t.Calm → InStep k₁ (f s) (g t) Q) : InStep k (get >>= f) (get >>= g) Q :=
  fun k₁ s t hk hst hcalm => hfg k₁ s t hk hst hcalm k₁ s t (.refl k₁) hst hcalm

theorem change {f g : Table → Table}
    (hfg : ∀ k₁ s t, k.Grows k₁ → k₁.Between s t → t.Calm → k₁.Between (f s) (g t) ∧ (g t).Calm) :
    InStep k (modify f) (modify g) fun _ _ _ => True :=
  fun k₁ s t hk hst hcalm =>
    ⟨((), f s), ((), g t), rfl, rfl, k₁, .refl k₁, (hfg k₁ s t hk hst hcalm).1, (hfg k₁ s t hk hst hcalm).2, trivial⟩

theorem lift {x : Build α} {y : Build β} (h : Build.InStep k x y Q) :
    InStep k (liftM x : Expansion α) (liftM y : Expansion β) Q :=
  fun k₁ s t hk hst hcalm => ⟨x.run s, y.run t, rfl, rfl, h k₁ s t hk hst hcalm⟩

theorem mapM {R : α → β → Prop} {f : α → Expansion α'} {g : β → Expansion β'} {Q : Correspondence → α' → β' → Prop}
    (hQ : Kept Q) {as : List α} {bs : List β} (has : List.Forall₂ R as bs)
    (hfg : ∀ a b, R a b → ∀ k₁, k.Grows k₁ → InStep k₁ (f a) (g b) Q) :
    InStep k (as.mapM f) (bs.mapM g) fun k => List.Forall₂ (Q k) := by
  induction has generalizing k with
  | nil =>
    rw [List.mapM_nil, List.mapM_nil]
    exact pure hQ.forall₂ .nil
  | cons hab _ ih =>
    rw [List.mapM_cons, List.mapM_cons]
    refine bind (hfg _ _ hab k (.refl k)) fun k₁ a' b' hk₁ hab' => ?_
    refine bind (ih fun a b hab k₂ hk₂ => hfg a b hab k₂ (hk₁.trans hk₂)) fun k₂ as' bs' hk₂ has' => ?_
    exact pure hQ.forall₂ (.cons (hQ _ _ _ _ hk₂ hab') has')

/-- A loop whose states correspond at the start and after each round. -/
theorem forIn {R : α → β → Prop} {I : Correspondence → α' → β' → Prop} (hI : Kept I) {as : List α} {bs : List β}
    {f : α → α' → Expansion (ForInStep α')} {g : β → β' → Expansion (ForInStep β')} {x : α'} {y : β'}
    (has : List.Forall₂ R as bs) (hinit : I k x y)
    (hfg : ∀ a b, R a b → ∀ k₁ x y, k.Grows k₁ → I k₁ x y →
      InStep k₁ (f a x) (g b y) fun k₂ r r' => ∃ x' y', r = .yield x' ∧ r' = .yield y' ∧ I k₂ x' y') :
    InStep k (ForIn.forIn as x f) (ForIn.forIn bs y g) I := by
  induction has generalizing k x y with
  | nil =>
    rw [List.forIn_nil, List.forIn_nil]
    exact pure hI hinit
  | cons hab _ ih =>
    rw [List.forIn_cons, List.forIn_cons]
    refine bind (hfg _ _ hab k x y (.refl k) hinit) ?_
    rintro k₁ _ _ hk₁ ⟨x', y', rfl, rfl, hxy⟩
    exact ih hxy fun a b hab k₂ x y hk₂ => hfg a b hab k₂ x y (hk₁.trans hk₂)

end Expansion.InStep

/-! ## New entries -/

/-- Whether there is only one such type for each element type. -/
def Ty.isWrapping : Ty → Bool
  | .pointer _ | .slice _ => true
  | _ => false

theorem Wrapping.isWrapping_wrap (w : Wrapping) (elem : TypeId) : (w.wrap elem).isWrapping = true := by
  cases w <;> rfl

namespace Build

variable {a b : TypeId}

/-- What is entered was not there before. Something may be missing of it while declarations are being read. -/
theorem inStep_pushNew {x y : Ty} (hxy : x.Alike k y) (hwrap : x.isWrapping = false)
    (hopen : k.base.deferring = false → y.isOpen = false) :
    InStep k (push x) (push y) fun k a b => k.types a b ∧ ¬ k.base.HasType b := by
  intro k₁ s t hk hst hcalm
  refine ⟨_, k₁.grows_addTypes _ _, hst.push (hxy.mono hk) fun {w a c} hx _ => ?_, hcalm.withType fun hdeferring => ?_,
    k₁.types_addTypes _ _, hst.not_hasType_base⟩
  · rw [hx, w.isWrapping_wrap] at hwrap
    cases hwrap
  · rw [← hk.base] at hopen
    exact hopen (hst.base.deferring.symm.trans hdeferring)

theorem inStep_push {x y : Ty} (hxy : x.Alike k y) (hwrap : x.isWrapping = false) (hopen : y.isOpen = false) :
    InStep k (push x) (push y) Correspondence.types :=
  (inStep_pushNew hxy hwrap fun _ => hopen).post fun _ _ _ h => h.1

/-- A pointer or a slice may be there in the second table alone, but not in the first alone. -/
theorem inStep_wrap (w : Wrapping) (hab : k.types a b) : InStep k (w.build a) (w.build b) Correspondence.types := by
  intro k₁ s t hk hst hcalm
  have hab := hk.types hab
  have hrun : ∀ (t : Table) (elem : TypeId), (w.build elem).run t =
      ((t.find? (w.isWrap elem)).elim (t.nextType, t.withType (w.wrap elem)) fun id => (id, t)) := by
    intro t elem
    unfold Wrapping.build
    rw [run_get]
    cases t.find? (w.isWrap elem) <;> rfl
  rw [hrun, hrun]
  cases hs : s.find? (w.isWrap a) with
  | some p =>
    obtain ⟨q, hpq, ht⟩ := hst.wraps hab hs
    rw [ht]
    exact ⟨k₁, .refl k₁, hst, hcalm, hpq⟩
  | none =>
    cases ht : t.find? (w.isWrap b) with
    | some q => exact ⟨_, k₁.grows_addTypes _ _, hst.pushLeft hab hs ht, hcalm, k₁.types_addTypes _ _⟩
    | none =>
      refine ⟨_, k₁.grows_addTypes _ _, hst.push (w.alike_wrap hab) fun hx hac => ?_, hcalm.withType fun _ => ?_,
        k₁.types_addTypes _ _⟩
      · obtain ⟨rfl, rfl⟩ := Wrapping.wrap_injective hx
        rwa [← hst.types.2 hab hac]
      · cases w <;> rfl

theorem inStep_pointer (hab : k.types a b) : InStep k (pointer a) (pointer b) Correspondence.types := by
  rw [← Wrapping.build_pointer, ← Wrapping.build_pointer]
  exact inStep_wrap .pointer hab

theorem inStep_slice (hab : k.types a b) : InStep k (slice a) (slice b) Correspondence.types := by
  rw [← Wrapping.build_slice, ← Wrapping.build_slice]
  exact inStep_wrap .slice hab

theorem inStep_signature {ps qs rs ss : List TypeId} (hparams : List.Forall₂ k.types ps qs)
    (hresults : List.Forall₂ k.types rs ss) (variadic : Bool) :
    InStep k (signature ps rs variadic) (signature qs ss variadic) Correspondence.types :=
  inStep_push (.signature ⟨hparams, hresults, rfl⟩) rfl rfl

theorem inStep_newFunc {f g : Func} (hfg : f.Alike k g) : InStep k (newFunc f) (newFunc g) Correspondence.funcs :=
  fun k₁ _ t hk hst hcalm =>
    ⟨_, k₁.grows_addFuncs _ _, hst.pushFunc (hfg.mono hk), hcalm.withFunc g, k₁.funcs_addFuncs _ t.nextFunc⟩

end Build

/-! ## Interfaces -/

namespace Expansion

theorem run_expand_of_filled {inst : TypeId} (h : (t.get inst).isUnexpanded = false) (n depth : Nat) :
    StateT.run (Expansion.expand (n + 1) inst depth) t = some ((), t) := by
  rw [expand_eq_fill, run_get]
  split
  · rename_i hinst
    rw [named?_eq_some hinst] at h
    cases h
  · rfl

/-- An interface that is complete, or being completed, is left as it is, and so is another type. -/
theorem run_complete_of_known {visiting : List TypeId} {id : TypeId}
    (h : (t.get id).isIncomplete = false ∨ visiting.contains id = true) (n : Nat) :
    StateT.run (Expansion.complete (n + 1) visiting id) t = some ((), t) := by
  unfold Expansion.complete
  rw [run_get]
  split
  · rename_i i hget
    rw [hget] at h
    rw [if_pos]
    · rfl
    · simpa [Ty.isIncomplete] using h
  · rfl

end Expansion

/-- The methods so far and whether there are terms, with what an embedded type adds to them. -/
def Table.inheritFrom (t : Table) (found : List FuncId × Bool) (embed : TypeId) : List FuncId × Bool :=
  match t.get (t.underlying embed) with
  | .interface i => (t.inheritMethods found.1 i.methodList, found.2 || i.hasTerms)
  | .invalid => found
  | _ => (found.1, true)

/-- The interface with its method set, when this is known of the interfaces that it embeds. -/
def Table.completed (t : Table) (i : Interface) : Interface :=
  let found := i.embedded.foldl t.inheritFrom (i.explicit, i.hasTerms)
  { i with methods := t.sortMethods found.1, complete := true, hasTerms := found.2 }

namespace Expansion

theorem run_complete {id : TypeId} {i : Interface} (hget : t.get id = .interface i) (hincomplete : i.complete = false)
    (hknown : ∀ id', id' ≠ id → (t.get id').isIncomplete = false) (hfilled : ∀ id', (t.get id').isUnexpanded = false)
    (n : Nat) :
    StateT.run (Expansion.complete (n + 2) [] id) t = some ((), t.modifyInterface id fun j =>
      { j with methods := (t.completed i).methods, complete := true, hasTerms := (t.completed i).hasTerms }) := by
  unfold Expansion.complete
  rw [run_get, hget]
  dsimp only
  rw [if_neg (by simp [hincomplete]), run_bind_of (run_forIn t.inheritFrom ?_ _ _)]
  · rfl
  -- a round of the loop leaves the table as it is
  intro embed found
  rw [run_bind_of (run_expand_of_filled (hfilled embed) _ _), run_get, run_get]
  unfold Table.inheritFrom
  cases hinner : t.get (t.underlying embed) with
  | interface inner =>
    have hunder : (t.get (t.underlying embed)).isIncomplete = false ∨ [id].contains (t.underlying embed) = true := by
      by_cases heq : t.underlying embed = id
      · exact .inr (by simp [heq])
      · exact .inl (hknown _ heq)
    dsimp only
    rw [run_bind_of (run_complete_of_known hunder _), run_get, hinner]
    rfl
  | _ => rfl

end Expansion

namespace Correspondence.Between

/-- What corresponding types add to methods that correspond. -/
theorem inheritFrom (h : k.Between s t) {found found' : List FuncId × Bool}
    (hfound : List.Forall₂ k.funcs found.1 found'.1 ∧ found'.2 = found.2) {a b : TypeId} (hab : k.types a b) :
    List.Forall₂ k.funcs (s.inheritFrom found a).1 (t.inheritFrom found' b).1 ∧
      (t.inheritFrom found' b).2 = (s.inheritFrom found a).2 := by
  have hget := h.get (h.reads.underlying hab)
  unfold Table.inheritFrom
  generalize s.get (s.underlying a) = x at hget
  generalize t.get (t.underlying b) = y at hget
  cases hget with
  | interface hij =>
    refine ⟨h.inheritMethods hfound.1 hij.methodList, ?_⟩
    dsimp only
    rw [hfound.2, hij.hasTerms]
  | invalid => exact hfound
  | _ => exact ⟨hfound.1, rfl⟩

theorem completed (h : k.Between s t) {i j : Interface} (hij : i.Alike k j) : (s.completed i).Alike k (t.completed j) := by
  have hfound : ∀ {found found' : List FuncId × Bool} {as bs : List TypeId},
      List.Forall₂ k.funcs found.1 found'.1 ∧ found'.2 = found.2 → List.Forall₂ k.types as bs →
      List.Forall₂ k.funcs (as.foldl s.inheritFrom found).1 (bs.foldl t.inheritFrom found').1 ∧
        (bs.foldl t.inheritFrom found').2 = (as.foldl s.inheritFrom found).2 := by
    intro found found' as bs hfound has
    induction has generalizing found found' with
    | nil => exact hfound
    | cons hab _ ih => exact ih (h.inheritFrom hfound hab)
  have hstart : List.Forall₂ k.funcs (i.explicit, i.hasTerms).1 (j.explicit, j.hasTerms).1 ∧
      (j.explicit, j.hasTerms).2 = (i.explicit, i.hasTerms).2 := ⟨hij.explicit, hij.hasTerms⟩
  obtain ⟨hmethods, hterms⟩ := hfound hstart hij.embedded
  exact ⟨hij.explicit, hij.embedded, h.sortMethods hmethods, rfl, hterms⟩

end Correspondence.Between

theorem Table.modifyType_withType (t : Table) (ty : Ty) (f : Ty → Ty) :
    (t.withType ty).modifyType t.nextType f = t.withType (f ty) := by
  have htypes : (t.types.push ty).modify t.types.size f = t.types.push (f ty) := by
    apply Array.ext_getElem?
    intro i
    rw [Array.getElem?_modify, Array.getElem?_push, Array.getElem?_push]
    by_cases hi : i = t.types.size
    · rw [if_pos hi.symm, if_pos hi, if_pos hi]
      rfl
    · rw [if_neg (Ne.symm hi), if_neg hi, if_neg hi]
  exact congrArg (fun types => { t with types : Table }) htypes

namespace Expansion

variable {n n' : Nat} {as bs : List TypeId} {origin : TypeId}

theorem run_push (t : Table) (ty : Ty) :
    StateT.run (liftM (Build.push ty) : Expansion TypeId) t = some (t.nextType, t.withType ty) := rfl

/-- While declarations are being read, an interface is entered and no more. -/
theorem run_newInterface_deferring (h : t.deferring = true) (n : Nat) (fs : List FuncId) (as : List TypeId) :
    StateT.run (Expansion.newInterface (n + 1) fs as) t = some (t.nextType, t.withType
      (.interface { explicit := fs, embedded := as, methods := [], complete := false, hasTerms := false })) := by
  unfold Expansion.newInterface
  rw [run_bind_of (run_push t _), run_get]
  have hdeferring : ∀ ty, (t.withType ty).deferring = true := fun _ => h
  rw [hdeferring]
  rfl

theorem run_newInterface (h : t.deferring = false) (hcalm : t.Calm) (n : Nat) (fs : List FuncId) (as : List TypeId) :
    ∃ t₁ i, t₁ = t.withType (.interface i) ∧
      i = { explicit := fs, embedded := as, methods := [], complete := false, hasTerms := false } ∧
      StateT.run (Expansion.newInterface (n + 3) fs as) t = some (t.nextType, t₁.modifyInterface t.nextType fun j =>
        { j with methods := (t₁.completed i).methods, complete := true, hasTerms := (t₁.completed i).hasTerms }) := by
  refine ⟨_, _, rfl, rfl, ?_⟩
  unfold Expansion.newInterface
  rw [run_bind_of (run_push t _), run_get]
  have hdeferring : ∀ ty, (t.withType ty).deferring = false := fun _ => h
  have hclosed := Table.calm_iff.1 hcalm h
  rw [hdeferring]
  dsimp only
  rw [if_pos Bool.not_false, run_bind_of (run_complete (Table.get_withType_nextType t _) rfl ?_ ?_ n)]
  · rfl
  · intro id hid
    rw [Table.get_withType hid]
    exact (Ty.isOpen_eq_false.1 (hclosed id)).1
  · intro id
    by_cases hid : id = t.nextType
    · rw [hid, Table.get_withType_nextType]
      rfl
    · rw [Table.get_withType hid]
      exact (Ty.isOpen_eq_false.1 (hclosed id)).2

theorem inStep_newInterface (hn : 3 ≤ n) (hn' : 3 ≤ n') {fs gs : List FuncId} (hfs : List.Forall₂ k.funcs fs gs)
    (has : List.Forall₂ k.types as bs) :
    InStep k (Expansion.newInterface n fs as) (Expansion.newInterface n' gs bs) Correspondence.types := by
  obtain ⟨n, rfl⟩ := Nat.exists_eq_add_of_le' hn
  obtain ⟨n', rfl⟩ := Nat.exists_eq_add_of_le' hn'
  intro k₁ s t hk hst hcalm
  have halike : ({ explicit := fs, embedded := as, methods := [], complete := false, hasTerms := false } : Interface).Alike k₁
      { explicit := gs, embedded := bs, methods := [], complete := false, hasTerms := false } :=
    ⟨hk.funcList hfs, hk.typeList has, .nil, rfl, rfl⟩
  have hpush := hst.push (.interface halike) fun {w} _ _ hx _ => by cases w <;> cases hx
  have hgrows := k₁.grows_addTypes s.nextType t.nextType
  have htypes := k₁.types_addTypes s.nextType t.nextType
  cases hdeferring : s.deferring with
  | true =>
    have hdeferring' := hst.deferring.trans hdeferring
    refine ⟨_, _, run_newInterface_deferring hdeferring _ fs as, run_newInterface_deferring hdeferring' _ gs bs, _, hgrows, hpush,
      hcalm.withType fun hfalse => ?_, htypes⟩
    rw [hdeferring'] at hfalse
    cases hfalse
  | false =>
    have hdeferring' := hst.deferring.trans hdeferring
    obtain ⟨s₁, i, hs₁, hi, hrun⟩ := run_newInterface hdeferring (hst.calmLeft hcalm) n fs as
    obtain ⟨t₁, j, ht₁, hj, hrun'⟩ := run_newInterface hdeferring' hcalm n' gs bs
    rw [← hi, ← hj] at hpush halike
    rw [← hs₁, ← ht₁] at hpush
    have hcompleted := hpush.completed (halike.mono hgrows)
    refine ⟨_, _, hrun, hrun', _, hgrows, hpush.modifyInterface htypes hst.not_hasType_base (fun i j hij => ?_)
      (fun _ => rfl) fun _ => rfl, ?_, htypes⟩
    · exact ⟨hij.explicit, hij.embedded, hcompleted.methods, rfl, hcompleted.hasTerms⟩
    · show (t₁.modifyType t.nextType _).Calm
      rw [ht₁, Table.modifyType_withType]
      exact hcalm.withType fun _ => rfl

/-! ## Instances -/

theorem inStep_complete (hn : 1 ≤ n) (hn' : 1 ≤ n') (hdeferring : k.base.deferring = false)
    (visiting visiting' : List TypeId) (a b : TypeId) :
    InStep k (Expansion.complete n visiting a) (Expansion.complete n' visiting' b) fun _ _ _ => True := by
  obtain ⟨n, rfl⟩ := Nat.exists_eq_add_of_le' hn
  obtain ⟨n', rfl⟩ := Nat.exists_eq_add_of_le' hn'
  intro k₁ s t hk hst hcalm
  rw [← hk.base] at hdeferring
  have hs := (hst.calmLeft hcalm).known (hst.deferringLeft.trans hdeferring) a
  have ht := hcalm.known (hst.base.deferring.trans hdeferring) b
  exact ⟨_, _, run_complete_of_known (.inl hs) n, run_complete_of_known (.inl ht) n', k₁, .refl k₁, hst, hcalm, trivial⟩

/-- An instance that is filled in when it is entered may as well be entered as filled in. -/
theorem newInstance_eq {d : Named} (horigin : d.origin = some origin) (hexpanded : d.expanded = false) (n depth : Nat) : (do
      let inst ← (liftM (Build.push (.named d)) : Expansion TypeId)
      Expansion.expand (n + 1) inst depth
      return inst) = (do
      let inst ← (liftM (Build.push (.named { d with expanded := true })) : Expansion TypeId)
      fill n inst origin d.typeArgs depth
      return inst) := by
  obtain ⟨name, package, rhs, methods, typeParams, _, typeArgs, _⟩ := d
  cases horigin
  cases hexpanded
  refine StateT.ext fun t => ?_
  have hfill : ∀ ty : Ty, ty = .named ⟨name, package, rhs, methods, typeParams, some origin, typeArgs, false⟩ →
      StateT.run (Expansion.expand (n + 1) t.nextType depth) (t.withType ty) =
        StateT.run (fill n t.nextType origin typeArgs depth)
          (t.withType (.named ⟨name, package, rhs, methods, typeParams, some origin, typeArgs, true⟩)) := by
    rintro ty hty
    have hnamed : (t.withType ty).named? t.nextType =
        some ⟨name, package, rhs, methods, typeParams, some origin, typeArgs, false⟩ := by
      rw [Table.named?, Table.get_withType_nextType, hty]
    rw [expand_eq_fill, run_get, hnamed]
    show StateT.run (fill n t.nextType origin typeArgs depth) ((t.withType ty).modifyType t.nextType _) = _
    rw [Table.modifyType_withType, hty]
  rw [run_bind_of (run_push t _), run_bind_of (run_push t _), StateT.run_bind, StateT.run_bind, hfill _ rfl]

/-- Functions that correspond have copies that correspond. -/
theorem copy_alike {f g : Func} (hfg : f.Alike k g) {m m' : FuncId} (hm : k.funcs m m') {sig sig' : TypeId}
    (hsig : k.types sig sig') {kind kind' : FuncKind} (hkind : kind.Alike k kind') :
    ({ f with sig, kind, origin := some (f.origin.getD m) } : Func).Alike k
      { g with sig := sig', kind := kind', origin := some (g.origin.getD m') } :=
  ⟨hfg.name, hsig, hfg.package, hkind, hfg.typeParams, .some (rel_getD hfg.origin hm), hfg.pos⟩

theorem inStep_fill (depth : Nat) (hn : 1 ≤ n) (hn' : 1 ≤ n')
    (hsubst : ∀ (k : Correspondence) {m m' : Subst} {a b : TypeId}, List.Forall₂ (Correspondence.Between.Pairs k) m m' →
      k.types a b → InStep k (Expansion.subst n m (depth + 1) a) (Expansion.subst n' m' (depth + 1) b) Correspondence.types)
    {inst inst' origin' : TypeId} (hinst : k.types inst inst') (hfresh : ¬ k.base.HasType inst')
    (horigin : k.types origin origin') (hargs : List.Forall₂ k.types as bs) (hdeferring : k.base.deferring = false) :
    InStep k (fill n inst origin as depth) (fill n' inst' origin' bs depth) fun _ _ _ => True := by
  unfold fill
  refine .readTable fun k₁ s t hk hst _ => ?_
  rcases optionRel_cases (hst.reads.named? (hk.types horigin)) with ⟨hs, ht⟩ | ⟨d, e, hs, ht, hde⟩ <;> rw [hs, ht] <;> dsimp only
  · exact .pure .always trivial
  have hmap := forall₂_zip_pairs hde.typeParams (hk.typeList hargs)
  -- the instance is none of what the second table must not lose
  have hmodify : ∀ {f g : Named → Named} {k₂ : Correspondence}, k.Grows k₂ →
      (∀ k₃, k₂.Grows k₃ → ∀ d e, d.Alike k₃ e → (f d).Alike k₃ (g e)) →
      (∀ d, (f d).origin = d.origin ∧ (f d).typeArgs = d.typeArgs) →
      (∀ d, (g d).origin = d.origin ∧ (g d).typeArgs = d.typeArgs) → (∀ d, (g d).expanded = d.expanded) →
      InStep k₂ (modify (·.modifyNamed inst f)) (modify (·.modifyNamed inst' g)) fun _ _ _ => True := by
    intro f g k₂ hk₂ hfg hf hg hexpanded
    refine .change fun k₃ s t hk₃ hst hcalm => ⟨?_, hcalm.modifyNamed fun d => ⟨(hg d).1, hexpanded d⟩⟩
    have hk₃' := hk₂.trans hk₃
    exact hst.modifyNamed (hk₃'.types hinst) (by rwa [hk₃'.base]) (hfg k₃ hk₃) hf hg
  refine .bind (hsubst k₁ hmap hde.rhs) fun k₂ rhs rhs' hk₂ hrhs => ?_
  refine .bind (hmodify (hk.trans hk₂) (fun k₃ hk₃ d e hde => ?_) (fun _ => ⟨rfl, rfl⟩) (fun _ => ⟨rfl, rfl⟩) fun _ => rfl)
    fun k₃ _ _ hk₃ _ => ?_
  · exact ⟨hde.name, hde.package, hk₃.types hrhs, hde.methods, hde.typeParams, hde.origin, hde.typeArgs, hde.expanded⟩
  refine .bind (.forIn (R := k₁.funcs) .always hde.methods trivial fun m m' hm k₄ _ _ hk₄ _ => ?_) fun k₄ _ _ hk₄ _ => ?_
  · -- each method is copied with its signature, and the copy is attached
    have hk₄ := hk₂.trans (hk₃.trans hk₄)
    refine .readTable fun k₅ s t hk₅ hst _ => ?_
    have hk₅ := hk₄.trans hk₅
    have hfunc := hst.func (hk₅.funcs hm)
    refine .bind (hsubst k₅ (hmap.imp fun _ _ hpq => ⟨hk₅.types hpq.1, hk₅.types hpq.2⟩) hfunc.sig)
      fun k₆ sig sig' hk₆ hsig => ?_
    have hkind : (FuncKind.method inst (s.func m).hasPointerRecv).Alike k₆ (.method inst' (t.func m').hasPointerRecv) := by
      rw [hst.hasPointerRecv (hk₅.funcs hm)]
      exact .method ((hk.trans (hk₅.trans hk₆)).types hinst) _
    refine .bind (.lift (Build.inStep_newFunc (copy_alike (hfunc.mono hk₆) ((hk₅.trans hk₆).funcs hm) hsig hkind)))
      fun k₇ copy copy' hk₇ hcopy => ?_
    refine .bind (hmodify (hk.trans (hk₅.trans (hk₆.trans hk₇))) (fun k₈ hk₈ d e hde => ?_) (fun _ => ⟨rfl, rfl⟩)
      (fun _ => ⟨rfl, rfl⟩) fun _ => rfl) fun _ _ _ _ _ => ?_
    · exact ⟨hde.name, hde.package, hde.rhs, List.rel_append hde.methods (.cons (hk₈.funcs hcopy) .nil), hde.typeParams,
        hde.origin, hde.typeArgs, hde.expanded⟩
    · exact fun k₁ s t _ hst hcalm => ⟨_, _, rfl, rfl, k₁, .refl k₁, hst, hcalm, _, _, rfl, rfl, trivial⟩
  · refine .readTable fun k₅ s t hk₅ _ _ => inStep_complete hn hn' ?_ _ _ _ _
    rw [(hk.trans (hk₂.trans (hk₃.trans (hk₄.trans hk₅)))).base]
    exact hdeferring

/-- What is asked of two lists of types has the same answer for the lists that correspond. -/
theorem beq_of_forall₂ (hst : k.Between s t) {as' bs' : List TypeId} (hab : List.Forall₂ k.types as bs)
    (hab' : List.Forall₂ k.types as' bs') : (bs == bs') = (as == as') := by
  rw [Bool.eq_iff_iff, beq_iff_eq, beq_iff_eq]
  exact hst.listEq_iff hab hab'

/-- Instances of a generic type are in step if substitution is, two levels down. -/
theorem inStep_instantiate_of (depth : Nat) (hn : depth ≤ maxSubstDepth → 1 ≤ n ∧ 1 ≤ n')
    (hsubst : depth ≤ maxSubstDepth → ∀ (k : Correspondence) {m m' : Subst} {a b : TypeId},
      List.Forall₂ (Correspondence.Between.Pairs k) m m' → k.types a b →
      InStep k (Expansion.subst n m (depth + 1) a) (Expansion.subst n' m' (depth + 1) b) Correspondence.types)
    {origin' : TypeId} (horigin : k.types origin origin') (hargs : List.Forall₂ k.types as bs) :
    InStep k (Expansion.instantiate (n + 2) origin as depth) (Expansion.instantiate (n' + 2) origin' bs depth)
      Correspondence.types := by
  unfold Expansion.instantiate
  refine .readTable fun k₁ s t hk hst _ => ?_
  have hargs := hk.typeList hargs
  rcases optionRel_cases (hst.reads.named? (hk.types horigin)) with ⟨hs, ht⟩ | ⟨d, e, hs, ht, hde⟩ <;> rw [hs, ht] <;> dsimp only
  · exact .pure .types hst.reads.invalid
  have horigin := rel_getD hde.origin (hk.types horigin)
  generalize d.origin.getD origin = o at horigin
  generalize e.origin.getD origin' = o' at horigin
  rcases optionRel_cases (hst.reads.named? horigin) with ⟨hs, ht⟩ | ⟨d, e, hs, ht, hde⟩ <;> rw [hs, ht] <;> dsimp only
  · exact .pure .types hst.reads.invalid
  rw [isEmpty_of_forall₂ hde.typeParams, ← hargs.length_eq, ← hde.typeParams.length_eq,
    beq_of_forall₂ hst hargs hde.typeParams]
  refine .ite .rfl (fun _ => .pure .types horigin) fun _ => ?_
  refine .ite .rfl (fun _ => .pure .types hst.reads.invalid) fun hdepth => ?_
  refine .ite .rfl (fun _ => .pure .types horigin) fun _ => ?_
  rcases optionRel_cases (hst.instance? horigin hargs) with ⟨hs, ht⟩ | ⟨inst, inst', hs, ht, hinst⟩ <;> rw [hs, ht] <;>
    dsimp only
  · have hdepth : depth ≤ maxSubstDepth := by
      simp only [Bool.or_eq_true, decide_eq_true_eq, not_or, Nat.not_lt] at hdepth
      exact hdepth.2
    have halike : ∀ expanded : Bool,
        (Ty.named { name := d.name, package := d.package, rhs := .invalid, methods := [], typeParams := [],
                    origin := some o, typeArgs := as, expanded }).Alike k₁
          (.named { name := e.name, package := e.package, rhs := .invalid, methods := [], typeParams := [],
                    origin := some o', typeArgs := bs, expanded }) :=
      fun expanded => .named ⟨hde.name, hde.package, hst.reads.invalid, .nil, .nil, .some horigin, hargs, rfl⟩
    rw [hst.deferring]
    cases hdeferring : s.deferring with
    | true =>
      -- while declarations are being read, the instance is entered and no more
      refine .bind (.lift (Build.inStep_pushNew (halike false) rfl fun hfalse => ?_)) fun _ _ _ _ hinst =>
        .pure .types hinst.1
      rw [← hst.deferringLeft, hdeferring] at hfalse
      cases hfalse
    | false =>
      simp only [Bool.not_false, if_true]
      rw [newInstance_eq rfl rfl, newInstance_eq rfl rfl]
      refine .bind (.lift (Build.inStep_pushNew (halike true) rfl fun _ => rfl)) fun k₂ inst inst' hk₂ hinst => ?_
      refine .bind (inStep_fill depth (hn hdepth).1 (hn hdepth).2 (hsubst hdepth) hinst.1 hinst.2 (hk₂.types horigin)
        (hk₂.typeList hargs) ?_) fun k₃ _ _ hk₃ _ => .pure .types (hk₃.types hinst.1)
      rw [hk₂.base, ← hst.deferringLeft, hdeferring]
  · exact .pure .types hinst

theorem forall₂_zipWith {α₁ β₁ : Type} {R : α → β → Prop} {S : α' → β' → Prop} {T : α₁ → β₁ → Prop} {f : α → α' → α₁}
    {g : β → β' → β₁} (hfg : ∀ a b a' b', R a b → S a' b' → T (f a a') (g b b')) {as : List α} {bs : List β}
    {as' : List α'} {bs' : List β'} (has : List.Forall₂ R as bs) (has' : List.Forall₂ S as' bs') :
    List.Forall₂ T (as.zipWith f as') (bs.zipWith g bs') := by
  induction has generalizing as' bs' with
  | nil => exact .nil
  | cons hab _ ih =>
    cases has' with
    | nil => exact .nil
    | cons hab' has' => exact .cons (hfg _ _ _ _ hab hab') (ih has')

theorem inStep_subst_of (depth : Nat) (hn : 3 ≤ n) (hn' : 3 ≤ n')
    (hsubst : depth ≤ maxSubstDepth → ∀ (k : Correspondence) {m m' : Subst} {a b : TypeId},
      List.Forall₂ (Correspondence.Between.Pairs k) m m' → k.types a b →
      InStep k (Expansion.subst n m (depth + 1) a) (Expansion.subst n' m' (depth + 1) b) Correspondence.types)
    (hinstantiate : depth ≤ maxSubstDepth → ∀ (k : Correspondence) {a b : TypeId} {as bs : List TypeId}, k.types a b →
      List.Forall₂ k.types as bs →
      InStep k (Expansion.instantiate n a as (depth + 1)) (Expansion.instantiate n' b bs (depth + 1)) Correspondence.types)
    {m m' : Subst} {a b : TypeId} (hm : List.Forall₂ (Correspondence.Between.Pairs k) m m') (hab : k.types a b) :
    InStep k (Expansion.subst (n + 1) m depth a) (Expansion.subst (n' + 1) m' depth b) Correspondence.types := by
  unfold Expansion.subst
  refine .given fun k₀ s t hk₀ hst => ?_
  refine .ite .rfl (fun _ => .pure .types hst.reads.invalid) fun hdepth => ?_
  replace hsubst := hsubst (Nat.not_lt.1 hdepth)
  replace hinstantiate := hinstantiate (Nat.not_lt.1 hdepth)
  refine .readTable fun k₁ s t hk hst _ => ?_
  have hk := hk₀.trans hk
  have hget := hst.get (hk.types hab)
  have hm : List.Forall₂ (Correspondence.Between.Pairs k₁) m m' := hm.imp fun _ _ hpq => ⟨hk.types hpq.1, hk.types hpq.2⟩
  have hself : ∀ {k₂ : Correspondence}, k₁.Grows k₂ → InStep k₂ (pure a) (pure b) Correspondence.types :=
    fun hk₂ => .pure .types (hk₂.types (hk.types hab))
  -- substitution in the parts of the type, and in lists of them
  have hpart : ∀ {k₂ : Correspondence}, k₁.Grows k₂ → ∀ {c d : TypeId}, k₂.types c d →
      InStep k₂ (Expansion.subst n m (depth + 1) c) (Expansion.subst n' m' (depth + 1) d) Correspondence.types :=
    fun hk₂ _ _ hcd => hsubst _ (hm.imp fun _ _ hpq => ⟨hk₂.types hpq.1, hk₂.types hpq.2⟩) hcd
  have hparts : ∀ {k₂ : Correspondence}, k₁.Grows k₂ → ∀ {cs ds : List TypeId}, List.Forall₂ k₁.types cs ds →
      InStep k₂ (cs.mapM (Expansion.subst n m (depth + 1))) (ds.mapM (Expansion.subst n' m' (depth + 1)))
        fun k => List.Forall₂ k.types :=
    fun hk₂ _ _ hcs => .mapM .types hcs fun _ _ hcd k₃ hk₃ => hpart (hk₂.trans hk₃) ((hk₂.trans hk₃).types hcd)
  -- a type in which nothing is replaced stays itself
  have hunless : ∀ {k₂ : Correspondence}, k₁.Grows k₂ → ∀ {p q : Prop} [Decidable p] [Decidable q] {x y : Expansion TypeId},
      (∀ k₃ s t, k₂.Grows k₃ → k₃.Between s t → (q ↔ p)) → InStep k₂ x y Correspondence.types →
      InStep k₂ (if p then pure a else x) (if q then pure b else y) Correspondence.types :=
    fun hk₂ _ _ _ _ _ _ hpq hxy => .given fun k₃ s t hk₃ hst =>
      .ite (hpq k₃ s t hk₃ hst) (fun _ => hself (hk₂.trans hk₃)) fun _ => hxy.weaken hk₃
  generalize s.get a = x at hget
  generalize t.get b = y at hget
  cases hget with
  | invalid => exact hself (.refl k₁)
  | basic kind => exact hself (.refl k₁)
  | typeParam _ => exact .pure .types (rel_getD (hst.reads.substLookup hm (hk.types hab)) (hk.types hab))
  | named hde =>
    dsimp only
    rcases optionRel_cases hde.origin with ⟨ho, ho'⟩ | ⟨o, o', ho, ho', hoo⟩ <;> rw [ho, ho'] <;> dsimp only
    · rw [isEmpty_of_forall₂ hde.typeParams]
      refine .ite .rfl (fun _ => hself (.refl k₁)) fun _ => ?_
      refine .bind (hparts (.refl k₁) hde.typeParams) fun k₂ as bs hk₂ has => hunless hk₂ (fun k₃ s t hk₃ hst => ?_) ?_
      · rw [beq_of_forall₂ hst (hk₃.typeList has) ((hk₂.trans hk₃).typeList hde.typeParams)]
      · exact hinstantiate k₂ (hk₂.types (hk.types hab)) has
    · refine .bind (hparts (.refl k₁) hde.typeArgs) fun k₂ as bs hk₂ has => hunless hk₂ (fun k₃ s t hk₃ hst => ?_) ?_
      · rw [beq_of_forall₂ hst (hk₃.typeList has) ((hk₂.trans hk₃).typeList hde.typeArgs)]
      · exact hinstantiate k₂ (hk₂.types hoo) has
  | pointer hcd =>
    refine .bind (hpart (.refl k₁) hcd) fun k₂ e e' hk₂ he => hunless hk₂ (fun k₃ s t hk₃ hst => ?_) ?_
    · exact hst.reads.eq_iff (hk₃.types he) ((hk₂.trans hk₃).types hcd)
    · exact .lift (Build.inStep_pointer he)
  | slice hcd =>
    refine .bind (hpart (.refl k₁) hcd) fun k₂ e e' hk₂ he => hunless hk₂ (fun k₃ s t hk₃ hst => ?_) ?_
    · exact hst.reads.eq_iff (hk₃.types he) ((hk₂.trans hk₃).types hcd)
    · exact .lift (Build.inStep_slice he)
  | array len hcd =>
    refine .bind (hpart (.refl k₁) hcd) fun k₂ e e' hk₂ he => hunless hk₂ (fun k₃ s t hk₃ hst => ?_) ?_
    · exact hst.reads.eq_iff (hk₃.types he) ((hk₂.trans hk₃).types hcd)
    · exact .lift (Build.inStep_push (.array len he) rfl rfl)
  | map hkey hvalue =>
    refine .bind (hpart (.refl k₁) hkey) fun k₂ key key' hk₂ hkey' => ?_
    refine .bind (hpart hk₂ (hk₂.types hvalue)) fun k₃ value value' hk₃ hvalue' =>
      hunless (hk₂.trans hk₃) (fun k₄ s t hk₄ hst => ?_) ?_
    · have hk₄' := hk₂.trans (hk₃.trans hk₄)
      exact and_congr (hst.reads.eq_iff ((hk₃.trans hk₄).types hkey') (hk₄'.types hkey))
        (hst.reads.eq_iff (hk₄.types hvalue') (hk₄'.types hvalue))
    · exact .lift (Build.inStep_push (.map (hk₃.types hkey') hvalue') rfl rfl)
  | chan dir hcd =>
    refine .bind (hpart (.refl k₁) hcd) fun k₂ e e' hk₂ he => hunless hk₂ (fun k₃ s t hk₃ hst => ?_) ?_
    · exact hst.reads.eq_iff (hk₃.types he) ((hk₂.trans hk₃).types hcd)
    · exact .lift (Build.inStep_push (.chan dir he) rfl rfl)
  | tuple hcs =>
    refine .bind (hparts (.refl k₁) hcs) fun k₂ es es' hk₂ hes => hunless hk₂ (fun k₃ s t hk₃ hst => ?_) ?_
    · rw [beq_of_forall₂ hst (hk₃.typeList hes) ((hk₂.trans hk₃).typeList hcs)]
    · exact .lift (Build.inStep_push (.tuple hes) rfl rfl)
  | signature hsig =>
    refine .bind (hparts (.refl k₁) hsig.params) fun k₂ ps qs hk₂ hps => ?_
    refine .bind (hparts hk₂ hsig.results) fun k₃ rs ss hk₃ hrs => hunless (hk₂.trans hk₃) (fun k₄ s t hk₄ hst => ?_) ?_
    · have hk₄' := hk₂.trans (hk₃.trans hk₄)
      rw [beq_of_forall₂ hst ((hk₃.trans hk₄).typeList hps) (hk₄'.typeList hsig.params),
        beq_of_forall₂ hst (hk₄.typeList hrs) (hk₄'.typeList hsig.results)]
    · rw [hsig.variadic]
      exact .lift (Build.inStep_signature (hk₃.typeList hps) hrs _)
  | struct hfs =>
    refine .bind (.mapM .types hfs fun f g hfg k₂ hk₂ => hpart hk₂ (hk₂.types hfg.type)) fun k₂ as bs hk₂ has =>
      hunless hk₂ (fun k₃ s t hk₃ hst => ?_) ?_
    · rw [beq_of_forall₂ hst (hk₃.typeList has) (List.rel_map (fun f g hfg => hk₃.types (hk₂.types hfg.type)) hfs)]
    · exact .lift (Build.inStep_push (.struct (forall₂_zipWith (fun f g c d hfg hcd => ⟨hfg.name, hcd, hfg.embedded⟩) hfs has))
        rfl rfl)
  | union hxs =>
    refine .bind (.mapM .types hxs fun f g hfg k₂ hk₂ => hpart hk₂ (hk₂.types hfg.type)) fun k₂ as bs hk₂ has =>
      hunless hk₂ (fun k₃ s t hk₃ hst => ?_) ?_
    · rw [beq_of_forall₂ hst (hk₃.typeList has) (List.rel_map (fun f g hfg => hk₃.types (hk₂.types hfg.type)) hxs)]
    · exact .lift (Build.inStep_push (.union (forall₂_zipWith (fun f g c d hfg hcd => ⟨hfg.tilde, hcd⟩) hxs has)) rfl rfl)
  | interface hij =>
    refine .bind (.mapM .funcs hij.explicit fun f g hfg k₂ hk₂ => ?_) fun k₂ fs gs hk₂ hfs => ?_
    · refine .readTable fun k₃ s t hk₃ hst _ => ?_
      have hk₃ := hk₂.trans hk₃
      have hfunc := hst.func (hk₃.funcs hfg)
      refine .bind (hpart hk₃ hfunc.sig) fun k₄ sig sig' hk₄ hsig => .given fun k₅ s' t' hk₅ hst' => ?_
      refine .ite (hst'.reads.eq_iff (hk₅.types hsig) ((hk₄.trans hk₅).types hfunc.sig)) (fun _ => ?_) fun _ => ?_
      · exact .pure .funcs ((hk₃.trans (hk₄.trans hk₅)).funcs hfg)
      · have hfunc := hfunc.mono (hk₄.trans hk₅)
        exact .lift (Build.inStep_newFunc (copy_alike hfunc ((hk₃.trans (hk₄.trans hk₅)).funcs hfg) (hk₅.types hsig) hfunc.kind))
    · refine .bind (hparts hk₂ hij.embedded) fun k₃ as bs hk₃ has => hunless (hk₂.trans hk₃) (fun k₄ s t hk₄ hst => ?_) ?_
      · have hk₄' := hk₂.trans (hk₃.trans hk₄)
        have hexplicit := hst.funcListEq_iff ((hk₃.trans hk₄).funcList hfs) (hk₄'.funcList hij.explicit)
        have hembedded := hst.listEq_iff (hk₄.typeList has) (hk₄'.typeList hij.embedded)
        simp only [Bool.and_eq_true, beq_iff_eq, hexplicit, hembedded]
      · exact inStep_newInterface hn hn' (hk₃.funcList hfs) has

/-- With bounds that are large enough for the depth, substitution and instances are in step. -/
structure Pace (n n' : Nat) : Prop where
  subst : ∀ {depth : Nat} {k : Correspondence} {m m' : Subst} {a b : TypeId}, 3 * (65 - depth) + 4 ≤ n →
    3 * (65 - depth) + 4 ≤ n' → List.Forall₂ (Correspondence.Between.Pairs k) m m' → k.types a b →
    InStep k (Expansion.subst n m depth a) (Expansion.subst n' m' depth b) Correspondence.types
  instantiate : ∀ {depth : Nat} {k : Correspondence} {a b : TypeId} {as bs : List TypeId}, 3 * (65 - depth) + 3 ≤ n →
    3 * (65 - depth) + 3 ≤ n' → k.types a b → List.Forall₂ k.types as bs →
    InStep k (Expansion.instantiate n a as depth) (Expansion.instantiate n' b bs depth) Correspondence.types

/-- Three levels of nesting are needed for one level of depth. -/
theorem pace (n n' : Nat) : Pace n n' := by
  induction n using Nat.strong_induction_on generalizing n' with
  | _ n ih =>
    constructor
    · intro depth k m m' a b hn hn' hm hab
      obtain ⟨n, rfl⟩ : ∃ i, n = i + 1 := ⟨n - 1, by omega⟩
      obtain ⟨n', rfl⟩ : ∃ i, n' = i + 1 := ⟨n' - 1, by omega⟩
      refine inStep_subst_of depth (by omega) (by omega) (fun hdepth k m m' a b hm hab => ?_)
        (fun hdepth k a b as bs hab has => ?_) hm hab
      · have hdepth : depth ≤ 64 := hdepth
        exact (ih n (by omega) n').subst (by omega) (by omega) hm hab
      · have hdepth : depth ≤ 64 := hdepth
        exact (ih n (by omega) n').instantiate (by omega) (by omega) hab has
    · intro depth k a b as bs hn hn' hab has
      obtain ⟨n, rfl⟩ : ∃ i, n = i + 2 := ⟨n - 2, by omega⟩
      obtain ⟨n', rfl⟩ : ∃ i, n' = i + 2 := ⟨n' - 2, by omega⟩
      refine inStep_instantiate_of depth (fun _ => ⟨by omega, by omega⟩) (fun hdepth k m m' a b hm hab => ?_) hab has
      have hdepth : depth ≤ 64 := hdepth
      exact (ih n (by omega) n').subst (by omega) (by omega) hm hab

end Expansion

/-! ## With the bounds of the tables -/

namespace Build

/-- The bound of every table is large enough. -/
theorem inStep_run [Inhabited α] [Inhabited β] {x : Nat → Expansion α} {y : Nat → Expansion β}
    {Q : Correspondence → α → β → Prop} (h : ∀ n n', 199 ≤ n → 199 ≤ n' → Expansion.InStep k (x n) (y n') Q) :
    InStep k (Expansion.run x) (Expansion.run y) Q := by
  intro k₁ s t hk hst hcalm
  have hbound : ∀ t : Table, 199 ≤ t.expansionBound := by
    intro t
    have hmul : 1 * 400 ≤ (t.types.size + 1) * (t.types.size + 400) := Nat.mul_le_mul (by omega) (by omega)
    unfold Table.expansionBound
    omega
  obtain ⟨r, r', hr, hr', houtcome⟩ := h _ _ (hbound s) (hbound t) k₁ s t hk hst hcalm
  have hx : (Expansion.run x).run s = r := congrArg (·.getD (default, s)) hr
  have hy : (Expansion.run y).run t = r' := congrArg (·.getD (default, t)) hr'
  rwa [hx, hy]

theorem inStep_instantiate {a b : TypeId} {as bs : List TypeId} (hab : k.types a b) (has : List.Forall₂ k.types as bs) :
    InStep k (instantiate a as) (instantiate b bs) Correspondence.types :=
  inStep_run fun n n' hn hn' => (Expansion.pace n n').instantiate (by omega) (by omega) hab has

theorem inStep_subst {m m' : Subst} {a b : TypeId} (hm : List.Forall₂ (Correspondence.Between.Pairs k) m m')
    (hab : k.types a b) : InStep k (subst a m) (subst b m') Correspondence.types := by
  unfold subst
  rw [isEmpty_of_forall₂ hm]
  split
  · exact .pure .types hab
  · exact inStep_run fun n n' hn hn' => (Expansion.pace n n').subst (by omega) (by omega) hm hab

theorem inStep_interface {fs gs : List FuncId} {as bs : List TypeId} (hfs : List.Forall₂ k.funcs fs gs)
    (has : List.Forall₂ k.types as bs) : InStep k (interface fs as) (interface gs bs) Correspondence.types :=
  inStep_run fun n n' hn hn' => Expansion.inStep_newInterface (by omega) (by omega) hfs has

end Build

end UnusedMethods.Types
