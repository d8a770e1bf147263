import Mathlib.Data.Finset.Prod
import Mathlib.Data.List.Chain
import Mathlib.Logic.Relation
import UnusedMethods.Types.Identity

/-!
# When the comparison of two types ends

The comparison of two types asks about pairs of components, one after the other, until one pair differs.
It follows the methods of interfaces, and these may lead back to the interfaces from which it started.
It ends unless it runs in a circle, and then its depth is bounded by the number of pairs of types.
-/

namespace UnusedMethods.Types

variable {answer : TypePair → Option Bool}

/-! ## Questions -/

/-- Two types that are compared. -/
abbrev TypePair := TypeId × TypeId

/-- Asks questions until one has the answer no. A question that is `none` has this answer at once. -/
def askAll (answer : TypePair → Option Bool) : List (Option TypePair) → Option Bool
  | [] => some true
  | none :: _ => some false
  | some q :: qs => andThen (answer q) fun _ => askAll answer qs

/-- The questions about two lists, element by element. -/
def zipQuestions {α : Type} (question : α → α → Option TypePair) (xs ys : List α) : List (Option TypePair) :=
  if xs.length = ys.length then List.zipWith question xs ys else [none]

/-- What the comparison of two types that are not the same entry asks. -/
def Ty.questions (t : Table) : Ty → Ty → List (Option TypePair)
  | .basic x, .basic y => if x = y then [] else [none]
  | .named x, .named y =>
    match x.origin, y.origin with
    | some o, some p => if o = p then zipQuestions (fun x y => some (x, y)) x.typeArgs y.typeArgs else [none]
    | _, _ => [none]
  | .pointer x, .pointer y => [some (x, y)]
  | .slice x, .slice y => [some (x, y)]
  | .array k x, .array l y => if k = l then [some (x, y)] else [none]
  | .map k x, .map l y => [some (k, l), some (x, y)]
  | .chan d x, .chan e y => if d = e then [some (x, y)] else [none]
  | .signature x, .signature y =>
    if x.variadic = y.variadic then
      zipQuestions (fun x y => some (x, y)) x.params y.params ++
        zipQuestions (fun x y => some (x, y)) x.results y.results
    else [none]
  | .tuple xs, .tuple ys => zipQuestions (fun x y => some (x, y)) xs ys
  | .struct xs, .struct ys =>
    zipQuestions (fun f g =>
      if f.name = g.name ∧ f.embedded = g.embedded then some (f.type, g.type) else none) xs ys
  | .interface x, .interface y =>
    if x.hasTerms || y.hasTerms then [none]
    else
      zipQuestions (fun f g =>
        if (t.func f).name = (t.func g).name then some ((t.func f).sig, (t.func g).sig) else none)
        x.methodList y.methodList
  | .union xs, .union ys =>
    zipQuestions (fun f g => if f.tilde = g.tilde then some (f.type, g.type) else none) xs ys
  | _, _ => [none]

/-- What the comparison of two types asks. -/
def Table.questions (t : Table) (p : TypePair) : List (Option TypePair) :=
  if p.1 = p.2 then [] else (t.get p.1).questions t (t.get p.2)

/-! ### Lists of questions -/

theorem askAll_append (answer : TypePair → Option Bool) (qs qs' : List (Option TypePair)) :
    askAll answer (qs ++ qs') = andThen (askAll answer qs) fun _ => askAll answer qs' := by
  induction qs with
  | nil => rfl
  | cons q qs ih =>
    cases q with
    | none => rfl
    | some q =>
      simp only [List.cons_append, askAll, ih]
      cases answer q with
      | none => rfl
      | some b => cases b <;> rfl

theorem askAll_singleton (answer : TypePair → Option Bool) (q : TypePair) :
    askAll answer [some q] = answer q := by
  simp only [askAll]
  cases answer q with
  | none => rfl
  | some b => cases b <;> rfl

theorem allPairs_eq_askAll {α : Type} {r : α → α → Option Bool} {question : α → α → Option TypePair}
    (h : ∀ x y, r x y = (question x y).elim (some false) answer) (xs ys : List α) :
    allPairs r xs ys = askAll answer (zipQuestions question xs ys) := by
  unfold allPairs zipQuestions
  split
  · clear * - h
    induction xs generalizing ys with
    | nil => rfl
    | cons x xs ih =>
      cases ys with
      | nil => rfl
      | cons y ys =>
        rw [allZip, List.zipWith_cons_cons, ih, h]
        cases question x y with
        | none => rfl
        | some q => rfl
  · rfl

theorem askAll_mono {answer' : TypePair → Option Bool} (h : ∀ q b, answer q = some b → answer' q = some b)
    {qs : List (Option TypePair)} {b : Bool} (hb : askAll answer qs = some b) : askAll answer' qs = some b := by
  induction qs with
  | nil => exact hb
  | cons q qs ih =>
    cases q with
    | none => exact hb
    | some q =>
      simp only [askAll] at hb ⊢
      cases hq : answer q with
      | none =>
        rw [hq] at hb
        cases hb
      | some c =>
        rw [h q c hq]
        rw [hq] at hb
        cases c with
        | false => exact hb
        | true => exact ih hb

theorem askAll_eq_none {before after : List (Option TypePair)} {q : TypePair}
    (hbefore : ∀ x ∈ before, ∃ q', x = some q' ∧ answer q' ≠ some false) (hq : answer q = none) :
    askAll answer (before ++ some q :: after) = none := by
  induction before with
  | nil =>
    rw [List.nil_append, askAll, hq]
    rfl
  | cons x before ih =>
    obtain ⟨q', rfl, hq'⟩ := hbefore x (by simp)
    rw [List.cons_append, askAll, ih fun y hy => hbefore y (by simp [hy])]
    cases hans : answer q' with
    | none => rfl
    | some b =>
      cases b with
      | false => exact absurd hans hq'
      | true => rfl

theorem exists_of_askAll_eq_none {qs : List (Option TypePair)} (h : askAll answer qs = none) :
    ∃ before q after, qs = before ++ some q :: after ∧
      (∀ x ∈ before, ∃ q', x = some q' ∧ answer q' = some true) ∧ answer q = none := by
  induction qs with
  | nil => cases h
  | cons x qs ih =>
    cases x with
    | none => cases h
    | some q =>
      rw [askAll] at h
      cases hq : answer q with
      | none => exact ⟨[], q, qs, rfl, by simp, hq⟩
      | some b =>
        rw [hq] at h
        cases b with
        | false => cases h
        | true =>
          obtain ⟨before, q', after, rfl, hbefore, hq'⟩ := ih h
          refine ⟨some q :: before, q', after, rfl, ?_, hq'⟩
          intro x hx
          rcases List.mem_cons.1 hx with rfl | hx
          · exact ⟨q, rfl, hq⟩
          · exact hbefore x hx

/-! ## Levels -/

namespace Table

variable (t : Table)

variable {n : Nat} {p : TypePair} {b : Bool} {qs : List TypePair}

/-- The comparison of a pair. -/
def compareWithin (n : Nat) (p : TypePair) : Option Bool := t.identicalWithin n p.1 p.2

/-- One level of the comparison asks the questions about the two types. -/
theorem compareWithin_succ (n : Nat) (p : TypePair) :
    t.compareWithin (n + 1) p = askAll (t.compareWithin n) (t.questions p) := by
  obtain ⟨a, b⟩ := p
  have hids : ∀ xs ys : List TypeId, allPairs (t.identicalWithin n) xs ys =
      askAll (t.compareWithin n) (zipQuestions (fun x y => some (x, y)) xs ys) := by
    intro xs ys
    refine allPairs_eq_askAll (fun x y => ?_) xs ys
    rfl
  have hone : ∀ x y, t.identicalWithin n x y = askAll (t.compareWithin n) [some (x, y)] :=
    fun x y => (askAll_singleton (t.compareWithin n) (x, y)).symm
  simp only [compareWithin, questions, identicalWithin]
  split
  · rfl
  generalize t.get a = x
  generalize t.get b = y
  cases x with
  | invalid => cases y <;> rfl
  | basic x =>
    cases y with
    | basic y =>
      simp only [Ty.questions]
      split <;> simp_all [askAll]
    | _ => rfl
  | named x =>
    cases y with
    | named y =>
      simp only [Ty.questions]
      cases x.origin with
      | none => rfl
      | some o =>
        cases y.origin with
        | none => rfl
        | some p =>
          dsimp only
          split
          · exact hids _ _
          · rfl
    | _ => rfl
  | pointer x =>
    cases y with
    | pointer y => exact hone x y
    | _ => rfl
  | slice x =>
    cases y with
    | slice y => exact hone x y
    | _ => rfl
  | array k x =>
    cases y with
    | array l y =>
      simp only [Ty.questions]
      split
      · exact hone x y
      · rfl
    | _ => rfl
  | map k x =>
    cases y with
    | map l y =>
      simp only [Ty.questions]
      rw [askAll, ← hone]
      rfl
    | _ => rfl
  | chan d x =>
    cases y with
    | chan e y =>
      simp only [Ty.questions]
      split
      · exact hone x y
      · rfl
    | _ => rfl
  | signature x =>
    cases y with
    | signature y =>
      simp only [Ty.questions]
      split
      · rw [askAll_append, hids, hids]
      · rfl
    | _ => rfl
  | interface x =>
    cases y with
    | interface y =>
      simp only [Ty.questions]
      split
      · rfl
      · refine allPairs_eq_askAll (fun f g => ?_) _ _
        split <;> rfl
    | _ => rfl
  | struct xs =>
    cases y with
    | struct ys =>
      refine allPairs_eq_askAll (fun f g => ?_) _ _
      split <;> rfl
    | _ => rfl
  | tuple xs =>
    cases y with
    | tuple ys => exact hids xs ys
    | _ => rfl
  | typeParam p => cases y <;> rfl
  | union xs =>
    cases y with
    | union ys =>
      refine allPairs_eq_askAll (fun f g => ?_) _ _
      split <;> rfl
    | _ => rfl

variable {t}

theorem compareWithin_succ_of_eq_some (h : t.compareWithin n p = some b) : t.compareWithin (n + 1) p = some b := by
  induction n generalizing p b with
  | zero => cases h
  | succ n ih =>
    rw [compareWithin_succ] at h ⊢
    exact askAll_mono (fun q c hq => ih hq) h

theorem compareWithin_mono {m : Nat} (hnm : n ≤ m) (h : t.compareWithin n p = some b) : t.compareWithin m p = some b := by
  induction hnm with
  | refl => exact h
  | step _ ih => exact compareWithin_succ_of_eq_some ih

theorem compareWithin_unique {m : Nat} {c : Bool} (hb : t.compareWithin n p = some b) (hc : t.compareWithin m p = some c) :
    b = c := by
  have hb' := compareWithin_mono (Nat.le_max_left n m) hb
  have hc' := compareWithin_mono (Nat.le_max_right n m) hc
  rw [hb'] at hc'
  exact Option.some.inj hc'

/-! ## Circles -/

/-- The comparison of `p` comes to ask `q`: it is one of the questions, and those before it have the
answer yes. -/
def Asks (t : Table) (p q : TypePair) : Prop :=
  ∃ before after, t.questions p = before ++ some q :: after ∧
    ∀ x ∈ before, ∃ q', x = some q' ∧ ∃ n, t.compareWithin n q' = some true

/-- The comparison of `p` comes to a comparison that asks, at some depth, what it has to answer. -/
def Circular (t : Table) (p : TypePair) : Prop :=
  ∃ q, Relation.ReflTransGen t.Asks p q ∧ Relation.TransGen t.Asks q q

/-- A comparison that runs in a circle goes on to another one that does. -/
theorem Circular.exists_asks (h : t.Circular p) : ∃ q, t.Asks p q ∧ t.Circular q := by
  obtain ⟨r, hpr, hrr⟩ := h
  rcases hpr.cases_head with rfl | ⟨q, hpq, hqr⟩
  · obtain ⟨q, hpq, hqp⟩ := Relation.TransGen.head'_iff.1 hrr
    exact ⟨q, hpq, p, hqp, hrr⟩
  · exact ⟨q, hpq, r, hqr, hrr⟩

/-- A comparison that runs in a circle has no answer, however many levels it is given. -/
theorem Circular.compareWithin_eq_none (h : t.Circular p) (n : Nat) : t.compareWithin n p = none := by
  induction n generalizing p with
  | zero => rfl
  | succ n ih =>
    obtain ⟨q, ⟨before, after, heq, hbefore⟩, hq⟩ := h.exists_asks
    rw [compareWithin_succ, heq]
    refine askAll_eq_none (fun x hx => ?_) (ih hq)
    -- what has the answer yes with some number of levels does not have the answer no with another
    obtain ⟨q', rfl, m, hm⟩ := hbefore x hx
    refine ⟨q', rfl, fun hno => ?_⟩
    cases compareWithin_unique hno hm

/-- Without an answer in `n` levels, there is a chain of `n` questions. -/
theorem exists_chain_of_compareWithin_eq_none (h : t.compareWithin n p = none) :
    ∃ qs : List TypePair, qs.length = n ∧ (p :: qs).IsChain t.Asks := by
  induction n generalizing p with
  | zero => exact ⟨[], rfl, .singleton p⟩
  | succ n ih =>
    rw [compareWithin_succ] at h
    obtain ⟨before, q, after, heq, hbefore, hq⟩ := exists_of_askAll_eq_none h
    have hasks : t.Asks p q := by
      refine ⟨before, after, heq, fun x hx => ?_⟩
      obtain ⟨q', rfl, hq'⟩ := hbefore x hx
      exact ⟨q', rfl, n, hq'⟩
    obtain ⟨qs, hlen, hchain⟩ := ih hq
    exact ⟨q :: qs, by simp [hlen], .cons_cons hasks hchain⟩

theorem get_eq_invalid {id : TypeId} (h : t.types.size ≤ id.index) : t.get id = .invalid := by
  simp [get, Array.getElem?_eq_none h]

theorem Asks.lt_size {q : TypePair} (h : t.Asks p q) : p.1.index < t.types.size ∧ p.2.index < t.types.size := by
  obtain ⟨before, after, heq, -⟩ := h
  unfold questions at heq
  split at heq
  · simp at heq
  constructor
  · by_contra hlt
    rw [get_eq_invalid (Nat.le_of_not_lt hlt)] at heq
    cases before with
    | nil => cases heq
    | cons x before => simp [Ty.questions] at heq
  · by_contra hlt
    rw [get_eq_invalid (Nat.le_of_not_lt hlt)] at heq
    cases hget : t.get p.1 <;> rw [hget] at heq <;> cases before <;> simp [Ty.questions] at heq

/-- A pair that stands twice in a chain of questions is part of a circle. -/
theorem circular_of_chain (hchain : (p :: qs).IsChain t.Asks) (hdup : ¬ (p :: qs).Nodup) : t.Circular p := by
  have hpairwise : (p :: qs).Pairwise (Relation.TransGen t.Asks) :=
    (hchain.imp fun _ _ => Relation.TransGen.single).pairwise
  rw [List.nodup_iff_sublist] at hdup
  push Not at hdup
  obtain ⟨q, hq⟩ := hdup
  have hqq : Relation.TransGen t.Asks q q := by
    have htwo := hpairwise.sublist hq
    simpa using htwo
  have hmem : q ∈ p :: qs := hq.subset (by simp)
  rcases List.mem_cons.1 hmem with rfl | hmem
  · exact ⟨q, .refl, hqq⟩
  · exact ⟨q, (List.rel_of_pairwise_cons hpairwise hmem).to_reflTransGen, hqq⟩

theorem lt_size_of_mem_dropLast (hchain : qs.IsChain t.Asks) {q : TypePair} (hq : q ∈ qs.dropLast) :
    q.1.index < t.types.size ∧ q.2.index < t.types.size := by
  induction hchain with
  | nil => cases hq
  | singleton => cases hq
  | cons_cons hasks _ ih =>
    rw [List.dropLast_cons_cons, List.mem_cons] at hq
    rcases hq with rfl | hq
    · exact hasks.lt_size
    · exact ih hq

theorem length_le_of_nodup (hnodup : qs.Nodup) (hlt : ∀ q ∈ qs, q.1.index < t.types.size ∧ q.2.index < t.types.size) :
    qs.length ≤ t.types.size * t.types.size := by
  let indices : TypePair → Nat × Nat := fun q => (q.1.index, q.2.index)
  have hinj : Function.Injective indices := by
    rintro ⟨⟨a⟩, ⟨b⟩⟩ ⟨⟨c⟩, ⟨d⟩⟩ h
    cases h
    rfl
  have hsub : (qs.map indices).toFinset ⊆ Finset.range t.types.size ×ˢ Finset.range t.types.size := by
    intro i hi
    rw [List.mem_toFinset, List.mem_map] at hi
    obtain ⟨q, hq, rfl⟩ := hi
    exact Finset.mem_product.2 ⟨Finset.mem_range.2 (hlt q hq).1, Finset.mem_range.2 (hlt q hq).2⟩
  calc qs.length = (qs.map indices).length := (List.length_map _).symm
    _ = (qs.map indices).toFinset.card := (List.toFinset_card_of_nodup (hnodup.map hinj)).symm
    _ ≤ (Finset.range t.types.size ×ˢ Finset.range t.types.size).card := Finset.card_le_card hsub
    _ = t.types.size * t.types.size := by rw [Finset.card_product, Finset.card_range]

/-- A comparison that needs more levels than there are pairs of types runs in a circle. -/
theorem circular_of_compareWithin_eq_none (hn : t.types.size * t.types.size < n) (h : t.compareWithin n p = none) :
    t.Circular p := by
  obtain ⟨qs, hlen, hchain⟩ := exists_chain_of_compareWithin_eq_none h
  refine circular_of_chain hchain fun hnodup => ?_
  have hle := length_le_of_nodup (hnodup.sublist (List.dropLast_sublist _))
    fun q hq => lt_size_of_mem_dropLast hchain hq
  rw [List.length_dropLast, List.length_cons, hlen] at hle
  omega

/-- The levels that a comparison is given are enough for every one that ends. -/
theorem compareWithin_comparisonBound (h : t.compareWithin n p = some b) : t.compareWithin t.comparisonBound p = some b := by
  cases hbound : t.compareWithin t.comparisonBound p with
  | none =>
    have hlt : t.types.size * t.types.size < t.comparisonBound := by
      unfold comparisonBound
      omega
    rw [(circular_of_compareWithin_eq_none hlt hbound).compareWithin_eq_none n] at h
    cases h
  | some c => rw [compareWithin_unique hbound h]

theorem identical_of_compareWithin (h : t.compareWithin n p = some b) : t.identical p.1 p.2 = b := by
  unfold identical
  rw [show t.identicalWithin t.comparisonBound p.1 p.2 = some b from compareWithin_comparisonBound h, Option.getD_some]

theorem identical_self (t : Table) (id : TypeId) : t.identical id id = true :=
  identical_of_compareWithin (n := 1) (p := (id, id)) (by rw [compareWithin, identicalWithin, if_pos rfl])

theorem exists_compareWithin_iff (t : Table) (p : TypePair) :
    (∃ n b, t.compareWithin n p = some b) ↔ ¬ t.Circular p := by
  constructor
  · rintro ⟨n, b, hb⟩ hcirc
    rw [hcirc.compareWithin_eq_none n] at hb
    cases hb
  · intro hcirc
    cases hbound : t.compareWithin (t.types.size * t.types.size + 1) p with
    | none => exact absurd (circular_of_compareWithin_eq_none (Nat.lt_succ_self _) hbound) hcirc
    | some b => exact ⟨_, b, hbound⟩

end Table

end UnusedMethods.Types
