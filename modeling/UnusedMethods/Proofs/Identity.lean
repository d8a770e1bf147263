import Mathlib.Data.List.Forall2
import UnusedMethods.Proofs.Circles

/-!
# Identity of types

Identity is an equivalence between the types of a table: the comparison of two types asks the same as that of the types
exchanged, and what two comparisons with a type in the middle confirm, the comparison of the outer types confirms.

While declarations are read, the method sets of interfaces are not known, and interfaces are compared by the methods that
they declare themselves. So identity may change as the table grows, but only where a comparison comes to two interfaces of
which one has a method set that is not known: all others have the same answer in every later table.
-/

namespace UnusedMethods.Types

variable {α : Type} {answer : TypePair → Option Bool}

variable {qs : List (Option TypePair)} {question : α → α → Option TypePair} {xs ys : List α} {P : Prop}

/-! ## Questions that are confirmed -/

/-- The question has the answer yes. -/
def Confirmed (answer : TypePair → Option Bool) (o : Option TypePair) : Prop := ∃ q, o = some q ∧ answer q = some true

theorem not_confirmed_none : ¬ Confirmed answer none := by
  intro h
  obtain ⟨q, hq, -⟩ := h
  cases hq

theorem confirmed_some {q : TypePair} : Confirmed answer (some q) ↔ answer q = some true := by
  simp [Confirmed]

theorem askAll_eq_some_true_iff : askAll answer qs = some true ↔ ∀ o ∈ qs, Confirmed answer o := by
  induction qs with
  | nil => simp [askAll]
  | cons o qs ih =>
    rw [List.forall_mem_cons]
    cases o with
    | none => simp [askAll, not_confirmed_none]
    | some q =>
      rw [askAll, confirmed_some]
      cases hq : answer q with
      | none => simp [andThen]
      | some b => cases b <;> simp [andThen, ih]

theorem askAll_congr {answer' : TypePair → Option Bool}
    (h : ∀ before q after, qs = before ++ some q :: after → (∀ o ∈ before, Confirmed answer o) → answer' q = answer q) :
    askAll answer' qs = askAll answer qs := by
  induction qs with
  | nil => rfl
  | cons o qs ih =>
    cases o with
    | none => rfl
    | some q =>
      rw [askAll, askAll, h [] q qs rfl (by simp)]
      cases hq : answer q with
      | none => rfl
      | some b =>
        cases b with
        | false => rfl
        | true =>
          refine ih fun before q' after heq hbefore => h (some q :: before) q' after (by rw [heq]; rfl) ?_
          exact List.forall_mem_cons.2 ⟨confirmed_some.2 hq, hbefore⟩

/-- Two lists are confirmed if they have the same length and are confirmed element by element. -/
theorem forall_zipQuestions_iff : (∀ o ∈ zipQuestions question xs ys, Confirmed answer o) ↔
      List.Forall₂ (fun x y => Confirmed answer (question x y)) xs ys := by
  unfold zipQuestions
  by_cases hlength : xs.length = ys.length
  · rw [if_pos hlength]
    induction xs generalizing ys with
    | nil =>
      cases ys with
      | nil => simp
      | cons y ys => cases hlength
    | cons x xs ih =>
      cases ys with
      | nil => cases hlength
      | cons y ys => simp [ih (Nat.succ.inj hlength)]
  · rw [if_neg hlength]
    constructor
    · intro h
      exact absurd (h none (List.mem_singleton.2 rfl)) not_confirmed_none
    · intro h
      exact absurd h.length_eq hlength

theorem forall₂_trans {R : α → α → Prop} (hR : ∀ x y z, R x y → R y z → R x z) {zs : List α} (h : List.Forall₂ R xs ys)
    (h' : List.Forall₂ R ys zs) : List.Forall₂ R xs zs := by
  induction h generalizing zs with
  | nil => exact h'
  | cons hxy _ ih =>
    cases h' with
    | cons hyz h' => exact .cons (hR _ _ _ hxy hyz) (ih h')

/-! ## Exchanged types -/

theorem zipQuestions_swap (h : ∀ x y, question y x = (question x y).map Prod.swap) (xs ys : List α) :
    zipQuestions question ys xs = (zipQuestions question xs ys).map (Option.map Prod.swap) := by
  unfold zipQuestions
  by_cases hlength : xs.length = ys.length
  · rw [if_pos hlength, if_pos hlength.symm, List.map_zipWith, List.zipWith_comm]
    exact congrArg (fun f => List.zipWith f xs ys) (funext fun x => funext fun y => h x y)
  · rw [if_neg hlength, if_neg (Ne.symm hlength)]
    rfl

theorem askAll_swap (qs : List (Option TypePair)) :
    askAll answer (qs.map (Option.map Prod.swap)) = askAll (fun q => answer q.swap) qs := by
  induction qs with
  | nil => rfl
  | cons o qs ih =>
    cases o with
    | none => rfl
    | some q => simp [askAll, ih]

/-- Exchanged types give rise to exchanged questions. -/
theorem Ty.questions_swap (t : Table) (x y : Ty) : y.questions t x = (x.questions t y).map (Option.map Prod.swap) := by
  have hids : ∀ xs ys : List TypeId, zipQuestions (fun x y => some (x, y)) ys xs =
      (zipQuestions (fun x y => some (x, y)) xs ys).map (Option.map Prod.swap) :=
    zipQuestions_swap fun _ _ => rfl
  cases x with
  | named x =>
    cases y with
    | named y =>
      simp only [Ty.questions]
      cases x.origin with
      | none => cases y.origin <;> rfl
      | some o =>
        cases y.origin with
        | none => rfl
        | some o' =>
          simp only [@eq_comm _ o' o]
          split
          · exact hids x.typeArgs y.typeArgs
          · rfl
    | _ => rfl
  | basic x =>
    cases y with
    | basic y =>
      simp only [Ty.questions, @eq_comm _ y x]
      split <;> rfl
    | _ => rfl
  | pointer x => cases y <;> rfl
  | slice x => cases y <;> rfl
  | array k x =>
    cases y with
    | array l y =>
      simp only [Ty.questions, @eq_comm _ l k]
      split <;> rfl
    | _ => rfl
  | map k x => cases y <;> rfl
  | chan d x =>
    cases y with
    | chan e y =>
      simp only [Ty.questions, @eq_comm _ e d]
      split <;> rfl
    | _ => rfl
  | signature x =>
    cases y with
    | signature y =>
      simp only [Ty.questions, @eq_comm _ y.variadic x.variadic]
      split
      · rw [List.map_append, hids x.params, hids x.results]
      · rfl
    | _ => rfl
  | tuple xs =>
    cases y with
    | tuple ys => exact hids xs ys
    | _ => rfl
  | struct xs =>
    cases y with
    | struct ys =>
      refine zipQuestions_swap (fun f g => ?_) xs ys
      simp only [@eq_comm _ g.name f.name, @eq_comm _ g.embedded f.embedded]
      split <;> rfl
    | _ => rfl
  | interface x =>
    cases y with
    | interface y =>
      simp only [Ty.questions, Bool.or_comm y.hasTerms x.hasTerms]
      split
      · rfl
      · refine zipQuestions_swap (fun f g => ?_) _ _
        simp only [@eq_comm _ (t.func g).name (t.func f).name]
        split <;> rfl
    | _ => rfl
  | union xs =>
    cases y with
    | union ys =>
      refine zipQuestions_swap (fun f g => ?_) xs ys
      simp only [@eq_comm _ g.tilde f.tilde]
      split <;> rfl
    | _ => rfl
  | invalid => cases y <;> rfl
  | typeParam p => cases y <;> rfl

/-! ## A type in the middle -/

theorem forall_mem_singleton_none : ¬ ∀ o ∈ [(none : Option TypePair)], Confirmed answer o :=
  fun h => not_confirmed_none (h none (List.mem_singleton.2 rfl))

theorem confirmed_ite_iff [Decidable P] {q : TypePair} :
    Confirmed answer (if P then some q else none) ↔ P ∧ answer q = some true := by
  split
  · rename_i h
    rw [confirmed_some, and_iff_right h]
  · rename_i h
    exact ⟨fun hnone => absurd hnone not_confirmed_none, fun hp => absurd hp.1 h⟩

theorem forall_ite_iff [Decidable P] :
    (∀ o ∈ if P then qs else [none], Confirmed answer o) ↔ P ∧ ∀ o ∈ qs, Confirmed answer o := by
  split
  · rename_i h
    rw [and_iff_right h]
  · rename_i h
    exact ⟨fun hnone => absurd hnone forall_mem_singleton_none, fun hp => absurd hp.1 h⟩

theorem forall_ite_none_iff [Decidable P] :
    (∀ o ∈ if P then [none] else qs, Confirmed answer o) ↔ ¬ P ∧ ∀ o ∈ qs, Confirmed answer o := by
  rw [← forall_ite_iff, ite_not]

theorem zipQuestions_trans
    (hquestion : ∀ x y z, Confirmed answer (question x y) → Confirmed answer (question y z) → Confirmed answer (question x z))
    {zs : List α} (h : ∀ o ∈ zipQuestions question xs ys, Confirmed answer o)
    (h' : ∀ o ∈ zipQuestions question ys zs, Confirmed answer o) :
    ∀ o ∈ zipQuestions question xs zs, Confirmed answer o := by
  rw [forall_zipQuestions_iff] at h h' ⊢
  exact forall₂_trans hquestion h h'

/-- What is confirmed of two types, and of the second and a third one, is confirmed of the first and the third. -/
theorem Ty.questions_trans (t : Table) {x y z : Ty}
    (htrans : ∀ a b c, answer (a, b) = some true → answer (b, c) = some true → answer (a, c) = some true)
    (hxy : ∀ o ∈ x.questions t y, Confirmed answer o) (hyz : ∀ o ∈ y.questions t z, Confirmed answer o) :
    ∀ o ∈ x.questions t z, Confirmed answer o := by
  have hids : ∀ {xs ys zs : List TypeId},
      (∀ o ∈ zipQuestions (fun x y => some (x, y)) xs ys, Confirmed answer o) →
      (∀ o ∈ zipQuestions (fun x y => some (x, y)) ys zs, Confirmed answer o) →
      ∀ o ∈ zipQuestions (fun x y => some (x, y)) xs zs, Confirmed answer o := by
    refine zipQuestions_trans fun a b c hab hbc => ?_
    exact confirmed_some.2 (htrans a b c (confirmed_some.1 hab) (confirmed_some.1 hbc))
  have hone : ∀ {a b c : TypeId}, (∀ o ∈ [some (a, b)], Confirmed answer o) → (∀ o ∈ [some (b, c)], Confirmed answer o) →
      ∀ o ∈ [some (a, c)], Confirmed answer o := by
    simp only [List.mem_singleton, forall_eq, confirmed_some]
    exact htrans _ _ _
  -- types of different kinds are not confirmed
  unfold Ty.questions at hxy
  split at hxy
  case h_13 => exact absurd hxy forall_mem_singleton_none
  case h_1 x y =>
    cases z with
    | basic z =>
      obtain ⟨rfl, -⟩ := forall_ite_iff.1 hxy
      exact hyz
    | _ => exact absurd hyz forall_mem_singleton_none
  case h_2 x y =>
    cases z with
    | named z =>
      simp only [Ty.questions] at hyz ⊢
      cases hx : x.origin with
      | none => simp only [hx] at hxy; exact absurd hxy forall_mem_singleton_none
      | some o =>
        cases hy : y.origin with
        | none => simp only [hx, hy] at hxy; exact absurd hxy forall_mem_singleton_none
        | some o' =>
          cases hz : z.origin with
          | none => simp only [hy, hz] at hyz; exact absurd hyz forall_mem_singleton_none
          | some o'' =>
            simp only [hx, hy, hz, forall_ite_iff] at hxy hyz ⊢
            exact ⟨hxy.1.trans hyz.1, hids hxy.2 hyz.2⟩
    | _ => exact absurd hyz forall_mem_singleton_none
  case h_3 x y =>
    cases z with
    | pointer z => exact hone hxy hyz
    | _ => exact absurd hyz forall_mem_singleton_none
  case h_4 x y =>
    cases z with
    | slice z => exact hone hxy hyz
    | _ => exact absurd hyz forall_mem_singleton_none
  case h_5 k x l y =>
    cases z with
    | array m z =>
      obtain ⟨hkl, hxy⟩ := forall_ite_iff.1 hxy
      obtain ⟨hlm, hyz⟩ := forall_ite_iff.1 hyz
      exact forall_ite_iff.2 ⟨hkl.trans hlm, hone hxy hyz⟩
    | _ => exact absurd hyz forall_mem_singleton_none
  case h_6 k x l y =>
    cases z with
    | map m z =>
      obtain ⟨hkl, hxy⟩ := List.forall_mem_cons.1 hxy
      obtain ⟨hlm, hyz⟩ := List.forall_mem_cons.1 hyz
      refine List.forall_mem_cons.2 ⟨?_, hone hxy hyz⟩
      exact confirmed_some.2 (htrans _ _ _ (confirmed_some.1 hkl) (confirmed_some.1 hlm))
    | _ => exact absurd hyz forall_mem_singleton_none
  case h_7 d x e y =>
    cases z with
    | chan f z =>
      obtain ⟨hde, hxy⟩ := forall_ite_iff.1 hxy
      obtain ⟨hef, hyz⟩ := forall_ite_iff.1 hyz
      exact forall_ite_iff.2 ⟨hde.trans hef, hone hxy hyz⟩
    | _ => exact absurd hyz forall_mem_singleton_none
  case h_8 x y =>
    cases z with
    | signature z =>
      obtain ⟨hvariadic, hxy⟩ := forall_ite_iff.1 hxy
      obtain ⟨hvariadic', hyz⟩ := forall_ite_iff.1 hyz
      obtain ⟨hparams, hresults⟩ := List.forall_mem_append.1 hxy
      obtain ⟨hparams', hresults'⟩ := List.forall_mem_append.1 hyz
      refine forall_ite_iff.2 ⟨hvariadic.trans hvariadic', List.forall_mem_append.2 ?_⟩
      exact ⟨hids hparams hparams', hids hresults hresults'⟩
    | _ => exact absurd hyz forall_mem_singleton_none
  case h_9 x y =>
    cases z with
    | tuple z => exact hids hxy hyz
    | _ => exact absurd hyz forall_mem_singleton_none
  case h_10 x y =>
    cases z with
    | struct z =>
      refine zipQuestions_trans (fun f g h hfg hgh => ?_) hxy hyz
      simp only [confirmed_ite_iff] at hfg hgh ⊢
      exact ⟨⟨hfg.1.1.trans hgh.1.1, hfg.1.2.trans hgh.1.2⟩, htrans _ _ _ hfg.2 hgh.2⟩
    | _ => exact absurd hyz forall_mem_singleton_none
  case h_11 x y =>
    cases z with
    | interface z =>
      simp only [Ty.questions, forall_ite_none_iff, Bool.or_eq_true, not_or] at hxy hyz ⊢
      refine ⟨⟨hxy.1.1, hyz.1.2⟩, zipQuestions_trans (fun f g h hfg hgh => ?_) hxy.2 hyz.2⟩
      simp only [confirmed_ite_iff] at hfg hgh ⊢
      exact ⟨hfg.1.trans hgh.1, htrans _ _ _ hfg.2 hgh.2⟩
    | _ => exact absurd hyz forall_mem_singleton_none
  case h_12 x y =>
    cases z with
    | union z =>
      refine zipQuestions_trans (fun f g h hfg hgh => ?_) hxy hyz
      simp only [confirmed_ite_iff] at hfg hgh ⊢
      exact ⟨hfg.1.trans hgh.1, htrans _ _ _ hfg.2 hgh.2⟩
    | _ => exact absurd hyz forall_mem_singleton_none

/-! ## Types that are filled in -/

/-- What the comparison with a type looks at, unless two interfaces are compared. -/
def Ty.core : Ty → Ty
  | .named n => .named { n with name := "", package := none, rhs := .invalid, methods := [], typeParams := [], expanded := true }
  | .interface _ => .interface { explicit := [], embedded := [], methods := [], complete := true, hasTerms := false }
  | .typeParam _ => .typeParam { name := "", index := 0, constraint := .invalid }
  | ty => ty

theorem Ty.Becomes.core {x x' : Ty} (h : x.Becomes x') : x'.core = x.core := by
  cases x with
  | named n =>
    cases x' with
    | named n' =>
      obtain ⟨-, -, horigin, hargs⟩ := h
      simp only [Ty.core, horigin, hargs]
    | _ => cases h
  | interface i =>
    cases x' with
    | interface i' => rfl
    | _ => cases h
  | typeParam p =>
    cases x' with
    | typeParam p' => rfl
    | _ => cases h
  | _ =>
    cases h
    rfl

theorem Ty.isInterface_core (x : Ty) : x.core.isInterface = x.isInterface := by
  cases x <;> rfl

theorem Ty.questions_core {x y : Ty} (h : ¬ (x.isInterface = true ∧ y.isInterface = true)) (t t' : Table) :
    x.core.questions t' y.core = x.questions t y := by
  cases x with
  | interface i =>
    cases y with
    | interface j => exact absurd ⟨rfl, rfl⟩ h
    | _ => rfl
  | _ => cases y <;> rfl

theorem zipQuestions_congr {question' : α → α → Option TypePair} (h : ∀ x ∈ xs, ∀ y ∈ ys, question x y = question' x y) :
    zipQuestions question xs ys = zipQuestions question' xs ys := by
  unfold zipQuestions
  split
  · refine List.ext_getElem (by simp) fun i hi hi' => ?_
    rw [List.getElem_zipWith, List.getElem_zipWith]
    exact h _ (List.getElem_mem _) _ (List.getElem_mem _)
  · rfl

namespace Table

variable {t t' : Table}

variable {a b : TypeId} {as bs : List TypeId} {p : TypePair}

/-! ## Identity is an equivalence -/

theorem questions_swap (t : Table) (p : TypePair) : t.questions p.swap = (t.questions p).map (Option.map Prod.swap) := by
  obtain ⟨a, b⟩ := p
  simp only [questions, Prod.swap_prod_mk, @eq_comm _ b a]
  split
  · rfl
  · exact Ty.questions_swap t (t.get a) (t.get b)

theorem compareWithin_swap (n : Nat) (p : TypePair) : t.compareWithin n p.swap = t.compareWithin n p := by
  induction n generalizing p with
  | zero => rfl
  | succ n ih => simp only [compareWithin_succ, questions_swap, askAll_swap, ih]

theorem compareWithin_trans {n : Nat} {c : TypeId} (hab : t.compareWithin n (a, b) = some true)
    (hbc : t.compareWithin n (b, c) = some true) : t.compareWithin n (a, c) = some true := by
  induction n generalizing a b c with
  | zero => cases hab
  | succ n ih =>
    by_cases heq : a = b
    · rw [heq]
      exact hbc
    by_cases heq' : b = c
    · rw [← heq']
      exact hab
    rw [compareWithin_succ, askAll_eq_some_true_iff, questions] at hab hbc ⊢
    rw [if_neg heq] at hab
    rw [if_neg heq'] at hbc
    by_cases heq'' : a = c
    · rw [if_pos heq'']
      simp
    · rw [if_neg heq'']
      exact Ty.questions_trans t (fun _ _ _ => ih) hab hbc

theorem identical_iff : t.identical a b = true ↔ ∃ n, t.compareWithin n (a, b) = some true := by
  constructor
  · intro h
    refine ⟨t.comparisonBound, ?_⟩
    unfold identical at h
    unfold compareWithin
    cases hanswer : t.identicalWithin t.comparisonBound a b with
    | none => simp [hanswer] at h
    | some b => simpa [hanswer] using h
  · intro h
    obtain ⟨n, hn⟩ := h
    exact identical_of_compareWithin hn

theorem identical_symm (h : t.identical a b = true) : t.identical b a = true := by
  obtain ⟨n, hn⟩ := identical_iff.1 h
  exact identical_iff.2 ⟨n, (compareWithin_swap n (a, b)).trans hn⟩

theorem identical_trans {c : TypeId} (hab : t.identical a b = true) (hbc : t.identical b c = true) :
    t.identical a c = true := by
  obtain ⟨n, hn⟩ := identical_iff.1 hab
  obtain ⟨m, hm⟩ := identical_iff.1 hbc
  refine identical_iff.2 ⟨max n m, compareWithin_trans (b := b) ?_ ?_⟩
  · exact compareWithin_mono (Nat.le_max_left n m) hn
  · exact compareWithin_mono (Nat.le_max_right n m) hm

theorem identicalLists_iff : t.identicalLists as bs = true ↔ List.Forall₂ (fun a b => t.identical a b = true) as bs := by
  simp [identicalLists, List.forall₂_iff_zip]

theorem identicalLists_self (t : Table) (as : List TypeId) : t.identicalLists as as = true :=
  identicalLists_iff.2 (List.forall₂_same.2 fun a _ => t.identical_self a)

theorem identicalLists_symm (h : t.identicalLists as bs = true) : t.identicalLists bs as = true :=
  identicalLists_iff.2 ((identicalLists_iff.1 h).flip.imp fun _ _ => identical_symm)

theorem identicalLists_trans {cs : List TypeId} (h : t.identicalLists as bs = true) (h' : t.identicalLists bs cs = true) :
    t.identicalLists as cs = true := by
  rw [identicalLists_iff] at h h' ⊢
  exact forall₂_trans (R := fun a b => t.identical a b = true) (fun _ _ _ => identical_trans) h h'

/-! ## Answers that are final -/

/-- Two interfaces are compared, and the method set of one of them is not known. -/
def Open (t : Table) (p : TypePair) : Prop :=
  p.1 ≠ p.2 ∧ ∃ x y, t.get p.1 = .interface x ∧ t.get p.2 = .interface y ∧ (x.complete = false ∨ y.complete = false)

/-- The comparison does not come to two interfaces of which one has a method set that is not known. -/
def Settled (t : Table) (p : TypePair) : Prop := ∀ q, Relation.ReflTransGen t.Asks p q → ¬ t.Open q

/-- Every comparison is settled if all method sets are known. -/
theorem settled_of_forall (h : ∀ id, (t.get id).isIncomplete = false) (p : TypePair) : t.Settled p := by
  rintro q - ⟨-, x, y, hx, hy, hopen⟩
  have hfst : x.complete = true := by simpa [hx, Ty.isIncomplete] using h q.1
  have hsnd : y.complete = true := by simpa [hy, Ty.isIncomplete] using h q.2
  simp [hfst, hsnd] at hopen

/-- A comparison that fails at once is settled, unless two interfaces are compared. -/
theorem settled_of_questions (h : t.questions p = [none]) (hfst : (t.get p.1).isInterface = false) : t.Settled p := by
  intro q hq hopen
  rcases hq.cases_head with rfl | ⟨r, ⟨before, after, heq, -⟩, -⟩
  · obtain ⟨-, x, -, hx, -⟩ := hopen
    rw [hx] at hfst
    cases hfst
  · have hmem : some r ∈ t.questions p := by simp [heq]
    simp [h] at hmem

/-- The types are in the table. -/
def HasTypes (t : Table) (p : TypePair) : Prop := t.HasType p.1 ∧ t.HasType p.2

theorem hasType_of_mem_questions (hwf : t.WF) {q : TypePair} (h : some q ∈ t.questions p) : t.HasType q.1 := by
  unfold questions at h
  split at h
  · cases h
  · rcases Ty.fst_mem_parts_of_mem_questions h with hpart | ⟨hx, hy⟩
    · exact hwf.hasType_part _ hpart
    · cases hgetx : t.get p.1 with
      | interface x =>
        cases hgety : t.get p.2 with
        | interface y =>
          simp only [hgetx, hgety, Ty.questions] at h
          split at h
          · simp at h
          · obtain ⟨f, -, g, hq⟩ := exists_of_mem_zipQuestions h
            split at hq
            · cases hq
              exact hwf.hasType_sig f
            · cases hq
        | _ => rw [hgety] at hy; cases hy
      | _ => rw [hgetx] at hx; cases hx

theorem hasTypes_of_asks (hwf : t.WF) {q : TypePair} (h : t.Asks p q) : t.HasTypes q := by
  obtain ⟨before, after, heq, -⟩ := h
  have hmem : some q ∈ t.questions p := by simp [heq]
  refine ⟨hasType_of_mem_questions hwf hmem, hasType_of_mem_questions (p := p.swap) (q := q.swap) hwf ?_⟩
  rw [questions_swap]
  exact List.mem_map.2 ⟨some q, hmem, rfl⟩

/-- Interfaces whose method sets are known are compared by the same questions in every later table. -/
theorem questions_interface_of_grows (hwf : t.WF) (hgrows : t.Grows t') {x y x' y' : Interface} (hx : t.get a = .interface x)
    (hy : t.get b = .interface y) (hxcomplete : x.complete = true) (hycomplete : y.complete = true) (hx' : x'.SameMethods x)
    (hy' : y'.SameMethods y) :
    (Ty.interface x').questions t' (.interface y') = (Ty.interface x).questions t (.interface y) := by
  have hmethods : x'.methodList = x.methodList := by
    simp [Interface.methodList, hx'.complete, hxcomplete, hx'.methods]
  have hmethods' : y'.methodList = y.methodList := by
    simp [Interface.methodList, hy'.complete, hycomplete, hy'.methods]
  simp only [Ty.questions, hx'.hasTerms, hy'.hasTerms, hmethods, hmethods']
  split
  · rfl
  · refine zipQuestions_congr fun f hf g hg => ?_
    have hf := Expansion.hasMethod_methodList hwf hx hf
    have hg := Expansion.hasMethod_methodList hwf hy hg
    rw [(hgrows.func hf.hasFunc).name, (hgrows.func hg.hasFunc).name, (hgrows.func hf.hasFunc).sig hf.kind,
      (hgrows.func hg.hasFunc).sig hg.kind]

/-- Two types that are not open are compared by the same questions in every later table. -/
theorem questions_of_grows (hwf : t.WF) (hgrows : t.Grows t') (hp : t.HasTypes p) (hopen : ¬ t.Open p) :
    t'.questions p = t.questions p := by
  unfold questions
  split
  · rfl
  rename_i hne
  by_cases hinterfaces : (t.get p.1).isInterface = true ∧ (t.get p.2).isInterface = true
  · cases hx : t.get p.1 with
    | interface x =>
      cases hy : t.get p.2 with
      | interface y =>
        obtain ⟨x', hgetx, -, hsamex⟩ := hgrows.interface hx
        obtain ⟨y', hgety, -, hsamey⟩ := hgrows.interface hy
        rw [hgetx, hgety]
        -- both method sets are known
        have hcomplete : x.complete = true ∧ y.complete = true := by
          by_contra hincomplete
          refine hopen ⟨hne, x, y, hx, hy, ?_⟩
          cases hcx : x.complete <;> cases hcy : y.complete <;> simp_all
        exact questions_interface_of_grows hwf hgrows hx hy hcomplete.1 hcomplete.2 (hsamex hcomplete.1) (hsamey hcomplete.2)
      | _ => rw [hy] at hinterfaces; cases hinterfaces.2
    | _ => rw [hx] at hinterfaces; cases hinterfaces.1
  · obtain ⟨x', hx', hbecomesx⟩ := hgrows.types p.1.index _ hp.1.getElem?
    obtain ⟨y', hy', hbecomesy⟩ := hgrows.types p.2.index _ hp.2.getElem?
    rw [get_eq_of_getElem? hx', get_eq_of_getElem? hy']
    have hinterfaces' : ¬ (x'.isInterface = true ∧ y'.isInterface = true) := by
      rwa [← x'.isInterface_core, ← y'.isInterface_core, hbecomesx.core, hbecomesy.core, Ty.isInterface_core, Ty.isInterface_core]
    rw [← Ty.questions_core hinterfaces' t' t', ← Ty.questions_core hinterfaces t t', hbecomesx.core, hbecomesy.core]

/-- A comparison that is settled has the same answer in every later table. -/
theorem compareWithin_of_grows (hwf : t.WF) (hgrows : t.Grows t') (hp : t.HasTypes p) (h : t.Settled p) (n : Nat) :
    t'.compareWithin n p = t.compareWithin n p := by
  induction n generalizing p with
  | zero => rfl
  | succ n ih =>
    rw [compareWithin_succ, compareWithin_succ, questions_of_grows hwf hgrows hp (h p .refl)]
    refine askAll_congr fun before q after heq hbefore => ?_
    have hasks : t.Asks p q := ⟨before, after, heq, fun o ho => ?_⟩
    · exact ih (hasTypes_of_asks hwf hasks) fun r hr => h r (.head hasks hr)
    · obtain ⟨q', rfl, hq'⟩ := hbefore o ho
      exact ⟨q', rfl, n, hq'⟩

theorem identical_of_grows (hwf : t.WF) (hgrows : t.Grows t') (ha : t.HasType a) (hb : t.HasType b) (h : t.Settled (a, b)) :
    t'.identical a b = t.identical a b := by
  rw [Bool.eq_iff_iff, identical_iff, identical_iff]
  simp only [compareWithin_of_grows (p := (a, b)) hwf hgrows ⟨ha, hb⟩ h]

/-- The comparisons of two lists of types are settled. Types are compared pair by pair, until two of them differ. -/
def SettledLists (t : Table) : List TypeId → List TypeId → Prop
  | a :: as, b :: bs => t.Settled (a, b) ∧ (t.identical a b = true → t.SettledLists as bs)
  | _, _ => True

theorem settledLists_of_forall (h : ∀ id, (t.get id).isIncomplete = false) (as bs : List TypeId) : t.SettledLists as bs := by
  induction as generalizing bs with
  | nil => trivial
  | cons a as ih =>
    cases bs with
    | nil => trivial
    | cons b bs => exact ⟨settled_of_forall h _, fun _ => ih bs⟩

theorem identicalLists_of_grows (hwf : t.WF) (hgrows : t.Grows t') (has : ∀ a ∈ as, t.HasType a)
    (hbs : ∀ b ∈ bs, t.HasType b) (h : t.SettledLists as bs) : t'.identicalLists as bs = t.identicalLists as bs := by
  rw [Bool.eq_iff_iff, identicalLists_iff, identicalLists_iff]
  induction as generalizing bs with
  | nil => cases bs <;> simp
  | cons a as ih =>
    cases bs with
    | nil => simp
    | cons b bs =>
      obtain ⟨ha, has⟩ := List.forall_mem_cons.1 has
      obtain ⟨hb, hbs⟩ := List.forall_mem_cons.1 hbs
      obtain ⟨hsettled, hrest⟩ := h
      rw [List.forall₂_cons, List.forall₂_cons, identical_of_grows hwf hgrows ha hb hsettled]
      exact and_congr_right fun hab => ih has hbs (hrest hab)

end Table

end UnusedMethods.Types
