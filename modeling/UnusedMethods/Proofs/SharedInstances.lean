import UnusedMethods.Proofs.Identity
import UnusedMethods.Proofs.Reordering

/-!
# Instances that uses of a generic type share

A generic type with arguments, such as `G[int]`, denotes an instance: the first one in the table whose arguments are
identical to the given ones, or a new one. Identity is that of the moment. While declarations are read, two interfaces may
be found identical, or different, that are not in the end, because the interfaces which they embed are not looked at yet.
So `G[any]` and `G[interface{ A }]` may be one type although `A` has methods.

Where no comparison comes to such interfaces, instances are what they should be: two uses of a generic type denote the same
instance if and only if their arguments are identical. In values and in the bodies of functions it is always so, since
declarations have ended then, and all method sets are known.
-/

namespace UnusedMethods.Types

variable {t t' t₁ t₁' t₂ t₂' : Table} {id id' g : TypeId} {args args' : List TypeId}

theorem TypeId.eq_of_index_eq (h : id.index = id'.index) : id = id' := by
  cases id
  exact congrArg TypeId.mk h

namespace Table

/-! ## Instances and their arguments -/

/-- The type is an instance of a generic type, with these arguments. -/
def IsInstanceWith (t : Table) (id g : TypeId) (args : List TypeId) : Prop :=
  ∃ d, t.get id = .named d ∧ d.origin = some g ∧ d.typeArgs = args

namespace IsInstanceWith

theorem hasType (h : t.IsInstanceWith id g args) : t.HasType id := by
  obtain ⟨d, hget, -⟩ := h
  exact hasType_of_get_ne_invalid (by rw [hget]; exact nofun)

theorem args_unique (h : t.IsInstanceWith id g args) (h' : t.IsInstanceWith id g args') : args = args' := by
  obtain ⟨d, hget, -, rfl⟩ := h
  obtain ⟨d', hget', -, rfl⟩ := h'
  rw [hget] at hget'
  cases hget'
  rfl

theorem hasType_args (hwf : t.WF) (h : t.IsInstanceWith id g args) : ∀ a ∈ args, t.HasType a := by
  obtain ⟨d, hget, -, rfl⟩ := h
  intro a ha
  refine hwf.hasType_part id ?_
  rw [hget]
  exact List.mem_append.2 (.inl ha)

theorem of_grows (h : t.IsInstanceWith id g args) (hgrows : t.Grows t') : t'.IsInstanceWith id g args := by
  obtain ⟨d, hget, horigin, hargs⟩ := h
  obtain ⟨d', hget', -, -, horigin', hargs'⟩ := hgrows.named hget
  exact ⟨d', hget', horigin'.trans horigin, hargs'.trans hargs⟩

theorem of_grows_of_hasType (h : t'.IsInstanceWith id g args) (hgrows : t.Grows t') (hid : t.HasType id) :
    t.IsInstanceWith id g args := by
  obtain ⟨d', hget', horigin, hargs⟩ := h
  obtain ⟨ty', hty', hbecomes⟩ := hgrows.types id.index _ hid.getElem?
  rw [get_eq_of_getElem? hty'] at hget'
  rw [hget'] at hbecomes
  cases hget : t.get id with
  | named d =>
    rw [hget] at hbecomes
    obtain ⟨-, -, horigin', hargs'⟩ := hbecomes
    exact ⟨d, hget, horigin'.symm.trans horigin, hargs'.symm.trans hargs⟩
  | _ =>
    rw [hget] at hbecomes
    cases hbecomes

end IsInstanceWith

theorem IsInstance.lt (hwf : t.WF) (h : t.IsInstance id g) : g.index < id.index := by
  obtain ⟨d, hget, horigin⟩ := h
  refine (hwf.get id).parts g ?_
  rw [hget]
  simp [Ty.parts, horigin]

theorem isInstance_iff : t.IsInstance id g ↔ (t.named? id).bind (·.origin) = some g := by
  unfold IsInstance named?
  cases t.get id <;> simp

theorem not_isInstance_invalid (hwf : t.WF) : ¬ t.IsInstance .invalid g := by
  intro h
  exact absurd (h.lt hwf) (Nat.not_lt_zero _)

/-! ## The instance that is chosen -/

theorem index_le_of_find? {p : Ty → Bool} (h : t.find? p = some id) (hid' : t.HasType id') (hp : p (t.get id') = true) :
    id.index ≤ id'.index := by
  obtain ⟨i, hi, rfl⟩ := Option.map_eq_some_iff.1 h
  obtain ⟨hlt, -, hbefore⟩ := Array.findIdx?_eq_some_iff_getElem.1 hi
  by_contra hlt'
  refine hbefore id'.index (Nat.lt_of_not_le hlt') ?_
  rwa [Table.get, Array.getElem?_eq_getElem hid', Option.getD_some] at hp

theorem get_eq_false_of_find? {p : Ty → Bool} (h : t.find? p = none) (hid : t.HasType id) : p (t.get id) = false := by
  have hnone := Array.findIdx?_eq_none_iff.1 (Option.map_eq_none_iff.1 h)
  exact hnone _ (Array.mem_of_getElem? hid.getElem?)

/-- Whether a type is an instance of `g` with arguments that are identical to the given ones. -/
def isMatch (t : Table) (g : TypeId) (args : List TypeId) : Ty → Bool
  | .named n => n.origin = some g && t.identicalLists n.typeArgs args
  | _ => false

theorem isMatch_get_iff :
    t.isMatch g args (t.get id) = true ↔ ∃ args', t.IsInstanceWith id g args' ∧ t.identicalLists args' args = true := by
  cases hget : t.get id with
  | named d => simp [isMatch, IsInstanceWith, hget, and_assoc]
  | _ => simp [isMatch, IsInstanceWith, hget]

/-- `id` is the instance of `g` that is chosen for the arguments: the first one with arguments that are identical to
these, or a new one with these arguments if there is none. `t'` is the table after the choice. -/
structure Chooses (t t' : Table) (g : TypeId) (args : List TypeId) (id : TypeId) : Prop where
  identical : ∃ args', t'.IsInstanceWith id g args' ∧ t.identicalLists args' args = true
  first : ∀ id' args', t.IsInstanceWith id' g args' → t.identicalLists args' args = true → id.index ≤ id'.index
  new : ¬ t.HasType id → id.index = t.types.size ∧ t'.IsInstanceWith id g args

theorem chooses_of_instance? (h : t.instance? g args = some id) : t.Chooses t g args id where
  identical := isMatch_get_iff.1 (get_of_find? h)
  first _ _ hinst hidentical := index_le_of_find? h hinst.hasType (isMatch_get_iff.2 ⟨_, hinst, hidentical⟩)
  new hid := absurd (Build.hasType_of_find? h) hid

theorem chooses_of_new (h : t.instance? g args = none) (hid : id.index = t.types.size)
    (hnew : t'.IsInstanceWith id g args) : t.Chooses t' g args id where
  identical := ⟨args, hnew, t.identicalLists_self args⟩
  first id' args' hinst hidentical := by
    have hfalse := get_eq_false_of_find? h hinst.hasType
    cases hfalse.symm.trans (isMatch_get_iff.2 ⟨args', hinst, hidentical⟩)
  new _ := ⟨hid, hnew⟩

/-- The comparisons that are made to choose the instance are settled. -/
def ChoiceSettled (t : Table) (g : TypeId) (args : List TypeId) (id : TypeId) : Prop :=
  ∀ id' args', t.IsInstanceWith id' g args' → id'.index ≤ id.index → t.SettledLists args' args

/-- The arguments of the instances of a generic type. -/
def instanceArgs (t : Table) (g : TypeId) : List (List TypeId) :=
  t.types.toList.filterMap fun
    | .named d => if d.origin = some g then some d.typeArgs else none
    | _ => none

theorem choiceSettled_of_forall (h : ∀ args' ∈ t.instanceArgs g, t.SettledLists args' args) : t.ChoiceSettled g args id := by
  intro id' args' hinst _
  refine h args' (List.mem_filterMap.2 ⟨t.get id', ?_, ?_⟩)
  · exact Array.mem_toList_iff.2 (Array.mem_of_getElem? hinst.hasType.getElem?)
  · obtain ⟨d, hget, horigin, rfl⟩ := hinst
    simp [hget, horigin]

namespace Chooses

/-- What is older than the instance that is chosen was there before the choice. -/
theorem hasType_of_lt (h : t.Chooses t' g args id) (hlt : id'.index < id.index) : t.HasType id' := by
  by_cases hid : t.HasType id
  · exact Nat.lt_trans hlt hid
  · exact Nat.lt_of_lt_of_eq hlt (h.new hid).1

section Later

variable {last : Table}

/-- If the choice is settled, the arguments of the instance stay identical to those for which it was chosen. -/
theorem identical_of_settled (h : t.Chooses t' g args id) (hwf : t.WF) (hargs : ∀ a ∈ args, t.HasType a)
    (hsettled : t.ChoiceSettled g args id) (hgrows : t.Grows t') (hlater : t'.Grows last) {args' : List TypeId}
    (hinst : last.IsInstanceWith id g args') : last.identicalLists args' args = true := by
  by_cases hid : t.HasType id
  · obtain ⟨args'', hinst', hidentical⟩ := h.identical
    obtain rfl := hinst.args_unique (hinst'.of_grows hlater)
    have hold := hinst'.of_grows_of_hasType hgrows hid
    rwa [identicalLists_of_grows hwf (hgrows.trans hlater) (hold.hasType_args hwf) hargs
      (hsettled id args' hold (Nat.le_refl _))]
  · obtain rfl := hinst.args_unique ((h.new hid).2.of_grows hlater)
    exact last.identicalLists_self args'

variable {args₁ args₂ : List TypeId} {id₁ id₂ : TypeId}

/-- A later choice comes to the same instance if it is the first one with identical arguments then. -/
theorem eq_iff (h₁ : t₁.Chooses t₁' g args₁ id₁) (h₂ : t₂.Chooses t₂' g args₂ id₂) (hbetween : t₁'.Grows t₂)
    (hgrows : t₂.Grows t₂') :
    id₁ = id₂ ↔ ∃ args, t₂.IsInstanceWith id₁ g args ∧ t₂.identicalLists args args₂ = true ∧
      ∀ id args', t₂.IsInstanceWith id g args' → t₂.identicalLists args' args₂ = true → id₁.index ≤ id.index := by
  obtain ⟨args, hinst₁, -⟩ := h₁.identical
  have hinst := hinst₁.of_grows hbetween
  obtain ⟨args', hinst', hidentical'⟩ := h₂.identical
  constructor
  · rintro rfl
    have hold := hinst'.of_grows_of_hasType hgrows hinst.hasType
    exact ⟨args', hold, hidentical', h₂.first⟩
  · rintro ⟨args, hinst, hidentical, hfirst⟩
    have hle := h₂.first id₁ args hinst hidentical
    have hold := hinst'.of_grows_of_hasType hgrows (Nat.lt_of_le_of_lt hle hinst.hasType)
    have hle' := hfirst id₂ args' hold hidentical'
    exact TypeId.eq_of_index_eq (Nat.le_antisymm hle' hle)

/-- If both choices are settled, they come to the same instance if and only if their arguments are identical at last. -/
theorem eq_iff_identical (h₁ : t₁.Chooses t₁' g args₁ id₁) (h₂ : t₂.Chooses t₂' g args₂ id₂) (hwf₁ : t₁.WF) (hwf₂ : t₂.WF)
    (hargs₁ : ∀ a ∈ args₁, t₁.HasType a) (hargs₂ : ∀ a ∈ args₂, t₂.HasType a) (hsettled₁ : t₁.ChoiceSettled g args₁ id₁)
    (hsettled₂ : t₂.ChoiceSettled g args₂ id₂) (hgrows₁ : t₁.Grows t₁') (hbetween : t₁'.Grows t₂) (hgrows₂ : t₂.Grows t₂')
    (hlater : t₂'.Grows last) :
    id₁ = id₂ ↔ last.identicalLists args₁ args₂ = true := by
  obtain ⟨as₁, hinst₁, -⟩ := h₁.identical
  obtain ⟨as₂, hinst₂, -⟩ := h₂.identical
  have hlater₁ := hbetween.trans (hgrows₂.trans hlater)
  have hlast₁ := h₁.identical_of_settled hwf₁ hargs₁ hsettled₁ hgrows₁ hlater₁ (hinst₁.of_grows hlater₁)
  have hlast₂ := h₂.identical_of_settled hwf₂ hargs₂ hsettled₂ hgrows₂ hlater (hinst₂.of_grows hlater)
  constructor
  · rintro rfl
    obtain rfl := (hinst₁.of_grows (hbetween.trans hgrows₂)).args_unique hinst₂
    exact identicalLists_trans (identicalLists_symm hlast₁) hlast₂
  · intro hidentical
    have hle : id₁.index ≤ id₂.index := by
      -- otherwise the second instance would have been there, and chosen, before the first
      by_contra hlt
      have hid₂ := h₁.hasType_of_lt (Nat.lt_of_not_le hlt)
      have hold := hinst₂.of_grows_of_hasType (hgrows₁.trans (hbetween.trans hgrows₂)) hid₂
      refine hlt (h₁.first id₂ as₂ hold ?_)
      rw [← identicalLists_of_grows hwf₁ (hgrows₁.trans hlater₁) (hold.hasType_args hwf₁) hargs₁
        (hsettled₁ id₂ as₂ hold (Nat.le_of_not_le hlt))]
      exact identicalLists_trans hlast₂ (identicalLists_symm hidentical)
    have hle' : id₂.index ≤ id₁.index := by
      have hinst := hinst₁.of_grows hbetween
      refine h₂.first id₁ as₁ hinst ?_
      rw [← identicalLists_of_grows hwf₂ (hgrows₂.trans hlater) (hinst.hasType_args hwf₂) hargs₂
        (hsettled₂ id₁ as₁ hinst hle)]
      exact identicalLists_trans hlast₁ hidentical
    exact TypeId.eq_of_index_eq (Nat.le_antisymm hle hle')

end Later

end Chooses

/-- The generic type that a type stands for when it is given arguments: an instance stands for its origin. -/
def genericOf (t : Table) (id : TypeId) : TypeId := ((t.named? id).bind (·.origin)).getD id

end Table

/-- The entry of a new instance. -/
def newInstance (d : Named) (g : TypeId) (args : List TypeId) : Named where
  name := d.name
  package := d.package
  rhs := .invalid
  methods := []
  typeParams := []
  origin := some g
  typeArgs := args
  expanded := false

open Table

variable {base : TypeId}

theorem Expansion.instantiate_cases {n depth : Nat}
    (h : StateT.run (Expansion.instantiate (n + 1) base args depth) t = some (id, t')) :
    id = .invalid ∨ id = t.genericOf base ∨ (t.instance? (t.genericOf base) args = some id ∧ t' = t) ∨
      (t.instance? (t.genericOf base) args = none ∧ ∃ d, t.named? (t.genericOf base) = some d ∧
        id = ((Build.push (.named (newInstance d (t.genericOf base) args))).run t).1 ∧
        (t' = ((Build.push (.named (newInstance d (t.genericOf base) args))).run t).2 ∨
          StateT.run (Expansion.expand n id depth)
            ((Build.push (.named (newInstance d (t.genericOf base) args))).run t).2 = some ((), t'))) := by
  cases hd : t.named? base with
  | none =>
    have hresult : .invalid = id ∧ t = t' := by simpa [Expansion.instantiate, hd] using h
    exact .inl hresult.1.symm
  | some d =>
    have hgeneric : t.genericOf base = d.origin.getD base := by simp [genericOf, hd]
    rw [hgeneric]
    cases hd' : t.named? (d.origin.getD base) with
    | none =>
      have hresult : .invalid = id ∧ t = t' := by simpa [Expansion.instantiate, hd, hd'] using h
      exact .inl hresult.1.symm
    | some d' =>
      by_cases hparams : d'.typeParams = []
      · have hresult : d.origin.getD base = id ∧ t = t' := by simpa [Expansion.instantiate, hd, hd', hparams] using h
        exact .inr (.inl hresult.1.symm)
      by_cases hwrong : args.length ≠ d'.typeParams.length ∨ maxSubstDepth < depth
      · have hresult : .invalid = id ∧ t = t' := by simpa [Expansion.instantiate, hd, hd', hparams, hwrong] using h
        exact .inl hresult.1.symm
      obtain ⟨hlength, hdepth⟩ := not_or.1 hwrong
      replace hlength := not_ne_iff.1 hlength
      by_cases hown : args = d'.typeParams
      · have hresult : d.origin.getD base = id ∧ t = t' := by
          simpa [Expansion.instantiate, hd, hd', hparams, hdepth, hown] using h
        exact .inr (.inl hresult.1.symm)
      refine .inr (.inr ?_)
      cases hinst : t.instance? (d.origin.getD base) args with
      | some inst =>
        have hresult : inst = id ∧ t = t' := by
          simpa [Expansion.instantiate, hd, hd', hparams, hlength, hdepth, hown, hinst] using h
        exact .inl ⟨by rw [hresult.1], hresult.2.symm⟩
      | none =>
        refine .inr ⟨rfl, d', rfl, ?_⟩
        -- the entry is made, and filled in unless declarations are being read
        obtain ⟨inst, t₁, hpush⟩ : ∃ inst t₁,
          (Build.push (.named (newInstance d' (d.origin.getD base) args))).run t = (inst, t₁) := ⟨_, _, rfl⟩
        have hrest : StateT.run (if t.deferring = false then (fun _ => inst) <$> Expansion.expand n inst depth
            else pure inst) t₁ = some (id, t') := by
          simp [Expansion.instantiate, hd, hd', hparams, hlength, hdepth, hown, hinst] at h
          cases hpush
          exact h
        rw [hpush]
        cases hdeferring : t.deferring with
        | true =>
          rw [hdeferring, if_neg (by decide)] at hrest
          cases hrest
          exact ⟨rfl, .inl rfl⟩
        | false =>
          rw [hdeferring, if_pos rfl, StateT.run_map] at hrest
          obtain ⟨⟨⟨⟩, t₂⟩, hexpand, heq⟩ := Option.map_eq_some_iff.1 hrest
          cases heq
          exact ⟨rfl, .inr hexpand⟩

namespace Build

theorem run_instantiate_invalid (hwf : t.WF) (args : List TypeId) :
    (instantiate .invalid args).run t = (.invalid, t) := by
  have hnamed : t.named? .invalid = none := by
    obtain ⟨ty, hty, hbecomes⟩ := hwf.base.types _ _ Table.WF.predeclared.hasType_invalid.getElem?
    rw [Table.named?, get_eq_of_getElem? hty]
    cases hbecomes
    rfl
  obtain ⟨n, hn⟩ := t.exists_expansionBound
  have hrun : (instantiate .invalid args).run t =
      (StateT.run (Expansion.instantiate t.expansionBound .invalid args 0) t).getD (default, t) := rfl
  rw [hrun, hn]
  simp [Expansion.instantiate, hnamed]

theorem chooses_instantiate (hwf : t.WF) (base : TypeId) (hargs : ∀ a ∈ args, t.HasType a)
    (h : ((instantiate base args).run t).2.IsInstance ((instantiate base args).run t).1 (t.genericOf base)) :
    t.Chooses ((instantiate base args).run t).2 (t.genericOf base) args ((instantiate base args).run t).1 := by
  obtain ⟨n, hn⟩ := t.exists_expansionBound
  have hrun : (instantiate base args).run t =
      (StateT.run (Expansion.instantiate t.expansionBound base args 0) t).getD (default, t) := rfl
  rw [hrun, hn] at h ⊢
  cases hresult : StateT.run (Expansion.instantiate (n + 1) base args 0) t with
  | none =>
    rw [hresult] at h
    exact absurd h (not_isInstance_invalid hwf)
  | some r =>
    obtain ⟨id, t'⟩ := r
    rw [hresult] at h
    show t.Chooses t' _ args id
    replace h : t'.IsInstance id (t.genericOf base) := h
    have hwf' := ((Expansion.allSound (n + 1)).instantiate t base args 0 hargs t (.refl t) hwf id t' hresult).1.wf
    rcases Expansion.instantiate_cases hresult with rfl | rfl | ⟨hinst, rfl⟩ | ⟨hinst, d, hd, hid, hafter⟩
    · exact absurd h (not_isInstance_invalid hwf')
    · exact absurd (h.lt hwf') (Nat.lt_irrefl _)
    · exact chooses_of_instance? hinst
    · have hgeneric := Expansion.hasType_of_named? hd
      have hparts : ∀ c ∈ (Ty.named (newInstance d (t.genericOf base) args)).parts, t.HasType c := by
        simp only [Ty.parts, newInstance, Option.toList_some, List.mem_append, List.mem_singleton]
        intro c hc
        rcases hc with hc | rfl
        · exact hargs c hc
        · exact hgeneric
      have hpush := hwf.follows_push hparts (by simpa [Ty.filledIn, newInstance] using hwf.hasType_invalid)
        (by simp [Ty.funcs, newInstance]) (fun horigin => by cases horigin)
      have hnew := get_push t (.named (newInstance d (t.genericOf base) args))
      rw [← hid] at hnew
      -- filling in keeps origin and arguments
      refine chooses_of_new hinst (by rw [hid]; rfl) (IsInstanceWith.of_grows ⟨_, hnew, rfl, rfl⟩ ?_)
      rcases hafter with rfl | hexpand
      · exact .refl _
      · exact ((Expansion.allSound n).expand _ id 0 _ (.refl _) hpush.wf () t' hexpand).1.grows

end Build

end UnusedMethods.Types

namespace UnusedMethods.Typing

open Syntax UnusedMethods.Types Checking

/-! ## Uses of generic types -/

/-- The ways to write a generic type with type arguments. -/
inductive GenericExpr where
  /-- Where a type stands. -/
  | ofType (base : TypeExpr) (args : List TypeExpr)
  /-- Where an expression stands, with one argument. -/
  | ofIndex (node : Node) (operand arg : Expr)
  /-- Where an expression stands, with several arguments. -/
  | ofArgs (node : Node) (operand : Expr) (args : List TypeExpr)

namespace GenericExpr

/-- The identifiers in it that declare methods. -/
def funcNames : GenericExpr → List Ident
  | .ofType base args => (TypeExpr.generic base args).funcNames
  | .ofIndex node operand arg => (Expr.index node operand arg).funcNames
  | .ofArgs node operand args => (Expr.instantiate node operand args).funcNames

/-- The type that it denotes. -/
def denoted? : GenericExpr → Checking (Option TypeId)
  | .ofType base args => some <$> resolveType (.generic base args)
  | .ofIndex node operand arg => typeDenoted? (.index node operand arg)
  | .ofArgs node operand args => typeDenoted? (.instantiate node operand args)

/-- The types that the generic type and its arguments denote. -/
def operands? : GenericExpr → Checking (Option (TypeId × List TypeId))
  | .ofType base args => do
    let base ← resolveType base
    let args ← resolveTypes args
    return some (base, args)
  | .ofIndex _ operand arg => do
    match ← typeDenoted? operand with
    | none => return none
    | some base =>
      match ← typeDenoted? arg with
      | none => return none
      | some type => return some (base, [type])
  | .ofArgs _ operand args => do
    match ← typeDenoted? operand with
    | none => return none
    | some base =>
      let args ← resolveTypes args
      return some (base, args)

variable {plan : Plan} {c : Context} {n : Notes} {t₀ t : Table}

theorem sound_operands? (e : GenericExpr) (h : ∀ x ∈ e.funcNames, plan.declares c.file.index x) :
    Sound plan c t₀ e.operands? fun o t => ∀ p ∈ o, ∀ a ∈ p.2, t.HasType a := by
  have hnone : ∀ {t₀ : Table}, Sound plan c t₀ (pure none : Checking (Option (TypeId × List TypeId)))
      fun o t => ∀ p ∈ o, ∀ a ∈ p.2, t.HasType a := .pure fun _ _ _ => nofun
  cases e with
  | ofType base args =>
    obtain ⟨hbase, hargs⟩ := List.forall_mem_append.1 h
    refine .bind (sound_resolveType base hbase) fun b t₁ _ _ _ => ?_
    refine .bind (sound_resolveTypes args hargs) fun as t₂ _ _ has => .pure fun t ht _ p hp => ?_
    cases hp
    exact fun a ha => ht.hasType (has a ha)
  | ofIndex node operand arg =>
    obtain ⟨hoperand, harg⟩ := List.forall_mem_append.1 h
    refine .bind (sound_typeDenoted? operand hoperand) fun o t₁ _ _ _ => ?_
    cases o with
    | none => exact hnone
    | some base =>
      refine .bind (sound_typeDenoted? arg harg) fun o t₂ _ _ ho => ?_
      cases o with
      | none => exact hnone
      | some type =>
        refine .pure fun t ht _ p hp => ?_
        cases hp
        simpa using ht.hasType (ho type rfl)
  | ofArgs node operand args =>
    obtain ⟨hoperand, hargs⟩ := List.forall_mem_append.1 h
    refine .bind (sound_typeDenoted? operand hoperand) fun o t₁ _ _ _ => ?_
    cases o with
    | none => exact hnone
    | some base =>
      refine .bind (sound_resolveTypes args hargs) fun as t₂ _ _ has => .pure fun t ht _ p hp => ?_
      cases hp
      exact fun a ha => ht.hasType (has a ha)

theorem eval_denoted? (e : GenericExpr) {base : TypeId} {args : List TypeId}
    {n' : Notes} {t' : Table} (hwf : t'.WF) (h : e.operands?.eval c n t = ((some (base, args), n'), t')) :
    e.denoted?.eval c n t =
      ((some ((Build.instantiate base args).run t').1, n'), ((Build.instantiate base args).run t').2) := by
  cases e with
  | ofType b as =>
    rw [operands?, eval_bind, eval_bind, eval_pure] at h
    rw [denoted?, map_eq_pure_bind, eval_bind, resolveType, eval_bind, eval_bind]
    obtain ⟨⟨⟨b', n₁⟩, t₁⟩, hb⟩ : ∃ r, (resolveType b).eval c n t = r := ⟨_, rfl⟩
    obtain ⟨⟨⟨as', n₂⟩, t₂⟩, has⟩ : ∃ r, (resolveTypes as).eval c n₁ t₁ = r := ⟨_, rfl⟩
    simp only [hb, has] at h ⊢
    cases h
    split
    · rename_i hinvalid
      rw [hinvalid, Build.run_instantiate_invalid hwf]
      rfl
    · rfl
  | ofIndex node operand arg =>
    rw [operands?, eval_bind] at h
    rw [denoted?, typeDenoted?, eval_bind]
    obtain ⟨⟨⟨o, n₁⟩, t₁⟩, ho⟩ : ∃ r, (typeDenoted? operand).eval c n t = r := ⟨_, rfl⟩
    rw [ho] at h ⊢
    cases o with
    | none => cases h
    | some b =>
      dsimp only at h ⊢
      rw [eval_bind] at h ⊢
      obtain ⟨⟨⟨o', n₂⟩, t₂⟩, ho'⟩ : ∃ r, (typeDenoted? arg).eval c n₁ t₁ = r := ⟨_, rfl⟩
      rw [ho'] at h ⊢
      cases o' with
      | none => cases h
      | some a =>
        cases h
        rfl
  | ofArgs node operand as =>
    rw [operands?, eval_bind] at h
    rw [denoted?, typeDenoted?, eval_bind]
    obtain ⟨⟨⟨o, n₁⟩, t₁⟩, ho⟩ : ∃ r, (typeDenoted? operand).eval c n t = r := ⟨_, rfl⟩
    rw [ho] at h ⊢
    cases o with
    | none => cases h
    | some b =>
      cases h
      rfl

end GenericExpr

/-- A place at which a generic type is given arguments, when a check has come to it: what is known by then, and what the
generic type and the arguments denote. -/
structure GenericUse where
  plan : Plan
  context : Context
  notes : Notes
  start : Table
  ready : Ready plan context notes start
  known : start.MethodSetsKnown
  expr : GenericExpr
  names : ∀ x ∈ expr.funcNames, plan.declares context.file.index x
  base : TypeId
  args : List TypeId
  operands : (expr.operands?.eval context notes start).1.1 = some (base, args)

namespace GenericUse

/-- The table in which the instance is looked for: the arguments have been resolved. -/
def moment (u : GenericUse) : Table := (u.expr.operands?.eval u.context u.notes u.start).2

/-- The type that is denoted. -/
def result (u : GenericUse) : TypeId := (u.expr.denoted?.eval u.context u.notes u.start).1.1.getD .invalid

/-- The table when the type is known. -/
def after (u : GenericUse) : Table := (u.expr.denoted?.eval u.context u.notes u.start).2

/-- The generic type that is given arguments. -/
def generic (u : GenericUse) : TypeId := u.moment.genericOf u.base

/-- The arguments lead to an instance: the type parameters are known, and there are as many arguments. -/
def GivesInstance (u : GenericUse) : Prop := u.after.IsInstance u.result u.generic

/-- The comparisons that are made to choose the instance do not come to two interfaces of which one has a method set that
is not known yet. -/
def Settled (u : GenericUse) : Prop := u.moment.ChoiceSettled u.generic u.args u.result

variable (u : GenericUse)

theorem start_step : u.plan.Step u.start u.moment := (u.ready.step (u.expr.sound_operands? u.names)).2.1

theorem start_advances : u.start.Advances u.moment := u.start_step.toAdvances

/-- Unless declarations are being read, method sets are known. -/
theorem settled_of_deferring (h : u.moment.deferring = false) : u.Settled :=
  fun _ _ _ _ => Table.settledLists_of_forall (u.start_step.known u.known h) _ _

theorem hasType_args : ∀ a ∈ u.args, u.moment.HasType a := by
  obtain ⟨-, -, -, hargs⟩ := u.ready.step (u.expr.sound_operands? u.names)
  exact hargs _ u.operands

theorem run_instantiate : (Build.instantiate u.base u.args).run u.moment = (u.result, u.after) := by
  obtain ⟨⟨⟨o, n⟩, t⟩, heval⟩ : ∃ r, u.expr.operands?.eval u.context u.notes u.start = r := ⟨_, rfl⟩
  have hoperands := u.operands
  have hwf := u.start_advances.wf
  rw [moment, result, after]
  rw [moment] at hwf
  rw [heval] at hoperands hwf ⊢
  cases hoperands
  rw [u.expr.eval_denoted? hwf heval]
  rfl

theorem moment_advances : u.moment.Advances u.after := by
  have hsound := Build.sound_instantiate u.base u.hasType_args u.moment (.refl _) u.start_advances.wf
  rw [run_instantiate] at hsound
  exact hsound.1.toAdvances

variable {u}

theorem GivesInstance.chooses (h : u.GivesInstance) : u.moment.Chooses u.after u.generic u.args u.result := by
  have hchooses := Build.chooses_instantiate u.start_advances.wf u.base u.hasType_args
  rw [run_instantiate] at hchooses
  exact hchooses h

end GenericUse

/-! ## Uses in type declarations -/

/-- The check of a package, at some stage of a program. -/
structure PackageCheck where
  table : Table
  packages : Array Package
  stage : Stage table packages
  byPath : ImportMap
  id : PackageId
  source : PackageSource

namespace PackageCheck

/-- What the package knows of others. -/
def context (p : PackageCheck) : Context := p.source.context p.packages

/-- The declarations have been entered. -/
def entered (p : PackageCheck) : (List (CurrentFile × Entry) × Notes) × Table :=
  (enterAll (p.source.declarations p.packages p.byPath)).eval p.context p.source.start p.table

/-- The declarations as they have been entered. -/
def entries (p : PackageCheck) : List (CurrentFile × Entry) := p.entered.1.1

/-- The aliases have been resolved. -/
def aliased (p : PackageCheck) : (Unit × Notes) × Table :=
  (resolveAliases p.entries).eval p.context p.entered.1.2 { p.entered.2 with deferring := true }

/-- Of the first `k` declarations, the declared types have been resolved. -/
def stateAt (p : PackageCheck) (k : Nat) : (Unit × Notes) × Table :=
  (resolveDeclaredTypes (p.entries.take k)).eval p.context p.aliased.1.2 p.aliased.2

/-- The table after the check. -/
def final (p : PackageCheck) : Table := (p.source.checked p.packages p.byPath p.id p.table).2

/-- The notes after the check. -/
def finalNotes (p : PackageCheck) : Notes :=
  ((checkFiles (p.source.currentFiles p.packages p.byPath)).eval p.context p.source.start p.table).1.2

variable (p : PackageCheck) (k : Nat)

theorem ready_start : Ready p.source.openPlan p.context p.source.start p.table :=
  ⟨p.stage.wf.1, p.source.context_wf p.stage.wf.2, p.source.start_wf⟩

theorem ready_stateAt : Ready p.source.openPlan p.context (p.stateAt k).1.2 (p.stateAt k).2 ∧
    EntriesWF p.source.openPlan (p.stateAt k).2 p.entries ∧ (p.stateAt k).2.MethodSetsKnown := by
  have hopen := p.source.open_openPlan
  obtain ⟨hready₁, hstep₁, -, hentries₁⟩ := p.ready_start.step
    (sound_enterAll hopen.denotes (p.source.currentFiles_wf p.stage.wf.2 p.byPath).declarationsIn)
  obtain ⟨hready₂, hstep₂, -, -⟩ := hready₁.step (sound_beginDeclarations hopen.steady)
  have hentries₂ := hentries₁.of_grows hstep₂.grows
  obtain ⟨hready₃, hstep₃, -, -⟩ := hready₂.step (sound_resolveAliases hentries₂)
  have hentries₃ := hentries₂.of_grows hstep₃.grows
  have htake : EntriesWF p.source.openPlan p.aliased.2 (p.entries.take k) :=
    fun e he => hentries₃ e (List.mem_of_mem_take he)
  obtain ⟨hready₄, hstep₄, -, -⟩ := hready₃.step (sound_resolveDeclaredTypes htake fun id _ => hopen.settled id)
  have hstep := hstep₁.trans (hstep₂.trans (hstep₃.trans hstep₄))
  exact ⟨hready₄, hentries₃.of_grows hstep₄.grows, hstep.known p.stage.methodSetsKnown⟩

theorem final_eq : p.final =
    ((checkFiles (p.source.currentFiles p.packages p.byPath)).eval p.context p.source.start p.table).2 := by
  rw [final, PackageSource.checked, run_checkPackage, context]

theorem ready_final : Ready p.source.openPlan p.context p.finalNotes p.final ∧ p.final.MethodSetsKnown := by
  obtain ⟨hready, hstep, -, -⟩ := p.ready_start.step
    (sound_checkFiles p.source.open_openPlan (p.source.currentFiles_wf p.stage.wf.2 p.byPath))
  rw [finalNotes, final_eq]
  exact ⟨hready, hstep.known p.stage.methodSetsKnown⟩

theorem advances_final : (p.stateAt k).2.Advances p.final := by
  obtain ⟨hready, hentries, -⟩ := p.ready_stateAt k
  have hopen := p.source.open_openPlan
  have hdrop : EntriesWF p.source.openPlan (p.stateAt k).2 (p.entries.drop k) :=
    fun e he => hentries e (List.mem_of_mem_drop he)
  obtain ⟨hready', hstep, -, -⟩ := hready.step (sound_resolveDeclaredTypes hdrop fun id _ => hopen.settled id)
  obtain ⟨-, hstep', -, -⟩ := hready'.step (sound_checkMembers hopen.steady (hentries.of_grows hstep.grows))
  have hall : (resolveDeclaredTypes p.entries).eval p.context p.aliased.1.2 p.aliased.2 =
      (resolveDeclaredTypes (p.entries.drop k)).eval p.context (p.stateAt k).1.2 (p.stateAt k).2 := by
    conv_lhs => rw [← List.take_append_drop k p.entries]
    rw [ResolvingTypes.resolveDeclaredTypes_append, eval_bind]
    rfl
  have hfinal : p.final = ((checkEntries p.entries).eval p.context p.entered.1.2 p.entered.2).2 := by
    rw [final_eq, checkFiles, eval_bind]
    rfl
  have hrun : (resolveAliases p.entries).eval p.context p.entered.1.2 { p.entered.2 with deferring := true } =
      (((), p.aliased.1.2), p.aliased.2) := rfl
  rw [hfinal, eval_checkEntries hrun, hall]
  exact (hstep.trans hstep').toAdvances

variable {p k} {file : CurrentFile} {spec : TypeSpec} {id : TypeId}

theorem stateAt_succ (hentry : p.entries[k]? = some (file, .type spec id)) :
    p.stateAt (k + 1) = (resolveDeclaredType spec id).eval { p.context with file } (p.stateAt k).1.2 (p.stateAt k).2 := by
  have htake : p.entries.take (k + 1) = p.entries.take k ++ [(file, .type spec id)] := by
    rw [List.take_add_one, hentry]
    rfl
  rw [stateAt, htake, ResolvingTypes.resolveDeclaredTypes_append, eval_bind]
  rfl

end PackageCheck

namespace GenericUse

variable {p : PackageCheck} {k : Nat} {file file' : CurrentFile} {spec spec' : TypeSpec} {id id' : TypeId}
variable {base base' : TypeExpr} {args args' : List TypeExpr}

/-- The use that a declared type without type parameters makes of a generic type, if it is defined as an instance of it. -/
def ofDeclared (hentry : p.entries[k]? = some (file, .type spec id)) (htype : spec.type = .generic base args) :
    GenericUse where
  plan := p.source.openPlan
  context := { p.context with file }
  notes := (p.stateAt k).1.2
  start := (p.stateAt k).2
  ready := (p.ready_stateAt k).1.inFile ((p.ready_stateAt k).2.1 _ (List.mem_of_getElem? hentry)).1
  known := (p.ready_stateAt k).2.2
  expr := .ofType base args
  names := by
    have hnames := (List.forall_mem_append.1 ((p.ready_stateAt k).2.1 _ (List.mem_of_getElem? hentry)).2.funcNames).2
    rwa [htype] at hnames
  base := _
  args := _
  operands := rfl

/-- A use of a generic type when the package has been checked. -/
def atEnd (p : PackageCheck) (base : TypeExpr) (args : List TypeExpr) (hnames : (TypeExpr.generic base args).funcNames = []) :
    GenericUse where
  plan := p.source.openPlan
  context := p.context
  notes := p.finalNotes
  start := p.final
  ready := p.ready_final.1
  known := p.ready_final.2
  expr := .ofType base args
  names := by simp [GenericExpr.funcNames, hnames]
  base := _
  args := _
  operands := rfl

theorem advances_atEnd {t : Table} (h : t.Advances p.final) (hnames : (TypeExpr.generic base args).funcNames = []) :
    t.Advances (atEnd p base args hnames).moment := h.trans (atEnd p base args hnames).start_advances

variable (hentry : p.entries[k]? = some (file, .type spec id)) (htype : spec.type = .generic base args)

theorem advances_ofDeclared (hparams : spec.typeParams.isEmpty) :
    (ofDeclared hentry htype).after.Advances (p.stateAt (k + 1)).2 := by
  rw [PackageCheck.stateAt_succ hentry, (eval_resolveDeclaredType_of_isEmpty hparams id _ _ _).1, setDefinition, htype]
  obtain ⟨hready, -, -, hresult⟩ := (ofDeclared hentry htype).ready.step
    (sound_resolveType _ (ofDeclared hentry htype).names)
  exact hready.wf.setRhs hresult

theorem advances_next (hparams : spec.typeParams.isEmpty) (hentry' : p.entries[k + 1]? = some (file', .type spec' id'))
    (htype' : spec'.type = .generic base' args') :
    (ofDeclared hentry htype).after.Advances (ofDeclared hentry' htype').moment :=
  (advances_ofDeclared hentry htype hparams).trans (ofDeclared hentry' htype').start_advances

end GenericUse

/-- Which instance a generic type with arguments denotes, and when two uses of a generic type denote the same instance.
Each use is a place to which a check comes, and `t` is a later table.

- The arguments of the instance were identical to those of the use when it was chosen. They are identical to them in the
  later table if the choice was settled.
- A second use denotes the same instance if it is the first one whose arguments are identical, at that time, to those of
  the second use. If both choices were settled, this is so if and only if the arguments of the two uses are identical in
  the later table.
- Every choice is settled that is made when no declarations are being read. -/
theorem instances_by_arguments (t : Table) :
    (∀ u : GenericUse, u.GivesInstance → u.after.Advances t →
      ∃ args, t.IsInstanceWith u.result u.generic args ∧ u.moment.identicalLists args u.args = true ∧
        (u.Settled → t.identicalLists args u.args = true)) ∧
    (∀ u₁ u₂ : GenericUse, u₁.GivesInstance → u₂.GivesInstance → u₁.generic = u₂.generic → u₁.after.Advances u₂.moment →
      u₂.after.Advances t →
      (u₁.result = u₂.result ↔
        ∃ args, u₂.moment.IsInstanceWith u₁.result u₂.generic args ∧ u₂.moment.identicalLists args u₂.args = true ∧
          ∀ id args', u₂.moment.IsInstanceWith id u₂.generic args' → u₂.moment.identicalLists args' u₂.args = true →
            u₁.result.index ≤ id.index) ∧
      (u₁.Settled → u₂.Settled → (u₁.result = u₂.result ↔ t.identicalLists u₁.args u₂.args = true))) ∧
    ∀ u : GenericUse, u.moment.deferring = false → u.Settled := by
  refine ⟨?_, ?_, GenericUse.settled_of_deferring⟩
  · intro u h hlater
    obtain ⟨args, hinst, hidentical⟩ := h.chooses.identical
    have hlast := hinst.of_grows hlater.grows
    refine ⟨args, hlast, hidentical, fun hsettled => ?_⟩
    exact h.chooses.identical_of_settled u.start_advances.wf u.hasType_args hsettled u.moment_advances.grows hlater.grows hlast
  · intro u₁ u₂ h₁ h₂ hgeneric hbetween hlater
    have hchooses := h₁.chooses
    rw [hgeneric] at hchooses
    refine ⟨hchooses.eq_iff h₂.chooses hbetween.grows u₂.moment_advances.grows, fun hsettled₁ hsettled₂ => ?_⟩
    rw [GenericUse.Settled, hgeneric] at hsettled₁
    exact hchooses.eq_iff_identical h₂.chooses u₁.start_advances.wf u₂.start_advances.wf u₁.hasType_args u₂.hasType_args hsettled₁
      hsettled₂ u₁.moment_advances.grows hbetween.grows u₂.moment_advances.grows hlater.grows

/-- The declaration `type A interface{ M() }`. -/
def interfaceWithMethod : TypeSpec where
  name := ⟨"A", ⟨3, 6⟩⟩
  typeParams := []
  isAlias := false
  type := .interface [⟨⟨"M", ⟨3, 19⟩⟩, ⟨[], [], false⟩⟩] []

/-- The declaration `type Y G[any]`. -/
def anyInstance : TypeSpec where
  name := ⟨"Y", ⟨7, 6⟩⟩
  typeParams := []
  isAlias := false
  type := .generic (.name ⟨"G", ⟨7, 8⟩⟩) [.name ⟨"any", ⟨7, 10⟩⟩]

/-- The declaration `type Z G[interface{ A }]`. -/
def embeddingInstance : TypeSpec where
  name := ⟨"Z", ⟨9, 6⟩⟩
  typeParams := []
  isAlias := false
  type := .generic (.name ⟨"G", ⟨9, 8⟩⟩) [.interface [] [.name ⟨"A", ⟨9, 21⟩⟩]]

/-- The check of a package with these declarations. -/
def instancesCheck : PackageCheck where
  table := .predeclared
  packages := #[]
  stage := .start
  byPath := []
  id := ⟨0⟩
  source := .ofTypes [interfaceWithMethod, genericStruct, intInstance, anyInstance, embeddingInstance]

/-- The use in `type X G[int]`. -/
def intUse : GenericUse :=
  .ofDeclared (show instancesCheck.entries[2]? = some (⟨0, 0, .empty⟩, .type intInstance ⟨33⟩) from rfl) rfl

/-- The use in `type Y G[any]`. -/
def anyUse : GenericUse :=
  .ofDeclared (show instancesCheck.entries[3]? = some (⟨0, 0, .empty⟩, .type anyInstance ⟨34⟩) from rfl) rfl

/-- The use in `type Z G[interface{ A }]`. -/
def embeddingUse : GenericUse :=
  .ofDeclared
    (show instancesCheck.entries[4]? = some (⟨0, 0, .empty⟩, .type embeddingInstance ⟨35⟩) from rfl) rfl

/-- The use in `G[interface{ A }]`, where it stands for a type when the declarations have been checked. -/
def laterUse : GenericUse :=
  .atEnd instancesCheck (.name ⟨"G", ⟨11, 7⟩⟩) [.interface [] [.name ⟨"A", ⟨11, 20⟩⟩]] rfl

/-- When `G[interface{ A }]` is resolved in a declaration, it is not known yet that `interface{ A }` has a method. So the
instance is `G[any]`, although the arguments are not identical in the end. It is not the instance that the same expression
denotes when the declarations have been checked. -/
theorem embedding_shares_instance :
    intUse.GivesInstance ∧ anyUse.GivesInstance ∧ embeddingUse.GivesInstance ∧
    intUse.generic = anyUse.generic ∧ anyUse.generic = embeddingUse.generic ∧
    intUse.after.Advances anyUse.moment ∧ anyUse.after.Advances embeddingUse.moment ∧
    embeddingUse.after.Advances instancesCheck.final ∧
    intUse.Settled ∧ anyUse.Settled ∧ intUse.result ≠ anyUse.result ∧
    anyUse.result = embeddingUse.result ∧ instancesCheck.final.identicalLists anyUse.args embeddingUse.args = false ∧
    ¬ embeddingUse.Settled ∧
    instancesCheck.final.definition? ⟨34⟩ = some (anyUse.result, []) ∧
    instancesCheck.final.definition? ⟨35⟩ = some (embeddingUse.result, []) ∧
    laterUse.GivesInstance ∧ embeddingUse.generic = laterUse.generic ∧ embeddingUse.after.Advances laterUse.moment ∧
    laterUse.moment.deferring = false ∧ laterUse.Settled ∧ embeddingUse.result ≠ laterUse.result ∧
    laterUse.after.identicalLists embeddingUse.args laterUse.args = true := by
  have hfound : intUse.GivesInstance ∧ anyUse.GivesInstance ∧ embeddingUse.GivesInstance ∧
      intUse.generic = anyUse.generic ∧ anyUse.generic = embeddingUse.generic ∧ anyUse.result = embeddingUse.result := by
    simp only [GenericUse.GivesInstance, Table.isInstance_iff]
    decide +kernel
  obtain ⟨hint, hany, hembedding, hgeneric, hgeneric', hsame⟩ := hfound
  have hend : instancesCheck.final.identicalLists intUse.args anyUse.args = false ∧
      instancesCheck.final.identicalLists anyUse.args embeddingUse.args = false ∧
      instancesCheck.final.definition? ⟨34⟩ = some (anyUse.result, []) ∧
      instancesCheck.final.definition? ⟨35⟩ = some (embeddingUse.result, []) := by
    decide +kernel
  obtain ⟨hother, hother', hdefinition, hdefinition'⟩ := hend
  have hbetween : intUse.after.Advances anyUse.moment := GenericUse.advances_next _ _ (by rfl) _ _
  have hbetween' : anyUse.after.Advances embeddingUse.moment := GenericUse.advances_next _ _ (by rfl) _ _
  have hfinal : embeddingUse.after.Advances instancesCheck.final :=
    (GenericUse.advances_ofDeclared _ _ (by rfl)).trans (instancesCheck.advances_final 5)
  -- the first use finds no instance, and the second one only `G[int]`
  have hnone : intUse.moment.instanceArgs intUse.generic = [] := by decide +kernel
  have hone : anyUse.args = [⟨25⟩] ∧ anyUse.moment.instanceArgs anyUse.generic = [[⟨3⟩]] ∧
      anyUse.moment.questions (⟨3⟩, ⟨25⟩) = [none] ∧ (anyUse.moment.get ⟨3⟩).isInterface = false := by
    decide +kernel
  have hsettled : intUse.Settled := Table.choiceSettled_of_forall (by simp [hnone])
  have hsettled' : anyUse.Settled := by
    refine Table.choiceSettled_of_forall ?_
    simpa [hone.1, hone.2.1, Table.SettledLists] using Table.settled_of_questions hone.2.2.1 hone.2.2.2
  have hlater := hbetween'.trans (embeddingUse.moment_advances.trans hfinal)
  have hpair := ((instances_by_arguments _).2.1 intUse anyUse hint hany hgeneric hbetween hlater).2 hsettled hsettled'
  have hpair' := ((instances_by_arguments _).2.1 anyUse embeddingUse hany hembedding hgeneric' hbetween' hfinal).2 hsettled'
  -- the declarations have ended
  have hagain : laterUse.GivesInstance ∧ embeddingUse.generic = laterUse.generic ∧ laterUse.moment.deferring = false ∧
      embeddingUse.result ≠ laterUse.result ∧ laterUse.after.identicalLists embeddingUse.args laterUse.args = true := by
    simp only [GenericUse.GivesInstance, Table.isInstance_iff]
    decide +kernel
  obtain ⟨hagain, hgeneric'', hended, hne, hidentical⟩ := hagain
  refine ⟨hint, hany, hembedding, hgeneric, hgeneric', hbetween, hbetween', hfinal, hsettled, hsettled', ?_, hsame,
    hother', ?_, hdefinition, hdefinition', hagain, hgeneric'', GenericUse.advances_atEnd hfinal _, hended,
    (instances_by_arguments .predeclared).2.2 laterUse hended, hne, hidentical⟩
  · intro heq
    cases (hpair.1 heq).symm.trans hother
  · intro hsettled''
    cases ((hpair' hsettled'').1 hsame).symm.trans hother'

end UnusedMethods.Typing
