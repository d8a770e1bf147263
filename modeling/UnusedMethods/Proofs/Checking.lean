import UnusedMethods.Proofs.Expansion
import UnusedMethods.Typing.Check

/-!
# What the steps of a check keep and look at

`Checking.Sound plan c t₀ x Q` is a triple for a step `x` of the check of a package. Started on a
well-formed table that has grown from `t₀`, with well-formed notes, the step

- leads to a well-formed table and to well-formed notes, and `Q` holds of its result;
- does the same to the table, and has the same result, for all notes that differ only in what no step looks
  at: the order in which package-level names were entered, and the records of declared names.

The plan says which identifiers declare functions or methods, and what a package-level name may denote. There is one
lemma for each step of which checking is made; what is made of them is dealt with elsewhere by these lemmas alone.
-/

namespace UnusedMethods.Typing

open Syntax UnusedMethods.Types
open Types.Table (HasType HasFunc)

/-! ## Well-formed notes -/

/-- What an object refers to is in the table. -/
def Object.WF (t : Table) : Object → Prop
  | .var id | .const id | .typeName id => t.HasType id
  | .func f => t.HasFunc f
  | .package _ | .builtin _ | .nil => True

instance (t : Table) : (obj : Object) → Decidable (obj.WF t)
  | .var id | .const id | .typeName id => inferInstanceAs (Decidable (id.index < t.types.size))
  | .func f => inferInstanceAs (Decidable (f.index < t.funcs.size))
  | .package _ | .builtin _ | .nil => inferInstanceAs (Decidable True)

/-- What the names of a scope denote is in the table. -/
def Scope.WF (t : Table) (s : Scope) : Prop := ∀ e ∈ s.entries, e.2.WF t

/-- What a selector picks is in the table, and a method that is picked is not taken for a field. -/
structure Selection.WF (t : Table) (s : Selection) : Prop where
  recv : t.HasType s.recv
  method : ∀ m, s.method = some m → t.HasFunc m ∧ s.kind ≠ .fieldVal
  type : t.HasType s.type

/-- What is known about a file refers to the table. A place that is recorded as that of a function is the
place of an identifier which declares a function and has its name. -/
structure FileInfo.WF (names : Ident → Prop) (t : Table) (i : FileInfo) : Prop where
  types : ∀ e ∈ i.types, t.HasType e.2
  selections : ∀ e ∈ i.selections, e.2.WF t
  uses : ∀ e ∈ i.uses, e.2.WF t
  defs : ∀ e ∈ i.defs, e.2.WF t
  funcs : ∀ pos f, (pos, .func f) ∈ i.defs → ∃ x, names x ∧ x.pos = pos ∧ x.name = (t.func f).name

/-- What is intended with the names and types of a package. -/
structure Plan where
  /-- The identifier declares a function or method in the file with this index. -/
  declares : Nat → Ident → Prop
  /-- The package-level name may denote the object. -/
  denotes : String → Object → Prop
  /-- The definition of the type has been given, or is given elsewhere. -/
  settled : TypeId → Prop
  /-- Declarations neither begin nor end. -/
  steady : Prop

/-- The plan with other types settled. -/
def Plan.settling (plan : Plan) (settled : TypeId → Prop) (steady : Prop) : Plan := { plan with settled, steady }

/-- What may become of the table. -/
structure Plan.Step (plan : Plan) (t t' : Table) : Prop extends t.Advances t' where
  settled : ∀ id, plan.settled id → t'.definition? id = t.definition? id
  steady : plan.steady → t'.deferring = t.deferring
  known : t.MethodSetsKnown → t'.MethodSetsKnown
  filled : t.InstancesFilled → t'.InstancesFilled
  tidy : t.Tidy → t'.Tidy

theorem Plan.Step.refl {plan : Plan} {t : Table} (h : t.WF) : plan.Step t t :=
  ⟨.refl h, fun _ _ => rfl, fun _ => rfl, id, id, id⟩

theorem Plan.Step.trans {plan : Plan} {t t' t'' : Table} (h : plan.Step t t') (h' : plan.Step t' t'') : plan.Step t t'' where
  toAdvances := h.toAdvances.trans h'.toAdvances
  settled id hid := (h'.settled id hid).trans (h.settled id hid)
  steady hsteady := (h'.steady hsteady).trans (h.steady hsteady)
  known hknown := h'.known (h.known hknown)
  filled hfilled := h'.filled (h.filled hfilled)
  tidy htidy := h'.tidy (h.tidy htidy)

/-- An identifier may be declared at this level, with this meaning. -/
def Plan.Allows (plan : Plan) (level : Level) (x : Ident) (obj : Object) : Prop :=
  level = .package → x.isBlank = false → plan.denotes x.name obj

/-- The notes refer to the table and follow the plan. -/
structure Notes.WF (plan : Plan) (t : Table) (n : Notes) : Prop where
  scope : n.scope.WF t
  denotes : ∀ name obj, n.scope.find? name = some obj → plan.denotes name obj
  locals : ∀ s ∈ n.locals, s.WF t
  infos : ∀ (i : Nat) (info : FileInfo), n.infos[i]? = some info → info.WF (plan.declares i) t
  settled : ∀ id, plan.settled id → t.HasType id

/-- Well-formed notes that come after other notes: no package-level name has been forgotten, and as many local scopes are
open. -/
structure Notes.LeadsTo (plan : Plan) (t : Table) (n n' : Notes) : Prop where
  wf : n'.WF plan t
  keeps : ∀ name, (n.scope.find? name).isSome → (n'.scope.find? name).isSome
  locals : n'.locals.length = n.locals.length

theorem Notes.WF.refl {plan : Plan} {t : Table} {n : Notes} (h : n.WF plan t) : n.LeadsTo plan t n :=
  ⟨h, fun _ => id, rfl⟩

/-- What is imported refers to the table. -/
structure Context.WF (t : Table) (c : Context) : Prop where
  file : c.file.scope.WF t
  packages : ∀ (i : Nat) (p : Package), c.packages[i]? = some p → p.scope.WF t

section Growth

variable {t t' : Table}

variable {obj : Object} {s : Scope}

theorem Object.WF.of_grows (h : obj.WF t) (hgrows : t.Grows t') : obj.WF t' := by
  cases obj with
  | var id => exact hgrows.hasType h
  | const id => exact hgrows.hasType h
  | typeName id => exact hgrows.hasType h
  | func f => exact hgrows.hasFunc h
  | _ => trivial

theorem Scope.WF.of_grows (h : s.WF t) (hgrows : t.Grows t') : s.WF t' :=
  fun e he => (h e he).of_grows hgrows

theorem Selection.WF.of_grows {s : Selection} (h : s.WF t) (hgrows : t.Grows t') : s.WF t' where
  recv := hgrows.hasType h.recv
  method m hm := ⟨hgrows.hasFunc (h.method m hm).1, (h.method m hm).2⟩
  type := hgrows.hasType h.type

theorem FileInfo.WF.of_grows {names : Ident → Prop} {i : FileInfo} (h : i.WF names t) (hgrows : t.Grows t') :
    i.WF names t' where
  types e he := hgrows.hasType (h.types e he)
  selections e he := (h.selections e he).of_grows hgrows
  uses e he := (h.uses e he).of_grows hgrows
  defs e he := (h.defs e he).of_grows hgrows
  funcs pos f hf := by
    obtain ⟨x, hx, hpos, hname⟩ := h.funcs pos f hf
    have hhas : t.HasFunc f := h.defs _ hf
    exact ⟨x, hx, hpos, hname.trans (hgrows.func hhas).name.symm⟩

theorem Notes.WF.of_grows {plan : Plan} {n : Notes} (h : n.WF plan t) (hgrows : t.Grows t') :
    n.WF plan t' where
  scope := h.scope.of_grows hgrows
  denotes := h.denotes
  locals s hs := (h.locals s hs).of_grows hgrows
  infos i info hi := (h.infos i info hi).of_grows hgrows
  settled id hid := hgrows.hasType (h.settled id hid)

theorem Context.WF.of_grows {c : Context} (h : c.WF t) (hgrows : t.Grows t') : c.WF t' where
  file := h.file.of_grows hgrows
  packages i p hp := (h.packages i p hp).of_grows hgrows

theorem Scope.WF.find? (h : s.WF t) {name : String} (hobj : s.find? name = some obj) : obj.WF t := by
  obtain ⟨l₁, l₂, heq, -⟩ := List.lookup_eq_some_iff.1 hobj
  exact h (name, obj) (by rw [heq]; simp)

theorem Scope.WF.insert (h : s.WF t) {name : String} (hobj : obj.WF t) : (s.insert name obj).WF t := by
  intro e he
  rcases List.mem_cons.1 he with rfl | he
  · exact hobj
  · exact h e (List.mem_filter.1 he).1

theorem Scope.WF.empty : Scope.empty.WF t := fun _ he => nomatch he

theorem Scope.WF.predeclared (hwf : t.WF) : Scope.predeclared.WF t := by
  have hpre : Scope.predeclared.WF Table.predeclared := by
    unfold Scope.WF
    decide
  exact hpre.of_grows hwf.base

end Growth

/-! ## Similar notes -/

/-- What a step may look at of what is known about a file. -/
def FileInfo.facts (i : FileInfo) : List (Nat × TypeId) × List (Nat × Selection) × List (Nat × Object) :=
  (i.types, i.selections, i.uses)

/-- Notes between which no step can tell a difference. -/
structure Notes.Similar (n n' : Notes) : Prop where
  scope : ∀ name, n.scope.find? name = n'.scope.find? name
  locals : n.locals = n'.locals
  infos : n.infos.map FileInfo.facts = n'.infos.map FileInfo.facts

/-- Two outcomes of a step are the same, up to what no step can see. -/
structure Agree {α : Type} (r r' : (α × Notes) × Table) : Prop where
  result : r.1.1 = r'.1.1
  table : r.2 = r'.2
  notes : r.1.2.Similar r'.1.2

/-! ## Triples -/

namespace Checking

/-- The outcome of a step: its result, the notes and the table. -/
def eval {α : Type} (x : Checking α) (c : Context) (n : Notes) (t : Table) : (α × Notes) × Table :=
  ((x.run c).run n).run t

theorem eval_pure {α : Type} (a : α) (c : Context) (n : Notes) (t : Table) :
    (Pure.pure a : Checking α).eval c n t = ((a, n), t) := rfl

theorem eval_bind {α β : Type} (x : Checking α) (f : α → Checking β) (c : Context) (n : Notes) (t : Table) :
    (x >>= f).eval c n t = (f (x.eval c n t).1.1).eval c (x.eval c n t).1.2 (x.eval c n t).2 := rfl

theorem eval_defineLocal (name : String) (obj : Object) (c : Context) (n : Notes) (t : Table) :
    (Checking.defineLocal name obj).eval c n t = (((), { n with locals := n.locals.modifyHead (·.insert name obj) }), t) := by
  obtain ⟨scope, locals, infos⟩ := n
  cases locals <;> rfl

/-- The step keeps table and notes well formed, has a result with the property `Q`, and does not look at
what similar notes differ in. -/
def Sound {α : Type} (plan : Plan) (c : Context) (t₀ : Table) (x : Checking α) (Q : α → Table → Prop) : Prop :=
  ∀ n t, t₀.Grows t → t.WF → c.WF t → n.WF plan t →
    (plan.Step t (x.eval c n t).2 ∧ n.LeadsTo plan (x.eval c n t).2 (x.eval c n t).1.2 ∧
      Q (x.eval c n t).1.1 (x.eval c n t).2) ∧
    ∀ n', n.Similar n' → Agree (x.eval c n t) (x.eval c n' t)

/-- Two steps go the same way on similar notes, and keep table and notes well formed. -/
def SoundTogether {α β : Type} (plan : Plan) (c : Context) (t₀ : Table) (x : Checking α) (y : Checking β)
    (Q : Table → α → β → Prop) : Prop :=
  ∀ n n' t, t₀.Grows t → t.WF → c.WF t → n.WF plan t → n.Similar n' →
    plan.Step t (x.eval c n t).2 ∧ n.LeadsTo plan (x.eval c n t).2 (x.eval c n t).1.2 ∧
      (y.eval c n' t).2 = (x.eval c n t).2 ∧ (x.eval c n t).1.2.Similar (y.eval c n' t).1.2 ∧
      Q (x.eval c n t).2 (x.eval c n t).1.1 (y.eval c n' t).1.1

namespace SoundTogether

variable {α α' β β' : Type} {plan : Plan} {c : Context} {t₀ : Table}

variable {x : Checking α}

theorem bind {y : Checking β} {f : α → Checking α'} {g : β → Checking β'} {Q : Table → α → β → Prop}
    {R : Table → α' → β' → Prop} (hxy : SoundTogether plan c t₀ x y Q)
    (hfg : ∀ t a b, t₀.Grows t → t.WF → Q t a b → SoundTogether plan c t (f a) (g b) R) :
    SoundTogether plan c t₀ (x >>= f) (y >>= g) R := by
  intro n n' t ht hwf hc hn hsim
  obtain ⟨hstep, hnotes, htable, hsim, hQ⟩ := hxy n n' t ht hwf hc hn hsim
  obtain ⟨hstep', hnotes', hrest⟩ := hfg _ _ _ (ht.trans hstep.grows) hstep.wf hQ _ _ _ (.refl _) hstep.wf
    (hc.of_grows hstep.grows) hnotes.wf hsim
  rw [eval_bind, eval_bind, htable]
  exact ⟨hstep.trans hstep', ⟨hnotes'.wf, fun name hname => hnotes'.keeps name (hnotes.keeps name hname),
    hnotes'.locals.trans hnotes.locals⟩, hrest⟩

theorem inScope {y : Checking β} {Q : Table → α → β → Prop} (h : SoundTogether plan c t₀ x y Q) :
    SoundTogether plan c t₀ (Checking.inScope x) (Checking.inScope y) Q := by
  intro n n' t ht hwf hc hn hsim
  have heval : ∀ {α : Type} (x : Checking α) (n' : Notes), (Checking.inScope x).eval c n' t =
      (((x.eval c { n' with locals := .empty :: n'.locals } t).1.1,
        { (x.eval c { n' with locals := .empty :: n'.locals } t).1.2 with
          locals := (x.eval c { n' with locals := .empty :: n'.locals } t).1.2.locals.tail }),
        (x.eval c { n' with locals := .empty :: n'.locals } t).2) := fun _ _ => rfl
  have hopen : { n with locals := .empty :: n.locals : Notes }.WF plan t := by
    refine ⟨hn.scope, hn.denotes, fun s hs => ?_, hn.infos, hn.settled⟩
    rcases List.mem_cons.1 hs with rfl | hs
    · exact .empty
    · exact hn.locals s hs
  have hsim' : { n with locals := .empty :: n.locals : Notes }.Similar { n' with locals := .empty :: n'.locals } :=
    ⟨hsim.scope, congrArg (Scope.empty :: ·) hsim.locals, hsim.infos⟩
  obtain ⟨hstep, ⟨hnotes, hkeeps, hlocals⟩, htable, hafter, hQ⟩ := h _ _ t ht hwf hc hopen hsim'
  rw [heval, heval]
  have hclosed : ∀ s ∈ (x.eval c { n with locals := .empty :: n.locals } t).1.2.locals.tail, s.WF _ :=
    fun s hs => hnotes.locals s (List.mem_of_mem_tail hs)
  have hlength : (x.eval c { n with locals := .empty :: n.locals } t).1.2.locals.tail.length = n.locals.length := by
    rw [List.length_tail, hlocals]
    rfl
  exact ⟨hstep, ⟨⟨hnotes.scope, hnotes.denotes, hclosed, hnotes.infos, hnotes.settled⟩, hkeeps, hlength⟩, htable,
    ⟨hafter.scope, congrArg List.tail hafter.locals, hafter.infos⟩, hQ⟩

theorem sound {P : α → Table → Prop} {Q : Table → α → α → Prop} (h : SoundTogether plan c t₀ x x Q)
    (hQ : ∀ t a b, Q t a b → P a t ∧ a = b) : Sound plan c t₀ x P := by
  intro n t ht hwf hc hn
  obtain ⟨hstep, hnotes, -, -, hsame⟩ := h n n t ht hwf hc hn ⟨fun _ => rfl, rfl, rfl⟩
  refine ⟨⟨hstep, hnotes, (hQ _ _ _ hsame).1⟩, fun n' hsim => ?_⟩
  obtain ⟨-, -, htable, hsim, hresult⟩ := h n n' t ht hwf hc hn hsim
  exact ⟨(hQ _ _ _ hresult).2, htable.symm, hsim⟩

end SoundTogether

namespace Sound

variable {α β : Type} {plan : Plan} {c : Context} {t₀ t₁ : Table}

variable {x : Checking α} {Q : α → Table → Prop} {id : Nat} {obj : Object} {name : String}

theorem together {P : α → Table → Prop} {Q : Table → α → α → Prop} (h : Sound plan c t₀ x P) (hPQ : ∀ a t, P a t → Q t a a) :
    SoundTogether plan c t₀ x x Q := by
  intro n n' t ht hwf hc hn hsim
  obtain ⟨⟨hstep, hnotes, hP⟩, hagree⟩ := h n t ht hwf hc hn
  obtain ⟨hresult, htable, hsim⟩ := hagree n' hsim
  exact ⟨hstep, hnotes, htable.symm, hsim, hresult ▸ hPQ _ _ hP⟩

/-- A step has the same result on similar notes. -/
theorem self {P : α → Table → Prop} (h : Sound plan c t₀ x P) : SoundTogether plan c t₀ x x fun t a b => P a t ∧ a = b :=
  h.together fun _ _ hP => ⟨hP, rfl⟩

/-! ### Combining steps -/

theorem weaken (h : Sound plan c t₀ x Q) (hgrows : t₀.Grows t₁) : Sound plan c t₁ x Q :=
  fun n t ht => h n t (hgrows.trans ht)

/-- The table with which a step starts may be taken to be well formed. -/
theorem ofWF (h : ∀ t, t₀.Grows t → t.WF → Sound plan c t x Q) : Sound plan c t₀ x Q :=
  fun n t ht hwf hc hn => h t ht hwf n t (.refl t) hwf hc hn

theorem pure {a : α} (h : ∀ t, t₀.Grows t → t.WF → Q a t) : Sound plan c t₀ (Pure.pure a) Q :=
  fun _ t ht hwf _ hn => ⟨⟨.refl hwf, hn.refl, h t ht hwf⟩, fun _ hsim => ⟨rfl, rfl, hsim⟩⟩

theorem bind {f : α → Checking β} {R : β → Table → Prop} (hx : Sound plan c t₀ x Q)
    (hf : ∀ a t, t₀.Grows t → t.WF → Q a t → Sound plan c t (f a) R) : Sound plan c t₀ (x >>= f) R := by
  refine (hx.self.bind fun t a b ht hwf hab => ?_).sound fun _ _ _ => id
  obtain ⟨hQ, rfl⟩ := hab
  exact (hf a t ht hwf hQ).self

/-- A step whose result is not used, and then another. -/
theorem andThen {y : Checking β} {R : β → Table → Prop} (hx : Sound plan c t₀ x Q) (hy : Sound plan c t₀ y R) :
    Sound plan c t₀ (x >>= fun _ => y) R :=
  bind hx fun _ _ ht _ _ => hy.weaken ht

theorem mapM {f : α → Checking β} {Q : β → Table → Prop} (hQ : Lasting Q) {as : List α}
    (hf : ∀ a ∈ as, ∀ t, t₀.Grows t → Sound plan c t (f a) Q) :
    Sound plan c t₀ (as.mapM f) fun bs t => ∀ b ∈ bs, Q b t := by
  induction as generalizing t₀ with
  | nil =>
    rw [List.mapM_nil]
    exact pure fun t _ _ b hb => nomatch hb
  | cons a as ih =>
    rw [List.mapM_cons]
    refine bind (hf a (by simp) t₀ (.refl _)) fun b t₁ h₁ _ hb => ?_
    refine bind (ih fun a' ha' t ht => hf a' (by simp [ha']) t (h₁.trans ht)) fun bs t₂ h₂ _ hbs => ?_
    refine pure fun t ht _ b' hb' => ?_
    rcases List.mem_cons.1 hb' with rfl | hb'
    · exact hQ _ _ _ (h₂.trans ht) hb
    · exact hQ _ _ _ ht (hbs b' hb')

theorem forM {f : α → Checking Unit} {as : List α}
    (hf : ∀ a ∈ as, ∀ t, t₀.Grows t → Sound plan c t (f a) fun _ _ => True) :
    Sound plan c t₀ (as.forM f) fun _ _ => True := by
  induction as generalizing t₀ with
  | nil => exact pure fun _ _ _ => trivial
  | cons a as ih =>
    exact bind (hf a (by simp) t₀ (.refl _)) fun _ t₁ h₁ _ _ =>
      ih fun a' ha' t ht => hf a' (by simp [ha']) t (h₁.trans ht)

/-! ### Table and context -/

theorem lift {x : Build α} (h : Build.Sound t₀ x Q) : Sound plan c t₀ (liftM x : Checking α) Q := by
  intro n t ht hwf _ hn
  obtain ⟨hleads, hQ⟩ := h t ht hwf
  have hstep : plan.Step t (x.run t).2 :=
    ⟨hleads.toAdvances, fun id hid => hleads.definitions id (hn.settled id hid), fun _ => hleads.deferring,
      hleads.methodSetsKnown, hleads.instancesFilled, hleads.tidy⟩
  exact ⟨⟨hstep, (hn.of_grows hleads.grows).refl, hQ⟩, fun _ hsim => ⟨rfl, rfl, hsim⟩⟩

theorem liftFollows {x : Build α} (hplan : ¬ plan.steady)
    (h : ∀ t : Table, t.WF → t.Follows (x.run t).2 ∧ (t.MethodSetsKnown → (x.run t).2.MethodSetsKnown) ∧
      (t.InstancesFilled → (x.run t).2.InstancesFilled)) :
    Sound plan c t₀ (liftM x : Checking α) fun _ _ => True := by
  intro n t ht hwf _ hn
  obtain ⟨hfollows, hknown, hfilled⟩ := h t hwf
  have hstep : plan.Step t (x.run t).2 :=
    ⟨hfollows.toAdvances, fun id hid => hfollows.definitions id (hn.settled id hid), fun hsteady => absurd hsteady hplan,
      hknown, hfilled, hfollows.tidy⟩
  exact ⟨⟨hstep, (hn.of_grows hfollows.grows).refl, trivial⟩, fun _ hsim => ⟨rfl, rfl, hsim⟩⟩

theorem ask {f : Table → α} : Sound plan c t₀ (Checking.ask f) fun a t => a = f t :=
  fun _ _ _ hwf _ hn => ⟨⟨.refl hwf, hn.refl, rfl⟩, fun _ hsim => ⟨rfl, rfl, hsim⟩⟩

theorem change {f : Table → Table} (hf : ∀ t, t₀.Grows t → t.WF → t.Leads (f t)) :
    Sound plan c t₀ (Checking.change f) fun _ _ => True :=
  lift (x := modify f) fun t ht hwf => ⟨hf t ht hwf, trivial⟩

theorem changeNamed {id : TypeId} (hid : ¬ plan.settled id) {f : Named → Named}
    (hf : ∀ t, t₀.Grows t → t.WF → t.Advances (t.modifyNamed id f))
    (hexpanded : ∀ d, (f d).origin = d.origin ∧ (f d).expanded = d.expanded) :
    Sound plan c t₀ (Checking.change (·.modifyNamed id f)) fun _ _ => True := by
  intro n t ht hwf _ hn
  have hadvances := hf t ht hwf
  have hstep : plan.Step t (t.modifyNamed id f) := by
    refine ⟨hadvances, fun id' hid' => ?_, fun _ => rfl, fun hknown hdeferring id' => ?_,
      fun hfilled hdeferring id' => ?_, fun htidy => htidy.modifyType ?_⟩
    · have hne : id' ≠ id := fun heq => hid (heq ▸ hid')
      exact congrArg Ty.definition? (Table.get_modifyType_of_ne hne _)
    · by_cases hid' : t.HasType id'
      · exact hadvances.grows.isIncomplete_get hid' (hknown hdeferring id')
      · exact Table.isIncomplete_get_of_not_hasType fun hhas => hid' (Table.hasType_modifyType.1 hhas)
    · by_contra hopen
      have hopen : ((t.modifyNamed id f).get id').isUnexpanded = true := by simpa using hopen
      have hopen := Table.isUnexpanded_get_modifyType (fun hopen => ?_) hopen
      · rw [hfilled hdeferring id'] at hopen
        cases hopen
      · cases hget : t.get id with
        | named d =>
          rw [hget] at hopen
          have hsame : (Ty.named (f d)).isUnexpanded = (Ty.named d).isUnexpanded := by
            simp only [Ty.isUnexpanded, (hexpanded d).1, (hexpanded d).2]
          exact hsame.symm.trans hopen
        | _ => rwa [hget] at hopen
    · have hold := htidy id
      cases hget : t.get id with
      | named d =>
        rw [hget] at hold
        exact fun horigin => (hexpanded d).2.trans (hold ((hexpanded d).1.symm.trans horigin))
      | _ => rwa [hget] at hold
  exact ⟨⟨hstep, (hn.of_grows hadvances.grows).refl, trivial⟩, fun _ hsim => ⟨rfl, rfl, hsim⟩⟩

theorem readContext : Sound plan c t₀ (read : Checking Context) fun a _ => a = c :=
  fun _ _ _ hwf _ hn => ⟨⟨.refl hwf, hn.refl, rfl⟩, fun _ hsim => ⟨rfl, rfl, hsim⟩⟩

/-! ### Records -/

variable {t : Table}

theorem modifyInfo {f : FileInfo → FileInfo}
    {g : List (Nat × TypeId) × List (Nat × Selection) × List (Nat × Object) →
      List (Nat × TypeId) × List (Nat × Selection) × List (Nat × Object)}
    (hg : ∀ i, (f i).facts = g i.facts)
    (hf : ∀ t i, t₀.Grows t → i.WF (plan.declares c.file.index) t → (f i).WF (plan.declares c.file.index) t) :
    Sound plan c t₀ (Checking.modifyInfo f) fun _ _ => True := by
  intro n t ht hwf _ hn
  refine ⟨⟨.refl hwf, ⟨⟨hn.scope, hn.denotes, hn.locals, fun i info hi => ?_, hn.settled⟩, fun _ => id, rfl⟩, trivial⟩,
    fun n' hsim => ⟨rfl, rfl, hsim.scope, hsim.locals, ?_⟩⟩
  · have hi : (n.infos.modify c.file.index f)[i]? = some info := hi
    rw [Array.getElem?_modify] at hi
    split at hi
    · rename_i hindex
      subst hindex
      obtain ⟨info', hinfo', rfl⟩ := Option.map_eq_some_iff.1 hi
      exact hf t info' ht (hn.infos _ info' hinfo')
    · exact hn.infos i info hi
  · have hmap : ∀ infos : Array FileInfo, (infos.modify c.file.index f).map FileInfo.facts =
        (infos.map FileInfo.facts).modify c.file.index g := by
      intro infos
      ext i : 1
      · simp
      · simp only [Array.getElem_map, Array.getElem_modify]
        split <;> simp [hg]
    show (n.infos.modify c.file.index f).map FileInfo.facts = (n'.infos.modify c.file.index f).map FileInfo.facts
    rw [hmap, hmap, hsim.infos]

theorem noteType {type : TypeId} (h : t₀.HasType type) : Sound plan c t₀ (Checking.noteType id type) fun _ _ => True := by
  refine modifyInfo (g := fun facts => ((id, type) :: facts.1, facts.2)) (fun _ => rfl) fun t i ht hi => ?_
  refine ⟨fun e he => ?_, hi.selections, hi.uses, hi.defs, hi.funcs⟩
  rcases List.mem_cons.1 he with rfl | he
  · exact ht.hasType h
  · exact hi.types e he

theorem noteUse (h : obj.WF t₀) : Sound plan c t₀ (Checking.noteUse id obj) fun _ _ => True := by
  refine modifyInfo (g := fun facts => (facts.1, facts.2.1, (id, obj) :: facts.2.2)) (fun _ => rfl) fun t i ht hi => ?_
  refine ⟨hi.types, hi.selections, fun e he => ?_, hi.defs, hi.funcs⟩
  rcases List.mem_cons.1 he with rfl | he
  · exact h.of_grows ht
  · exact hi.uses e he

theorem noteSelection {s : Selection} (h : s.WF t₀) : Sound plan c t₀ (Checking.noteSelection id s) fun _ _ => True := by
  refine modifyInfo (g := fun facts => (facts.1, (id, s) :: facts.2.1, facts.2.2)) (fun _ => rfl) fun t i ht hi => ?_
  refine ⟨hi.types, fun e he => ?_, hi.uses, hi.defs, hi.funcs⟩
  rcases List.mem_cons.1 he with rfl | he
  · exact h.of_grows ht
  · exact hi.selections e he

/-- A function may be recorded at the place of an identifier that declares a function of its name. -/
theorem noteDef {pos : Pos} (h : obj.WF t₀)
    (hfunc : ∀ f, obj = .func f → ∃ x, plan.declares c.file.index x ∧ x.pos = pos ∧ x.name = (t₀.func f).name) :
    Sound plan c t₀ (Checking.noteDef pos obj) fun _ _ => True := by
  refine modifyInfo (g := id) (fun _ => rfl) fun t i ht hi => ?_
  refine ⟨hi.types, hi.selections, hi.uses, fun e he => ?_, fun pos' f hf => ?_⟩
  · rcases List.mem_cons.1 he with rfl | he
    · exact h.of_grows ht
    · exact hi.defs e (List.mem_filter.1 he).1
  · rcases List.mem_cons.1 hf with heq | hf
    · cases heq
      obtain ⟨x, hx, hpos, hname⟩ := hfunc f rfl
      exact ⟨x, hx, hpos, hname.trans (ht.func h).name.symm⟩
    · exact hi.funcs pos' f (List.mem_filter.1 hf).1

/-- What is read of a record is among the facts that steps may look at. -/
theorem askInfo {f : FileInfo → α} (hfacts : ∀ i i' : FileInfo, i.facts = i'.facts → f i = f i')
    (hf : ∀ t (i : FileInfo), t₀.Grows t → t.WF → i.WF (plan.declares c.file.index) t → Q (f i) t) :
    Sound plan c t₀ (Checking.askInfo f) Q := by
  intro n t ht hwf _ hn
  have hinfo : (n.infos[c.file.index]?.getD .empty).WF (plan.declares c.file.index) t := by
    cases hget : n.infos[c.file.index]? with
    | none => exact ⟨nofun, nofun, nofun, nofun, nofun⟩
    | some info => exact hn.infos _ info hget
  refine ⟨⟨.refl hwf, hn.refl, hf t _ ht hwf hinfo⟩, fun n' hsim => ⟨hfacts _ _ ?_, rfl, hsim⟩⟩
  have hget : ∀ infos : Array FileInfo, (infos[c.file.index]?.getD .empty).facts =
      (infos.map FileInfo.facts)[c.file.index]?.getD FileInfo.empty.facts := by
    intro infos
    rw [Array.getElem?_map]
    cases infos[c.file.index]? <;> rfl
  show (n.infos[c.file.index]?.getD .empty).facts = (n'.infos[c.file.index]?.getD .empty).facts
  rw [hget, hget, hsim.infos]

theorem useOf? : Sound plan c t₀ (Checking.useOf? id) fun o t => ∀ obj ∈ o, obj.WF t := by
  refine askInfo (fun i i' h => ?_) fun t i _ _ hi obj hobj => ?_
  · exact congrArg (fun facts => facts.2.2.lookup id) h
  · obtain ⟨l₁, l₂, heq, -⟩ := List.lookup_eq_some_iff.1 hobj
    exact hi.uses (id, obj) (by rw [heq]; simp)

theorem knownTypes : Sound plan c t₀ Checking.knownTypes fun f t => ∀ id, ∀ type ∈ f id, t.HasType type := by
  refine askInfo (fun i i' h => ?_) fun t i _ _ hi id type htype => ?_
  · exact congrArg (fun facts => fun id => (facts.1.lookup id).filter (· != .invalid)) h
  · obtain ⟨hlookup, -⟩ := Option.filter_eq_some_iff.1 htype
    obtain ⟨l₁, l₂, heq, -⟩ := List.lookup_eq_some_iff.1 hlookup
    exact hi.types (id, type) (by rw [heq]; simp)

/-! ### Scopes -/

theorem inScope (h : Sound plan c t₀ x Q) : Sound plan c t₀ (Checking.inScope x) Q :=
  h.self.inScope.sound fun _ _ _ => id

theorem find?_insert (s : Scope) (name name' : String) (obj : Object) :
    (s.insert name obj).find? name' = if name' = name then some obj else s.find? name' := by
  unfold Scope.insert Scope.find?
  rw [List.lookup_cons]
  by_cases h : name' = name
  · rw [h, BEq.rfl, if_pos rfl]
  · rw [beq_false_of_ne h, if_neg h]
    dsimp only
    induction s.entries with
    | nil => rfl
    | cons e es ih =>
      rw [List.filter_cons]
      split
      · rw [List.lookup_cons, List.lookup_cons, ih]
      · rename_i he
        have he : e.1 = name := by simpa using he
        have hne : (name' == e.1) = false := beq_false_of_ne (he ▸ h)
        rw [ih, List.lookup_cons, hne]

theorem defineLocal (h : obj.WF t₀) : Sound plan c t₀ (Checking.defineLocal name obj) fun _ _ => True := by
  intro n t ht hwf _ hn
  refine ⟨⟨.refl hwf, ⟨⟨hn.scope, hn.denotes, fun s hs => ?_, hn.infos, hn.settled⟩, fun _ => id, ?_⟩, trivial⟩,
    fun n' hsim => ⟨rfl, rfl, hsim.scope, ?_, hsim.infos⟩⟩
  · rw [eval_defineLocal] at hs
    cases hlocals : n.locals with
    | nil =>
      rw [hlocals] at hs
      cases hs
    | cons scope rest =>
      rw [hlocals] at hs
      rcases List.mem_cons.1 hs with rfl | hs
      · exact (hn.locals scope (by simp [hlocals])).insert (h.of_grows ht)
      · exact hn.locals s (by simp [hlocals, hs])
  · rw [eval_defineLocal, List.length_modifyHead]
  · rw [eval_defineLocal, eval_defineLocal, hsim.locals]

theorem definePackageLevel (h : obj.WF t₀) (hplan : plan.denotes name obj) :
    Sound plan c t₀ (Checking.definePackageLevel name obj) fun _ _ => True := by
  intro n t ht hwf _ hn
  refine ⟨⟨.refl hwf, ⟨⟨hn.scope.insert (h.of_grows ht), fun name' obj' => ?_, hn.locals, hn.infos,
    hn.settled⟩, fun name' => ?_, rfl⟩, trivial⟩, fun n' hsim => ⟨rfl, rfl, fun name' => ?_, hsim.locals, hsim.infos⟩⟩
  · show (n.scope.insert name obj).find? name' = some obj' → plan.denotes name' obj'
    rw [find?_insert]
    split
    · rintro ⟨rfl⟩
      simp_all
    · exact hn.denotes name' obj'
  · show (n.scope.find? name').isSome → ((n.scope.insert name obj).find? name').isSome
    rw [find?_insert]
    split
    · exact fun _ => rfl
    · exact id
  · show (n.scope.insert name obj).find? name' = (n'.scope.insert name obj).find? name'
    rw [find?_insert, find?_insert, hsim.scope]

/-- Functions are not declared in this way, so nothing is asked of the place of the name. -/
theorem declare {level : Level} {name : Ident} (h : obj.WF t₀) (hfunc : ∀ f, obj ≠ .func f)
    (hplan : plan.Allows level name obj) : Sound plan c t₀ (Checking.declare level name obj) fun _ _ => True := by
  unfold Checking.declare
  split
  · rename_i hblank
    have hdef : ∀ t, t₀.Grows t → Sound plan c t (Checking.noteDef name.pos obj) fun _ _ => True :=
      fun t ht => noteDef (h.of_grows ht) fun f hf => absurd hf (hfunc f)
    cases level with
    | package => exact bind (definePackageLevel h (hplan rfl (by simpa using hblank))) fun _ t ht _ _ => hdef t ht
    | «local» => exact bind (defineLocal h) fun _ t ht _ _ => hdef t ht
  · exact pure fun _ _ _ => trivial

theorem lookup : Sound plan c t₀ (Checking.lookup name) fun o t => ∀ obj ∈ o, obj.WF t := by
  intro n t ht hwf hc hn
  have heval : ∀ n' : Notes, (Checking.lookup name).eval c n' t =
      (((n'.locals ++ [c.file.scope, n'.scope, .predeclared]).findSome? (·.find? name), n'), t) := fun _ => rfl
  rw [heval]
  refine ⟨⟨.refl hwf, hn.refl, fun obj hobj => ?_⟩, fun n' hsim => ?_⟩
  · obtain ⟨s, hs, hfind⟩ := List.exists_of_findSome?_eq_some hobj
    have hscope : s.WF t := by
      simp only [List.mem_append, List.mem_cons, List.not_mem_nil, or_false] at hs
      rcases hs with hs | rfl | rfl | rfl
      · exact hn.locals s hs
      · exact hc.file
      · exact hn.scope
      · exact .predeclared hwf
    exact hscope.find? hfind
  · rw [heval]
    refine ⟨?_, rfl, hsim⟩
    simp only [List.findSome?_append, List.findSome?_cons, hsim.locals, hsim.scope name]

theorem innermost? : Sound plan c t₀ (Checking.innermost? name) fun o t => ∀ obj ∈ o, obj.WF t := by
  intro n t ht hwf hc hn
  have heval : ∀ n' : Notes, (Checking.innermost? name).eval c n' t =
      ((n'.locals.head?.bind (·.find? name), n'), t) := fun _ => rfl
  rw [heval]
  refine ⟨⟨.refl hwf, hn.refl, fun obj hobj => ?_⟩, fun n' hsim => ?_⟩
  · obtain ⟨s, hs, hfind⟩ := Option.bind_eq_some_iff.1 hobj
    exact (hn.locals s (List.mem_of_mem_head? hs)).find? hfind
  · rw [heval, hsim.locals]
    exact ⟨rfl, rfl, hsim⟩

theorem packageLevel? : Sound plan c t₀ (Checking.packageLevel? name) fun o t => ∀ obj ∈ o, obj.WF t := by
  intro n t ht hwf hc hn
  have heval : ∀ n' : Notes, (Checking.packageLevel? name).eval c n' t = ((n'.scope.find? name, n'), t) :=
    fun _ => rfl
  rw [heval]
  refine ⟨⟨.refl hwf, hn.refl, fun obj hobj => hn.scope.find? hobj⟩, fun n' hsim => ?_⟩
  rw [heval, hsim.scope name]
  exact ⟨rfl, rfl, hsim⟩

theorem member {id : PackageId} : Sound plan c t₀ (Checking.member id name) fun o t => ∀ obj ∈ o, obj.WF t := by
  intro n t ht hwf hc hn
  refine ⟨⟨.refl hwf, hn.refl, fun obj hobj => ?_⟩, fun n' hsim => ⟨rfl, rfl, hsim⟩⟩
  obtain ⟨p, hp, hfind⟩ := Option.bind_eq_some_iff.1 hobj
  exact (hc.packages _ p hp).find? hfind

end Sound

/-! ## Running steps -/

/-- Everything is ready for a step. -/
structure Ready (plan : Plan) (c : Context) (n : Notes) (t : Table) : Prop where
  wf : t.WF
  context : c.WF t
  notes : n.WF plan t

namespace Ready

variable {plan : Plan} {c : Context} {n : Notes} {t : Table}

theorem step {α : Type} (h : Ready plan c n t) {x : Checking α} {Q : α → Table → Prop} (hx : Sound plan c t x Q) :
    Ready plan c (x.eval c n t).1.2 (x.eval c n t).2 ∧ plan.Step t (x.eval c n t).2 ∧
      n.LeadsTo plan (x.eval c n t).2 (x.eval c n t).1.2 ∧ Q (x.eval c n t).1.1 (x.eval c n t).2 := by
  obtain ⟨⟨hstep, hnotes, hQ⟩, -⟩ := hx n t (.refl t) h.wf h.context h.notes
  exact ⟨⟨hstep.wf, h.context.of_grows hstep.grows, hnotes.wf⟩, hstep, hnotes, hQ⟩

theorem inFile (h : Ready plan c n t) {file : CurrentFile} (hfile : file.scope.WF t) : Ready plan { c with file } n t :=
  ⟨h.wf, ⟨hfile, h.context.packages⟩, h.notes⟩

theorem settle (h : Ready plan c n t) {settled : TypeId → Prop} (hsettled : ∀ id, settled id → t.HasType id)
    (steady : Prop) : Ready (plan.settling settled steady) c n t :=
  ⟨h.wf, h.context, h.notes.scope, h.notes.denotes, h.notes.locals, h.notes.infos, hsettled⟩

end Ready

end Checking

end UnusedMethods.Typing
