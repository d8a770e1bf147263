import UnusedMethods.Proofs.Growth
import UnusedMethods.Types.Generics
import UnusedMethods.Types.Members

/-!
# Building types keeps tables well formed

`Build.Sound t₀ x Q` says that `x`, run on a well-formed table into which `t₀` has grown, leads to a
well-formed table and that `Q` holds of its result. What is known about `t₀` (that it has some type) is
known of every later table, so facts are not lost from one step to the next. `Expansion.Sound` says the
same of computations that may run out of their bound.
-/

namespace UnusedMethods.Types

open Table (HasType HasFunc)

variable {α β : Type} {t₀ t₁ : Table}

/-! ## Computations on tables -/

/-- Run on a well-formed table that has grown from `t₀`, the computation leads to a well-formed table, and
`Q` holds of the result in it. -/
def Build.Sound (t₀ : Table) (x : Build α) (Q : α → Table → Prop) : Prop :=
  ∀ t, t₀.Grows t → t.WF → t.Leads (x.run t).2 ∧ Q (x.run t).1 (x.run t).2

/-- The same for a computation that may run out of its bound, if it does not. -/
def Expansion.Sound (t₀ : Table) (x : Expansion α) (Q : α → Table → Prop) : Prop :=
  ∀ t, t₀.Grows t → t.WF → ∀ a t', StateT.run x t = some (a, t') → t.Leads t' ∧ Q a t'

/-- What holds of a result goes on to hold. -/
def Lasting (Q : α → Table → Prop) : Prop := ∀ a t t', t.Grows t' → Q a t → Q a t'

theorem Lasting.hasType : Lasting fun (id : TypeId) t => t.HasType id := fun _ _ _ h => h.hasType

theorem Lasting.hasMethod : Lasting fun (id : FuncId) t => t.HasMethod id := fun _ _ _ h => h.hasMethod

namespace Build.Sound

variable {x : Build α} {Q : α → Table → Prop}

theorem weaken (h : Sound t₀ x Q) (hgrows : t₀.Grows t₁) : Sound t₁ x Q :=
  fun t ht hwf => h t (hgrows.trans ht) hwf

theorem post {R : α → Table → Prop} (h : Sound t₀ x Q) (hQR : ∀ a t, t₀.Grows t → t.WF → Q a t → R a t) : Sound t₀ x R := by
  intro t ht hwf
  obtain ⟨hleads, hQ⟩ := h t ht hwf
  exact ⟨hleads, hQR _ _ (ht.trans hleads.grows) hleads.wf hQ⟩

theorem pure {a : α} (h : ∀ t, t₀.Grows t → t.WF → Q a t) : Sound t₀ (Pure.pure a) Q :=
  fun t ht hwf => ⟨.refl hwf, h t ht hwf⟩

theorem bind {f : α → Build β} {R : β → Table → Prop} (hx : Sound t₀ x Q)
    (hf : ∀ a t, t₀.Grows t → t.WF → Q a t → Sound t (f a) R) : Sound t₀ (x >>= f) R := by
  intro t ht hwf
  obtain ⟨hleads, hQ⟩ := hx t ht hwf
  obtain ⟨hleads', hR⟩ := hf _ _ (ht.trans hleads.grows) hleads.wf hQ _ (.refl _) hleads.wf
  exact ⟨hleads.trans hleads', hR⟩

theorem getTable : Sound t₀ (get : Build Table) fun a t => a = t :=
  fun _ _ hwf => ⟨.refl hwf, rfl⟩

theorem change {f : Table → Table} (hf : ∀ t, t₀.Grows t → t.WF → t.Leads (f t)) :
    Sound t₀ (modify f : Build Unit) fun _ _ => True :=
  fun t ht hwf => ⟨hf t ht hwf, trivial⟩

end Build.Sound

namespace Expansion.Sound

variable {Q : α → Table → Prop} {as : List α}

theorem post {x : Expansion α} {R : α → Table → Prop} (h : Sound t₀ x Q) (hQR : ∀ a t, t₀.Grows t → t.WF → Q a t → R a t) :
    Sound t₀ x R := by
  intro t ht hwf a t' hrun
  obtain ⟨hleads, hQ⟩ := h t ht hwf a t' hrun
  exact ⟨hleads, hQR a t' (ht.trans hleads.grows) hleads.wf hQ⟩

theorem pure {a : α} (h : ∀ t, t₀.Grows t → t.WF → Q a t) : Sound t₀ (Pure.pure a) Q := by
  intro t ht hwf b t' hrun
  cases hrun
  exact ⟨.refl hwf, h t ht hwf⟩

theorem fail : Sound t₀ (failure : Expansion α) Q := by
  intro t _ _ a t' hrun
  cases hrun

theorem bind {x : Expansion α} {f : α → Expansion β} {R : β → Table → Prop} (hx : Sound t₀ x Q)
    (hf : ∀ a t, t₀.Grows t → t.WF → Q a t → Sound t (f a) R) : Sound t₀ (x >>= f) R := by
  intro t ht hwf b t'' hrun
  rw [StateT.run_bind] at hrun
  obtain ⟨⟨a, t'⟩, hrun, hrun'⟩ := Option.bind_eq_some_iff.1 hrun
  obtain ⟨hleads, hQ⟩ := hx t ht hwf a t' hrun
  obtain ⟨hleads', hR⟩ := hf a t' (ht.trans hleads.grows) hleads.wf hQ t' (.refl _) hleads.wf b t'' hrun'
  exact ⟨hleads.trans hleads', hR⟩

theorem getTable : Sound t₀ (get : Expansion Table) fun a t => a = t := by
  intro t _ hwf a t' hrun
  cases hrun
  exact ⟨.refl hwf, rfl⟩

theorem change {f : Table → Table} (hf : ∀ t, t₀.Grows t → t.WF → t.Leads (f t)) :
    Sound t₀ (modify f : Expansion Unit) fun _ _ => True := by
  intro t ht hwf a t' hrun
  cases hrun
  exact ⟨hf t ht hwf, trivial⟩

theorem lift {x : Build α} (h : Build.Sound t₀ x Q) : Sound t₀ (liftM x : Expansion α) Q := by
  intro t ht hwf a t' hrun
  have heq : x.run t = (a, t') := Option.some.inj hrun
  have hx := h t ht hwf
  rw [heq] at hx
  exact hx

/-! ### Lists -/

theorem mapM {f : α → Expansion β} {Q : β → Table → Prop} (hQ : Lasting Q) (hf : ∀ a ∈ as, ∀ t, t₀.Grows t → Sound t (f a) Q) :
    Sound t₀ (as.mapM f) fun bs t => ∀ b ∈ bs, Q b t := by
  induction as generalizing t₀ with
  | nil =>
    rw [List.mapM_nil]
    exact pure fun t _ _ b hb => nomatch hb
  | cons a as ih =>
    rw [List.mapM_cons]
    refine bind (hf a (by simp) t₀ (.refl _)) fun b t₁ h₁ _ hb => ?_
    refine bind (ih fun a' ha' t ht => hf a' (by simp [ha']) t (h₁.trans ht)) fun bs t₂ h₂ _ hbs => ?_
    refine pure fun t ht _ b' hb' => ?_
    rcases List.mem_cons.1 hb' with rfl | hb'
    · exact hQ _ _ _ (h₂.trans ht) hb
    · exact hQ _ _ _ ht (hbs b' hb')

theorem forM {P : α → Table → Prop} (hP : Lasting P) {f : α → Expansion Unit}
    (hf : ∀ a ∈ as, ∀ t, t₀.Grows t → Sound t (f a) fun _ t => P a t) : Sound t₀ (as.forM f) fun _ t => ∀ a ∈ as, P a t := by
  induction as generalizing t₀ with
  | nil => exact pure fun _ _ _ => nofun
  | cons a as ih =>
    refine bind (hf a (by simp) t₀ (.refl _)) fun _ t₁ h₁ _ ha => ?_
    refine post (ih fun a' ha' t ht => hf a' (by simp [ha']) t (h₁.trans ht)) fun _ t₂ h₂ _ has a' ha' => ?_
    rcases List.mem_cons.1 ha' with rfl | ha'
    · exact hP _ _ _ h₂ ha
    · exact has a' ha'

/-- A loop whose state has a property at the start and after each round. -/
theorem forIn {I : β → Table → Prop} (hI : Lasting I) {init : β} {f : α → β → Expansion (ForInStep β)} (hinit : I init t₀)
    (hf : ∀ a ∈ as, ∀ b t, t₀.Grows t → I b t → Sound t (f a b) fun r t' => ∃ b', r = .yield b' ∧ I b' t') :
    Sound t₀ (ForIn.forIn as init f) I := by
  induction as generalizing t₀ init with
  | nil =>
    rw [List.forIn_nil]
    exact pure fun t ht _ => hI _ _ _ ht hinit
  | cons a as ih =>
    rw [List.forIn_cons]
    refine bind (hf a (by simp) init t₀ (.refl _) hinit) ?_
    rintro _ t₁ h₁ _ ⟨b', rfl, hb'⟩
    exact ih hb' fun a' ha' b t ht hb => hf a' (by simp [ha']) b t (h₁.trans ht) hb

end Expansion.Sound

/-- What `Expansion.Sound` says of a computation, on one table. -/
def Expansion.SoundOn (t : Table) (x : Expansion α) (Q : α → Table → Prop) : Prop :=
  ∀ a t', StateT.run x t = some (a, t') → t.Leads t' ∧ Q a t'

namespace Expansion.SoundOn

theorem ofSound {t : Table} {x : Expansion α} {Q : α → Table → Prop} (h : Sound t x Q) (hwf : t.WF) : SoundOn t x Q :=
  h t (.refl t) hwf

/-- What comes later is compared with the table that was there at the start. -/
theorem bindOf {t : Table} {x : Expansion α} {f : α → Expansion β} {Q : α → Table → Prop} {R : β → Table → Prop}
    (hx : SoundOn t x Q)
    (hf : ∀ a t₁, t.Leads t₁ → Q a t₁ → ∀ b t', StateT.run (f a) t₁ = some (b, t') → t.Leads t' ∧ R b t') :
    SoundOn t (x >>= f) R := by
  intro b t'' hrun
  rw [StateT.run_bind] at hrun
  obtain ⟨⟨a, t'⟩, hrun, hrun'⟩ := Option.bind_eq_some_iff.1 hrun
  obtain ⟨hleads, hQ⟩ := hx a t' hrun
  exact hf a t' hleads hQ b t'' hrun'

end Expansion.SoundOn

/-- A computation that starts with reading the table goes on from this table. -/
theorem Expansion.Sound.ofTable {f : Table → Expansion α} {Q : α → Table → Prop}
    (h : ∀ t, t₀.Grows t → t.WF → SoundOn t (f t) Q) : Sound t₀ (get >>= f) Q :=
  fun t ht hwf a t' hrun => h t ht hwf a t' hrun

/-! ## New entries -/

namespace Build

theorem sound_push {ty : Ty} (hparts : ∀ c ∈ ty.parts, t₀.HasType c)
    (hfilled : ∀ c ∈ ty.filledIn, t₀.HasType c) (hfuncs : ∀ f ∈ ty.funcs, t₀.HasMethod f)
    (hsettled : ty.isSettled = true) :
    Sound t₀ (push ty) fun id t => t.HasType id := by
  intro t ht hwf
  refine ⟨hwf.push (fun c hc => ht.hasType (hparts c hc)) (fun c hc => ht.hasType (hfilled c hc))
    (fun f hf => ht.hasMethod (hfuncs f hf)) hsettled, ?_⟩
  show t.types.size < (t.types.push ty).size
  rw [Array.size_push]
  exact Nat.lt_succ_self _

theorem get_push (t : Table) (ty : Ty) : ((push ty).run t).2.get ((push ty).run t).1 = ty := by
  show (t.types.push ty)[t.types.size]?.getD .invalid = ty
  rw [Array.getElem?_push_size, Option.getD_some]

theorem sound_newNamed (name : String) (package : Option String) :
    Sound t₀ (newNamed name package) fun id t => t.HasType id ∧ ¬ t₀.HasType id := by
  intro t ht hwf
  have hpush : Sound t (newNamed name package) fun id t => t.HasType id :=
    sound_push nofun (by simpa [Ty.filledIn] using hwf.hasType_invalid) nofun rfl
  obtain ⟨hleads, hid⟩ := hpush t (.refl t) hwf
  exact ⟨hleads, hid, Nat.not_lt.2 ht.types_size⟩

theorem sound_typeParam (name : String) (index : Nat) :
    Sound t₀ (typeParam name index) fun id t => t.HasType id ∧ ¬ t₀.HasType id ∧ (t.get id).isTypeParam = true := by
  intro t ht hwf
  have hpush : Sound t (typeParam name index) fun id t => t.HasType id :=
    sound_push nofun (by simpa [Ty.filledIn] using hwf.hasType_invalid) nofun rfl
  obtain ⟨hleads, hid⟩ := hpush t (.refl t) hwf
  exact ⟨hleads, hid, Nat.not_lt.2 ht.types_size, congrArg Ty.isTypeParam (get_push t _)⟩

/-- A function that is entered is found under its index. -/
theorem sound_newFunc {f : Func} (hf : f.WF t₀) :
    Sound t₀ (newFunc f) fun id t => t.HasFunc id ∧ t.func id = f := by
  intro t ht hwf
  refine ⟨hwf.pushFunc (hf.of_grows ht), ?_, ?_⟩
  · show t.funcs.size < (t.funcs.push f).size
    rw [Array.size_push]
    exact Nat.lt_succ_self _
  · show (t.funcs.push f)[t.funcs.size]?.getD default = f
    rw [Array.getElem?_push_size, Option.getD_some]

theorem hasType_of_find? {t : Table} {p : Ty → Bool} {id : TypeId} (h : t.find? p = some id) : t.HasType id := by
  obtain ⟨i, hi, rfl⟩ := Option.map_eq_some_iff.1 h
  exact (Array.findIdx?_eq_some_iff_findIdx_eq.1 hi).1

theorem sound_findOrPush {p : Ty → Bool} {ty : Ty} (hparts : ∀ c ∈ ty.parts, t₀.HasType c)
    (hfilled : ∀ c ∈ ty.filledIn, t₀.HasType c) (hfuncs : ∀ f ∈ ty.funcs, t₀.HasMethod f)
    (hsettled : ty.isSettled = true) :
    Sound t₀ (do
      match (← get).find? p with
      | some id => return id
      | none => push ty) fun id t => t.HasType id := by
  refine .bind .getTable ?_
  rintro _ t₁ h₁ - rfl
  split
  · rename_i id hid
    exact .pure fun t ht _ => ht.hasType (hasType_of_find? hid)
  · exact (sound_push hparts hfilled hfuncs hsettled).weaken h₁

theorem sound_pointer {elem : TypeId} (h : t₀.HasType elem) : Sound t₀ (pointer elem) fun id t => t.HasType id :=
  sound_findOrPush (by simpa [Ty.parts] using h) (by simp [Ty.filledIn]) (by simp [Ty.funcs]) rfl

theorem sound_slice {elem : TypeId} (h : t₀.HasType elem) : Sound t₀ (slice elem) fun id t => t.HasType id :=
  sound_findOrPush (by simpa [Ty.parts] using h) (by simp [Ty.filledIn]) (by simp [Ty.funcs]) rfl

theorem sound_signature {params results : List TypeId} {variadic : Bool} (hparams : ∀ c ∈ params, t₀.HasType c)
    (hresults : ∀ c ∈ results, t₀.HasType c) :
    Sound t₀ (signature params results variadic) fun id t => t.HasType id :=
  sound_push (fun c hc => (List.mem_append.1 hc).elim (hparams c) (hresults c)) (by simp [Ty.filledIn])
    (by simp [Ty.funcs]) rfl

end Build

/-! ## Instances, substitution and completion -/

namespace Expansion

variable {t t' : Table} {id : TypeId} {d : Named} {n : Nat} {m : FuncId}

/-- The five activities, with `n` levels of nesting, keep tables well formed. -/
structure AllSound (n : Nat) : Prop where
  instantiate : ∀ t₀ origin args depth, (∀ a ∈ args, t₀.HasType a) →
    Sound t₀ (instantiate n origin args depth) fun id t => t.HasType id
  expand : ∀ t₀ inst depth, Sound t₀ (expand n inst depth) fun _ t =>
    t.deferring = false → (t.get inst).isUnexpanded = false
  subst : ∀ t₀ map depth id, (∀ p ∈ map, t₀.HasType p.2) → t₀.HasType id →
    Sound t₀ (subst n map depth id) fun id t => t.HasType id
  newInterface : ∀ t₀ explicit embedded, (∀ m ∈ explicit, t₀.HasMethod m) → (∀ e ∈ embedded, t₀.HasType e) →
    Sound t₀ (newInterface n explicit embedded) fun id t => t.HasType id
  complete : ∀ t₀ visiting id, Sound t₀ (complete n visiting id) fun _ t =>
    visiting.contains id = false → (t.get id).isIncomplete = false

theorem named?_eq_some (h : t.named? id = some d) : t.get id = .named d := by
  unfold Table.named? at h
  split at h
  · rename_i n hget
    cases h
    exact hget
  · cases h

theorem hasType_of_named? (h : t.named? id = some d) : t.HasType id :=
  Table.hasType_of_get_ne_invalid (by rw [named?_eq_some h]; exact nofun)

theorem AllSound.instantiate_succ (ih : AllSound n) (t₀ : Table) (origin : TypeId) (args : List TypeId) (depth : Nat)
    (hargs : ∀ a ∈ args, t₀.HasType a) :
    Sound t₀ (Expansion.instantiate (n + 1) origin args depth) fun id t => t.HasType id := by
  unfold Expansion.instantiate
  refine .ofTable fun t h hwf => ?_
  have hinvalid : SoundOn t (pure TypeId.invalid) fun id t => t.HasType id :=
    .ofSound (.pure fun _ _ hwf => hwf.hasType_invalid) hwf
  split
  · exact hinvalid
  · rename_i d₀ _
    dsimp only
    split
    · exact hinvalid
    · rename_i d hd
      have horigin := hasType_of_named? hd
      have hself : SoundOn t (pure (d₀.origin.getD origin)) fun id t => t.HasType id :=
        .ofSound (.pure fun _ ht _ => ht.hasType horigin) hwf
      split
      · exact hself
      split
      · exact hinvalid
      split
      · exact hself
      split
      · rename_i inst hinst
        exact .ofSound (.pure fun _ ht _ => ht.hasType (Build.hasType_of_find? hinst)) hwf
      · intro inst t' hrun
        generalize hnew : Ty.named _ = new at hrun
        -- a new instance refers to its arguments and to the generic type
        have hfollows : t.Follows { t with types := t.types.push new } := by
          subst hnew
          refine hwf.follows_push (fun c hc => ?_) ?_ (by simp [Ty.funcs]) fun horigin => by cases horigin
          · rcases List.mem_append.1 hc with hc | hc
            · exact h.hasType (hargs c hc)
            · rw [List.mem_singleton.1 hc]
              exact horigin
          · simpa [Ty.filledIn] using hwf.hasType_invalid
        have hrest : StateT.run (if t.deferring = false then (fun _ => ⟨t.types.size⟩) <$> Expansion.expand n ⟨t.types.size⟩ depth
            else pure ⟨t.types.size⟩) { t with types := t.types.push new } = some (inst, t') := by
          simp only [Bool.not_eq_eq_eq_not, Bool.not_true, bind_pure_comp] at hrun
          exact hrun
        cases hdeferring : t.deferring with
        | true =>
          rw [if_neg (by simp [hdeferring])] at hrest
          cases hrest
          exact ⟨⟨hfollows, rfl, by simp [hdeferring], by simp [hdeferring]⟩, by simp [HasType]⟩
        | false =>
          rw [if_pos hdeferring, StateT.run_map] at hrest
          obtain ⟨⟨⟨⟩, t₁⟩, hexpand, heq⟩ := Option.map_eq_some_iff.1 hrest
          cases heq
          obtain ⟨hleads, hfilled⟩ := ih.expand _ _ depth _ (.refl _) hfollows.wf () t₁ hexpand
          refine ⟨⟨hfollows.trans hleads.toFollows, hleads.deferring, fun _ id hid => ?_, fun _ id hopen => ?_⟩,
            hleads.grows.hasType (by simp [HasType])⟩
          · by_cases hhas : { t with types := t.types.push new : Table }.HasType id
            · refine hleads.grows.isIncomplete_get hhas ?_
              rw [Table.get_push_of_not_hasType hid]
              split
              · rw [← hnew]
                rfl
              · rfl
            · exact hleads.new hdeferring id hhas
          · rcases Table.isUnexpanded_get_push (hleads.filled hdeferring id hopen) with hold | ⟨-, hindex, -⟩
            · exact hold
            · obtain ⟨i⟩ := id
              cases hindex
              have hclosed := hfilled (hleads.deferring.trans hdeferring)
              exact Bool.noConfusion (hclosed.symm.trans hopen)

theorem AllSound.newInterface_succ (ih : AllSound n) (t₀ : Table) (explicit : List FuncId) (embedded : List TypeId)
    (hexplicit : ∀ m ∈ explicit, t₀.HasMethod m) (hembedded : ∀ e ∈ embedded, t₀.HasType e) :
    Sound t₀ (Expansion.newInterface (n + 1) explicit embedded) fun id t => t.HasType id := by
  intro t ht hwf a t' hrun
  have hfollows : t.Follows { t with types := t.types.push (.interface
      { explicit, embedded, methods := [], complete := false, hasTerms := false }) } := by
    refine hwf.follows_push (fun e he => ht.hasType (hembedded e he)) nofun (fun m hm => ht.hasMethod (hexplicit m ?_))
      ⟨fun hcomplete => (by cases hcomplete), fun _ => rfl⟩
    simpa [Ty.funcs] using hm
  obtain ⟨id, t₁, hpush⟩ : ∃ id t₁, (Build.push (.interface
    { explicit, embedded, methods := [], complete := false, hasTerms := false })).run t = (id, t₁) := ⟨_, _, rfl⟩
  have hrest : StateT.run (if t.deferring = false then (fun _ => id) <$> Expansion.complete n [] id else pure id) t₁ =
      some (a, t') := by
    cases hpush
    simp only [Expansion.newInterface, Bool.not_eq_eq_eq_not, Bool.not_true, bind_pure_comp, StateT.run_bind,
      StateT.run_get, Option.pure_def, Option.bind_eq_bind, Option.bind_some] at hrun
    exact hrun
  cases hpush
  cases hdeferring : t.deferring with
  | true =>
    rw [if_neg (by simp [hdeferring])] at hrest
    cases hrest
    exact ⟨⟨hfollows, rfl, by simp [hdeferring], by simp [hdeferring]⟩, by simp [HasType]⟩
  | false =>
    rw [if_pos hdeferring, StateT.run_map] at hrest
    obtain ⟨⟨⟨⟩, t₂⟩, hcomplete, heq⟩ := Option.map_eq_some_iff.1 hrest
    cases heq
    obtain ⟨hleads, hfound⟩ := ih.complete _ [] _ _ (.refl _) hfollows.wf () t₂ hcomplete
    refine ⟨⟨hfollows.trans hleads.toFollows, hleads.deferring, fun _ id' hid' => ?_, fun _ id' hopen => ?_⟩,
      hleads.grows.hasType (by simp [HasType])⟩
    · -- the only new entry before the completion is the interface itself
      by_cases hindex : id'.index = t.types.size
      · obtain ⟨i⟩ := id'
        cases hindex
        exact hfound rfl
      · exact hleads.new hdeferring id' (Table.not_hasType_push hid' hindex)
    · rcases Table.isUnexpanded_get_push (hleads.filled hdeferring id' hopen) with hold | ⟨-, -, hnew⟩
      · exact hold
      · cases hnew

theorem copy_wf (hgrows : t.Grows t') (hwf : t.WF) (hm : t.HasFunc m) {sig : TypeId} (hsig : t'.HasType sig)
    {kind : FuncKind} (hkind : ∀ recv ptr, kind = .method recv ptr → t'.HasType recv) :
    { t.func m with sig, kind, origin := some ((t.func m).origin.getD m) : Func }.WF t' := by
  have hf := (hwf.func m).of_grows hgrows
  refine ⟨fun c hc => ?_, fun o ho => ?_⟩
  · simp only [Func.parts, List.cons_append, List.mem_cons, List.mem_append] at hc
    rcases hc with rfl | hc | hc
    · exact hsig
    · exact hf.parts c (by simp [Func.parts, hc])
    · cases kind with
      | method recv ptr =>
        rw [List.mem_singleton.1 hc]
        exact hkind recv ptr rfl
      | _ => cases hc
  · cases ho
    cases horigin : (t.func m).origin with
    | none =>
      have hbecomes := hgrows.func hm
      exact ⟨hgrows.hasFunc hm, hbecomes.name, hbecomes.origin.trans horigin⟩
    | some o => exact hf.origin o horigin

/-- What is done with an instance that has been marked as filled in. -/
def fill (n : Nat) (inst origin : TypeId) (typeArgs : List TypeId) (depth : Nat) : Expansion Unit := do
  match (← get).named? origin with
  | none => return
  | some d =>
    let map := d.typeParams.zip typeArgs
    let rhs ← Expansion.subst n map (depth + 1) d.rhs
    modify (·.setRhs inst rhs)
    for method in d.methods do
      let f := (← get).func method
      let sig ← Expansion.subst n map (depth + 1) f.sig
      let copy ← Build.newFunc
        { f with sig, kind := .method inst f.hasPointerRecv, origin := some (f.origin.getD method) }
      modify (·.addMethod inst copy)
    Expansion.complete n [] ((← get).underlying inst)

theorem expand_eq_fill (n : Nat) (inst : TypeId) (depth : Nat) :
    Expansion.expand (n + 1) inst depth = (do
      match (← get).named? inst with
      | some { expanded := false, origin := some origin, typeArgs, .. } =>
        modify (·.modifyNamed inst fun d => { d with expanded := true })
        fill n inst origin typeArgs depth
      | _ => return) := by
  rw [Expansion.expand]
  rfl

theorem AllSound.sound_fill (ih : AllSound n) {t₀ : Table} {inst origin : TypeId} {typeArgs : List TypeId} (depth : Nat)
    (hinst : t₀.get inst = .named d) (horigin : d.origin = some origin) (hargs : ∀ a ∈ typeArgs, t₀.HasType a) :
    Sound t₀ (fill n inst origin typeArgs depth) fun _ _ => True := by
  have hinst' : t₀.HasType inst := Table.hasType_of_get_ne_invalid (by simp [hinst])
  unfold fill
  refine .bind .getTable ?_
  rintro t₂ _ h₂ hwf₂ rfl
  split
  · exact .pure fun _ _ _ => trivial
  · rename_i d hd
    have hd := named?_eq_some hd
    have hmap : ∀ p ∈ d.typeParams.zip typeArgs, t₂.HasType p.2 :=
      fun p hp => h₂.hasType (hargs p.2 (List.of_mem_zip hp).2)
    have hrhs : t₂.HasType d.rhs := by
      refine hwf₂.hasType_filledIn origin ?_
      rw [hd]
      exact List.mem_cons_self
    have hmethods : ∀ m ∈ d.methods, t₂.HasFunc m := by
      intro m hm
      refine hwf₂.hasFunc origin ?_
      rw [hd]
      exact hm
    refine .bind (ih.subst t₂ _ _ _ hmap hrhs) fun rhs t₃ h₃ _ hrhs => ?_
    refine .bind (.change fun t ht hwf => ?_) fun _ t₄ h₄ _ _ => ?_
    · obtain ⟨d', hget, -, -, horigin', -⟩ := (h₂.trans (h₃.trans ht)).named hinst
      exact hwf.setRhs_instance (ht.hasType hrhs) hget (horigin'.trans horigin)
    refine .bind (.forIn (I := fun _ _ => True) (fun _ _ _ _ _ => trivial) trivial ?_) fun _ t₅ _ _ _ => ?_
    · -- each method is copied with its signature, and the copy is attached
      intro m hm _ t₅ h₅ _
      have h₅ := (h₃.trans h₄).trans h₅
      refine .bind .getTable ?_
      rintro t₆ _ h₆ hwf₆ rfl
      have h₆ := h₅.trans h₆
      have hm₆ := h₆.hasFunc (hmethods m hm)
      refine .bind (ih.subst t₆ _ _ _ (fun p hp => h₆.hasType (hmap p hp)) (hwf₆.hasType_sig m))
        fun sig t₇ h₇ _ hsig => ?_
      have hcopy : { t₆.func m with
          sig, kind := .method inst (t₆.func m).hasPointerRecv,
          origin := some ((t₆.func m).origin.getD m) : Func }.WF t₇ := by
        refine copy_wf h₇ hwf₆ hm₆ hsig fun recv ptr hkind => ?_
        cases hkind
        exact (h₂.trans (h₆.trans h₇)).hasType hinst'
      refine .bind (.lift (Build.sound_newFunc hcopy)) fun copy t₈ _ _ hnew => ?_
      refine .bind (.change fun t ht hwf => hwf.addMethod (ht.hasFunc hnew.1)) fun _ _ _ _ _ => ?_
      exact .pure fun _ _ _ => ⟨_, rfl, trivial⟩
    · refine .bind .getTable ?_
      rintro t₆ _ _ _ rfl
      exact (ih.complete t₆ [] _).post fun _ _ _ _ _ => trivial

theorem isUnexpanded_get_of_named? {inst : TypeId}
    (h : ∀ name package rhs methods typeParams origin typeArgs, t.named? inst =
      some ⟨name, package, rhs, methods, typeParams, some origin, typeArgs, false⟩ → False) :
    (t.get inst).isUnexpanded = false := by
  cases hget : t.get inst with
  | named d =>
    obtain ⟨name, package, rhs, methods, typeParams, origin, typeArgs, expanded⟩ := d
    cases origin with
    | none => rfl
    | some origin =>
      cases expanded with
      | true => rfl
      | false => exact absurd (by simp [Table.named?, hget]) (h name package rhs methods typeParams origin typeArgs)
  | _ => rfl

theorem AllSound.expand_succ (ih : AllSound n) (t₀ : Table) (inst : TypeId) (depth : Nat) :
    Sound t₀ (Expansion.expand (n + 1) inst depth) fun _ t => t.deferring = false → (t.get inst).isUnexpanded = false := by
  rw [expand_eq_fill]
  refine .ofTable fun t h hwf => ?_
  split
  · rename_i name package rhs methods typeParams origin typeArgs hinst
    have hinst := named?_eq_some hinst
    have hhas : t.HasType inst := Table.hasType_of_get_ne_invalid (by simp [hinst])
    have hargs : ∀ a ∈ typeArgs, t.HasType a := by
      intro a ha
      refine hwf.hasType_part inst ?_
      rw [hinst]
      exact List.mem_append_left _ ha
    intro a t' hrun
    have hmark : t.Leads (t.modifyNamed inst fun d => { d with expanded := true }) := hwf.markExpanded
    have hmarked : (t.modifyNamed inst fun d => { d with expanded := true }).get inst = _ :=
      Table.get_modifyType_self hhas _
    rw [hinst] at hmarked
    obtain ⟨hleads, -⟩ := ih.sound_fill depth hmarked rfl (fun a ha => hmark.grows.hasType (hargs a ha)) _ (.refl _)
      hmark.wf a t' hrun
    refine ⟨hmark.trans hleads, fun hdeferring => ?_⟩
    by_contra hopen
    have hopen := hleads.filled (hleads.deferring.symm.trans hdeferring) inst (by simpa using hopen)
    rw [hmarked] at hopen
    cases hopen
  · rename_i hother
    intro a t' hrun
    cases hrun
    exact ⟨.refl hwf, fun _ => isUnexpanded_get_of_named? hother⟩

theorem mem_of_mem_map_zipWith {set : α → TypeId → α} {part : α → TypeId} (h : ∀ a id, part (set a id) = id)
    {as : List α} {ids : List TypeId} {c : TypeId} (hc : c ∈ (as.zipWith set ids).map part) : c ∈ ids := by
  induction as generalizing ids with
  | nil => cases hc
  | cons a as ih =>
    cases ids with
    | nil => cases hc
    | cons id ids =>
      rw [List.zipWith_cons_cons, List.map_cons, h, List.mem_cons] at hc
      exact List.mem_cons.2 (hc.imp_right ih)

theorem AllSound.subst_succ (ih : AllSound n) (t₀ : Table) (map : Subst) (depth : Nat) (id : TypeId)
    (hmap : ∀ p ∈ map, t₀.HasType p.2) (hid : t₀.HasType id) :
    Sound t₀ (Expansion.subst (n + 1) map depth id) fun id t => t.HasType id := by
  unfold Expansion.subst
  split
  · exact .pure fun _ _ hwf => hwf.hasType_invalid
  refine .bind .getTable ?_
  rintro t _ h hwf rfl
  have hpart := fun c => hwf.hasType_part id (c := c)
  have hfilled := fun c => hwf.hasType_filledIn id (c := c)
  have hself : ∀ t₁, t.Grows t₁ → Sound t₁ (pure id) fun id t => t.HasType id :=
    fun t₁ h₁ => .pure fun _ ht _ => ((h.trans h₁).trans ht).hasType hid
  -- substitution in the parts of the type, and in lists of them
  have hsubst : ∀ t₁, t.Grows t₁ → ∀ c, t.HasType c →
      Sound t₁ (Expansion.subst n map (depth + 1) c) fun id t => t.HasType id :=
    fun t₁ h₁ c hc => ih.subst t₁ map (depth + 1) c (fun p hp => (h.trans h₁).hasType (hmap p hp)) (h₁.hasType hc)
  have hsubsts : ∀ t₁, t.Grows t₁ → ∀ cs : List TypeId, (∀ c ∈ cs, t.HasType c) →
      Sound t₁ (cs.mapM (Expansion.subst n map (depth + 1))) fun ids t => ∀ id ∈ ids, t.HasType id :=
    fun t₁ h₁ cs hcs => .mapM Lasting.hasType fun c hc t₂ h₂ => hsubst t₂ (h₁.trans h₂) c (hcs c hc)
  have hpush : ∀ t₁ (ty : Ty), (∀ c ∈ ty.parts, t₁.HasType c) → ty.filledIn = [] → ty.funcs = [] →
      ty.isSettled = true → Sound t₁ (liftM (Build.push ty)) fun id t => t.HasType id :=
    fun t₁ ty hparts hfilled hfuncs hsettled =>
      .lift (Build.sound_push hparts (by simp [hfilled]) (by simp [hfuncs]) hsettled)
  split
  · exact hself t (.refl t)
  · exact hself t (.refl t)
  · refine .pure fun t₁ h₁ _ => ?_
    cases hlookup : map.lookup id with
    | none => exact (h.trans h₁).hasType hid
    | some c =>
      obtain ⟨l₁, l₂, heq, -⟩ := List.lookup_eq_some_iff.1 hlookup
      exact (h.trans h₁).hasType (hmap (id, c) (by rw [heq]; simp))
  · rename_i d hget
    rw [hget] at hpart hfilled
    split
    · refine .bind (hsubsts t (.refl t) _ fun c hc => hpart c (List.mem_append_left _ hc)) fun args t₁ h₁ _ hargs => ?_
      split
      · exact hself t₁ h₁
      · exact ih.instantiate t₁ _ args _ hargs
    · split
      · exact hself t (.refl t)
      refine .bind (hsubsts t (.refl t) _ fun c hc => hfilled c (List.mem_cons_of_mem _ hc)) fun args t₁ h₁ _ hargs => ?_
      split
      · exact hself t₁ h₁
      · exact ih.instantiate t₁ _ args _ hargs
  · rename_i elem hget
    rw [hget] at hpart
    refine .bind (hsubst t (.refl t) elem (hpart elem (by simp [Ty.parts]))) fun e t₁ h₁ _ he => ?_
    split
    · exact hself t₁ h₁
    · exact .lift (Build.sound_pointer he)
  · rename_i elem hget
    rw [hget] at hpart
    refine .bind (hsubst t (.refl t) elem (hpart elem (by simp [Ty.parts]))) fun e t₁ h₁ _ he => ?_
    split
    · exact hself t₁ h₁
    · exact .lift (Build.sound_slice he)
  · rename_i len elem hget
    rw [hget] at hpart
    refine .bind (hsubst t (.refl t) elem (hpart elem (by simp [Ty.parts]))) fun e t₁ h₁ _ he => ?_
    split
    · exact hself t₁ h₁
    · exact hpush t₁ (.array len e) (by simpa [Ty.parts] using he) rfl rfl rfl
  · rename_i key value hget
    rw [hget] at hpart
    refine .bind (hsubst t (.refl t) key (hpart key (by simp [Ty.parts]))) fun k t₁ h₁ _ hk => ?_
    refine .bind (hsubst t₁ h₁ value (hpart value (by simp [Ty.parts]))) fun v t₂ h₂ _ hv => ?_
    split
    · exact hself t₂ (h₁.trans h₂)
    · exact hpush t₂ (.map k v) (by simpa [Ty.parts] using ⟨h₂.hasType hk, hv⟩) rfl rfl rfl
  · rename_i dir elem hget
    rw [hget] at hpart
    refine .bind (hsubst t (.refl t) elem (hpart elem (by simp [Ty.parts]))) fun e t₁ h₁ _ he => ?_
    split
    · exact hself t₁ h₁
    · exact hpush t₁ (.chan dir e) (by simpa [Ty.parts] using he) rfl rfl rfl
  · rename_i elems hget
    rw [hget] at hpart
    refine .bind (hsubsts t (.refl t) elems hpart) fun es t₁ h₁ _ hes => ?_
    split
    · exact hself t₁ h₁
    · exact hpush t₁ (.tuple es) hes rfl rfl rfl
  · rename_i s hget
    rw [hget] at hpart
    refine .bind (hsubsts t (.refl t) s.params fun c hc => hpart c (List.mem_append_left _ hc))
      fun params t₁ h₁ _ hparams => ?_
    refine .bind (hsubsts t₁ h₁ s.results fun c hc => hpart c (List.mem_append_right _ hc))
      fun results t₂ h₂ _ hresults => ?_
    split
    · exact hself t₂ (h₁.trans h₂)
    · exact .lift (Build.sound_signature (fun c hc => h₂.hasType (hparams c hc)) hresults)
  · rename_i fields hget
    rw [hget] at hpart
    refine .bind (.mapM Lasting.hasType fun f hf t₁ h₁ => hsubst t₁ h₁ f.type (hpart f.type (List.mem_map_of_mem hf)))
      fun types t₁ h₁ _ htypes => ?_
    split
    · exact hself t₁ h₁
    · exact hpush t₁ (.struct _) (fun c hc => htypes c (mem_of_mem_map_zipWith (fun _ _ => rfl) hc)) rfl rfl rfl
  · rename_i terms hget
    rw [hget] at hpart
    refine .bind (.mapM Lasting.hasType fun f hf t₁ h₁ => hsubst t₁ h₁ f.type (hpart f.type (List.mem_map_of_mem hf)))
      fun types t₁ h₁ _ htypes => ?_
    split
    · exact hself t₁ h₁
    · exact hpush t₁ (.union _) (fun c hc => htypes c (mem_of_mem_map_zipWith (fun _ _ => rfl) hc)) rfl rfl rfl
  · rename_i i hget
    rw [hget] at hpart
    have hexplicit : ∀ m ∈ i.explicit, t.HasMethod m := fun m hm => hwf.hasMethod hget (List.mem_append_left _ hm)
    refine .bind (.mapM Lasting.hasMethod fun m hm t₁ h₁ => ?_) fun explicit t₁ h₁ _ hexplicit' => ?_
    · refine .bind .getTable ?_
      rintro t₂ _ h₂ hwf₂ rfl
      have h₂ := h₁.trans h₂
      refine .bind (ih.subst t₂ map (depth + 1) _ (fun p hp => (h.trans h₂).hasType (hmap p hp)) (hwf₂.hasType_sig m))
        fun sig t₃ h₃ _ hsig => ?_
      split
      · exact .pure fun _ ht _ => ((h₂.trans h₃).trans ht).hasMethod (hexplicit m hm)
      · have hcopy : { t₂.func m with sig, origin := some ((t₂.func m).origin.getD m) : Func }.WF t₃ := by
          refine copy_wf h₃ hwf₂ (h₂.hasFunc (hexplicit m hm).hasFunc) hsig fun recv ptr hkind => ?_
          exact h₃.hasType ((hwf₂.func m).parts recv (by simp [Func.parts, hkind]))
        refine .lift ((Build.sound_newFunc hcopy).post fun _ _ _ _ hnew => ⟨hnew.1, ?_⟩)
        rw [hnew.2]
        exact (h₂.hasMethod (hexplicit m hm)).kind
    · refine .bind (hsubsts t₁ h₁ i.embedded hpart) fun embedded t₂ h₂ _ hembedded => ?_
      split
      · exact hself t₂ (h₁.trans h₂)
      · exact ih.newInterface t₂ explicit embedded (fun m hm => h₂.hasMethod (hexplicit' m hm)) hembedded

theorem mem_inheritMethods {methods inherited : List FuncId} (h : m ∈ t.inheritMethods methods inherited) :
    m ∈ methods ∨ m ∈ inherited := by
  unfold Table.inheritMethods at h
  induction inherited generalizing methods with
  | nil => exact .inl h
  | cons f fs ih =>
    rw [List.foldl_cons] at h
    rcases ih h with hm | hm
    · split at hm
      · exact .inl hm
      · rcases List.mem_append.1 hm with hm | hm
        · exact .inl hm
        · exact .inr (by rw [List.mem_singleton.1 hm]; exact List.mem_cons_self)
    · exact .inr (List.mem_cons_of_mem _ hm)

theorem subset_inheritMethods (t : Table) (methods inherited : List FuncId) : methods ⊆ t.inheritMethods methods inherited := by
  unfold Table.inheritMethods
  induction inherited generalizing methods with
  | nil => exact List.Subset.refl _
  | cons f fs ih =>
    rw [List.foldl_cons]
    refine List.Subset.trans ?_ (ih _)
    split
    · exact List.Subset.refl _
    · exact List.subset_append_left _ _

/-- Methods that are brought in order are in the order of their names. -/
theorem pairwise_sortMethods (t : Table) (methods : List FuncId) :
    (t.sortMethods methods).Pairwise fun a b => (t.func a).name ≤ (t.func b).name := by
  refine (List.pairwise_mergeSort (fun a b c hab hbc => ?_) (fun a b => ?_) methods).imp fun hab => ?_
  · simp only [Bool.not_eq_true', decide_eq_false_iff_not, String.not_lt] at hab hbc ⊢
    exact String.le_trans hab hbc
  · simp only [Bool.or_eq_true, Bool.not_eq_true', decide_eq_false_iff_not, String.not_lt]
    exact String.le_total _ _
  · simp only [Bool.not_eq_true', decide_eq_false_iff_not, String.not_lt] at hab
    exact hab

theorem hasMethod_methodList (hwf : t.WF) {i : Interface} (h : t.get id = .interface i) (hm : m ∈ i.methodList) :
    t.HasMethod m := by
  refine hwf.hasMethod h ?_
  unfold Interface.methodList at hm
  split at hm
  · exact List.mem_append_right _ hm
  · exact List.mem_append_left _ hm

theorem AllSound.complete_succ (ih : AllSound n) (t₀ : Table) (visiting : List TypeId) (id : TypeId) :
    Sound t₀ (Expansion.complete (n + 1) visiting id) fun _ t =>
      visiting.contains id = false → (t.get id).isIncomplete = false := by
  unfold Expansion.complete
  refine .ofTable fun t _ hwf => ?_
  split
  · rename_i i hget
    split
    · rename_i hdone
      rintro a t' hrun
      cases hrun
      refine ⟨.refl hwf, fun hvisiting => ?_⟩
      have hcomplete : i.complete = true := by rwa [hvisiting, Bool.or_false] at hdone
      simp [hget, Ty.isIncomplete, hcomplete]
    rename_i hincomplete
    have hexplicit : ∀ m ∈ i.explicit, t.HasMethod m := fun m hm => hwf.hasMethod hget (List.mem_append_left _ hm)
    dsimp only
    have hlasting : Lasting fun (s : List FuncId × Bool) t => (∀ m ∈ s.1, t.HasMethod m) ∧ i.explicit ⊆ s.1 :=
      fun _ _ _ hgrows hs => ⟨fun m hm => hgrows.hasMethod (hs.1 m hm), hs.2⟩
    -- the loop may complete the interface in passing, so what comes after it is compared with what was before it
    refine .bindOf (.ofSound (.forIn hlasting ⟨hexplicit, List.Subset.refl _⟩ ?_) hwf) fun s t₁ hleads hs => ?_
    · -- one embedded type: its instance is filled in, and its methods are taken over
      intro embed _ s t₁ h₁ hs
      refine .bind (ih.expand t₁ embed 0) fun _ t₂ h₂ _ _ => ?_
      refine .bind .getTable ?_
      rintro t₃ _ h₃ - rfl
      refine .bind .getTable ?_
      rintro t₄ _ h₄ - rfl
      have hs₄ : ∀ m ∈ s.1, t₄.HasMethod m := fun m hm => (h₂.trans (h₃.trans h₄)).hasMethod (hs.1 m hm)
      split
      · refine .bind (ih.complete t₄ _ _) fun _ t₅ h₅ _ _ => ?_
        refine .bind .getTable ?_
        rintro t₆ _ h₆ hwf₆ rfl
        have hs₆ : ∀ m ∈ s.1, t₆.HasMethod m := fun m hm => (h₅.trans h₆).hasMethod (hs₄ m hm)
        split
        · rename_i inner hinner
          refine .pure fun t₇ h₇ _ => ⟨_, rfl, fun m hm => ?_, List.Subset.trans hs.2 (subset_inheritMethods _ _ _)⟩
          rcases mem_inheritMethods hm with hm | hm
          · exact h₇.hasMethod (hs₆ m hm)
          · exact h₇.hasMethod (hasMethod_methodList hwf₆ hinner hm)
        · exact .pure fun t₇ h₇ _ => ⟨_, rfl, fun m hm => h₇.hasMethod (hs₆ m hm), hs.2⟩
      · exact .pure fun t₅ h₅ _ => ⟨_, rfl, fun m hm => h₅.hasMethod (hs₄ m hm), hs.2⟩
      · exact .pure fun t₅ h₅ _ => ⟨_, rfl, fun m hm => h₅.hasMethod (hs₄ m hm), hs.2⟩
    · rintro a t₂ hrun
      cases hrun
      refine ⟨hleads.modifyInterface hwf (fun i' _ => ⟨rfl, List.Subset.refl _, fun m hm => ?_, fun _ => rfl⟩)
        (fun i₀ i' hi₀ _ hcomplete => ?_) fun i' hi' _ => ⟨fun _ => ⟨fun m hm => ?_, pairwise_sortMethods _ _⟩,
          fun hopen => by cases hopen⟩, fun _ => ?_⟩
      · rw [Table.sortMethods, List.mem_mergeSort] at hm
        exact hs.1 m hm
      · rw [hget] at hi₀
        cases hi₀
        simp [hcomplete] at hincomplete
      · -- what is explicit stays explicit
        obtain ⟨i'', hget'', hexplicit'', -⟩ := hleads.grows.interface hget
        rw [hi'] at hget''
        cases hget''
        rw [Table.sortMethods, List.mem_mergeSort]
        exact hs.2 (hexplicit'' ▸ hm)
      · obtain ⟨i', hget', -⟩ := hleads.grows.interface hget
        have hid : t₁.HasType id := Table.hasType_of_get_ne_invalid (by simp [hget'])
        show ((t₁.modifyType id _).get id).isIncomplete = false
        rw [Table.get_modifyType_self hid, hget']
        rfl
  · rename_i hother
    rintro a t' hrun
    cases hrun
    refine ⟨.refl hwf, fun _ => ?_⟩
    cases hget : t.get id with
    | interface i => exact absurd hget (hother i)
    | _ => rfl

/-- Instances, substitution and the completion of interfaces keep tables well formed. -/
theorem allSound (n : Nat) : AllSound n := by
  induction n with
  | zero => exact ⟨fun _ _ _ _ _ => .fail, fun _ _ _ => .fail, fun _ _ _ _ _ _ => .fail, fun _ _ _ _ _ => .fail,
      fun _ _ _ => .fail⟩
  | succ n ih =>
    exact ⟨ih.instantiate_succ, ih.expand_succ, ih.subst_succ, ih.newInterface_succ, ih.complete_succ⟩

theorem filled_forM_expand (n : Nat) {ids : List TypeId} (hwf : t.WF)
    (hrun : StateT.run (ids.forM fun inst => expand n inst 0) t = some ((), t')) :
    t.Leads t' ∧ (t'.deferring = false → ∀ id ∈ ids, (t'.get id).isUnexpanded = false) := by
  induction ids generalizing t with
  | nil =>
    cases hrun
    exact ⟨.refl hwf, fun _ => nofun⟩
  | cons id ids ih =>
    obtain ⟨⟨⟨⟩, t₁⟩, hexpand, hrun⟩ := Option.bind_eq_some_iff.1 hrun
    obtain ⟨hleads, hfilled⟩ := (allSound n).expand t id 0 t (.refl t) hwf () t₁ hexpand
    obtain ⟨hleads', hfilled'⟩ := ih hleads.wf hrun
    refine ⟨hleads.trans hleads', fun hdeferring => List.forall_mem_cons.2 ⟨?_, hfilled' hdeferring⟩⟩
    have hdeferring := hleads'.deferring.symm.trans hdeferring
    by_contra hopen
    have hopen := hleads'.filled hdeferring id (by simpa using hopen)
    rw [hfilled hdeferring] at hopen
    cases hopen

theorem follows_endDeclarations (n : Nat) (order : List TypeId) (hwf : t.WF)
    (hrun : StateT.run (endDeclarations n order) t = some ((), t')) :
    t.Follows t' ∧ t'.MethodSetsKnown ∧ t'.InstancesFilled := by
  have hrest : Sound { t with deferring := false } (do
      order.forM (complete n [])
      (← get).unexpanded.forM fun inst => expand n inst 0
      (← get).incomplete.forM (complete n [])) fun _ t => t.MethodSetsKnown ∧ t.InstancesFilled := by
    have htrue : ∀ {α : Type}, Lasting fun (_ : α) _ => True := fun _ _ _ _ _ => trivial
    refine .bind (.forM htrue fun id _ t _ => ((allSound n).complete t [] id).post fun _ _ _ _ _ => trivial)
      fun _ t₂ _ _ _ => ?_
    refine .ofTable fun t₃ _ hwf₃ a t₆ hrun => ?_
    rw [StateT.run_bind] at hrun
    obtain ⟨⟨⟨⟩, t₅⟩, hexpand, hrun⟩ := Option.bind_eq_some_iff.1 hrun
    obtain ⟨hleads₅, hexpanded⟩ := filled_forM_expand n hwf₃ hexpand
    -- what was not filled in is filled in now
    have hfilled : t₅.InstancesFilled := by
      intro hdeferring id
      by_contra hopen
      have hopen := hleads₅.filled (hleads₅.deferring.symm.trans hdeferring) id (by simpa using hopen)
      have hclosed := hexpanded hdeferring id (Table.mem_unexpanded hopen)
      simp_all
    -- what was incomplete is completed, and what is new is complete from the start
    have hlasting : Lasting fun (id : TypeId) t => t.HasType id ∧ (t.get id).isIncomplete = false :=
      fun _ _ _ hgrows h => ⟨hgrows.hasType h.1, hgrows.isIncomplete_get h.1 h.2⟩
    have hcompleted : Sound t₅ (t₅.incomplete.forM (complete n [])) fun _ t =>
        ∀ id ∈ t₅.incomplete, t.HasType id ∧ (t.get id).isIncomplete = false :=
      .forM hlasting fun id hid t ht => ((allSound n).complete t [] id).post fun _ _ h _ hknown =>
        ⟨h.hasType (ht.hasType (Table.hasType_of_isIncomplete_get (Table.mem_incomplete.1 hid))), hknown rfl⟩
    obtain ⟨hleads, hknown⟩ := hcompleted t₅ (.refl _) hleads₅.wf a t₆ hrun
    exact ⟨hleads₅.trans hleads, hleads.methodSetsKnown_of_forall fun _ id hid => (hknown id hid).2,
      hleads.instancesFilled hfilled⟩
  have hstart := hwf.setDeferring false
  obtain ⟨hleads, hknown⟩ := hrest _ (.refl _) hstart.wf () t' hrun
  exact ⟨hstart.trans hleads.toFollows, hknown⟩

end Expansion

/-! ## With the bound of the table -/

namespace Build

theorem sound_run [Inhabited α] {x : Nat → Expansion α} {Q : α → Table → Prop}
    (hx : ∀ n, Expansion.Sound t₀ (x n) Q) (hdefault : ∀ t, t₀.Grows t → t.WF → Q default t) :
    Sound t₀ (Expansion.run x) Q := by
  intro t ht hwf
  have hrun : (Expansion.run x).run t = (StateT.run (x t.expansionBound) t).getD (default, t) := rfl
  rw [hrun]
  cases hresult : StateT.run (x t.expansionBound) t with
  | none => exact ⟨.refl hwf, hdefault t ht hwf⟩
  | some r => exact hx _ t ht hwf r.1 r.2 hresult

theorem sound_instantiate (origin : TypeId) {args : List TypeId} (hargs : ∀ a ∈ args, t₀.HasType a) :
    Sound t₀ (instantiate origin args) fun id t => t.HasType id :=
  sound_run (fun n => (Expansion.allSound n).instantiate t₀ origin args 0 hargs) fun _ _ hwf => hwf.hasType_invalid

theorem sound_subst {id : TypeId} {map : Subst} (hid : t₀.HasType id) (hmap : ∀ p ∈ map, t₀.HasType p.2) :
    Sound t₀ (subst id map) fun id t => t.HasType id := by
  unfold subst
  split
  · exact .pure fun _ ht _ => ht.hasType hid
  · exact sound_run (fun n => (Expansion.allSound n).subst t₀ map 0 id hmap hid) fun _ _ hwf => hwf.hasType_invalid

theorem sound_interface {explicit : List FuncId} {embedded : List TypeId} (hexplicit : ∀ m ∈ explicit, t₀.HasMethod m)
    (hembedded : ∀ e ∈ embedded, t₀.HasType e) : Sound t₀ (interface explicit embedded) fun id t => t.HasType id :=
  sound_run (fun n => (Expansion.allSound n).newInterface t₀ explicit embedded hexplicit hembedded)
    fun _ _ hwf => hwf.hasType_invalid

theorem follows_beginDeclarations {t : Table} (hwf : t.WF) :
    t.Follows (beginDeclarations.run t).2 ∧ (t.MethodSetsKnown → (beginDeclarations.run t).2.MethodSetsKnown) ∧
      (t.InstancesFilled → (beginDeclarations.run t).2.InstancesFilled) :=
  ⟨hwf.setDeferring true, fun _ => nofun, fun _ => nofun⟩

theorem follows_endDeclarations (order : List TypeId) {t : Table} (hwf : t.WF) :
    t.Follows ((endDeclarations order).run t).2 ∧
      (t.MethodSetsKnown → ((endDeclarations order).run t).2.MethodSetsKnown) ∧
      (t.InstancesFilled → ((endDeclarations order).run t).2.InstancesFilled) := by
  have hrun : (endDeclarations order).run t =
      (StateT.run (Expansion.endDeclarations t.expansionBound order) t).getD (default, t) := rfl
  rw [hrun]
  cases hresult : StateT.run (Expansion.endDeclarations t.expansionBound order) t with
  | none => exact ⟨(Table.Leads.refl hwf).toFollows, id, id⟩
  | some r =>
    obtain ⟨hfollows, hknown, hfilled⟩ := Expansion.follows_endDeclarations _ order hwf hresult
    exact ⟨hfollows, fun _ => hknown, fun _ => hfilled⟩

end Build

end UnusedMethods.Types
