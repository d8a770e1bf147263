import UnusedMethods.Proofs.BodyRules
import UnusedMethods.Proofs.Checking

/-!
# Checking keeps everything well formed

Soundness is a logic: every step keeps table and notes well formed, leads to types of the table, and depends on nothing
that similar notes differ in. So what holds in every logic is known to be sound. What is needed of the syntax is that the
names of methods in it are among those that declare functions in the current file.
-/

namespace UnusedMethods

/-! ## Types that stand for themselves -/

/-- The types and functions of a table stand for themselves. -/
def Types.Table.own (t : Types.Table) : Types.Correspondence where
  types a b := t.HasType a ∧ a = b
  funcs f g := t.HasFunc f ∧ f = g
  base := .predeclared

namespace Types

namespace Table

variable {t t' : Table}

theorem own_grows (h : t.Grows t') : t.own.Grows t'.own where
  types := fun ⟨ha, hab⟩ => ⟨h.hasType ha, hab⟩
  funcs := fun ⟨hf, hfg⟩ => ⟨h.hasFunc hf, hfg⟩
  base := rfl

theorem own_same : t.own.Grows (.same .predeclared) := ⟨And.right, And.right, rfl⟩

/-- In a well-formed table there is all that is asked for. -/
theorem WF.answers (hwf : t.WF) : t.own.Answers t t := by
  refine Correspondence.Reads.answers ⟨?_, ?_, ?_, fun hid => ⟨hwf.hasType_of_lt hid, rfl⟩⟩
  · exact ⟨fun _ _ _ h h' => h.2.trans h'.2.symm, fun _ _ _ h h' => h.2.symm.trans h'.2⟩
  · rintro id _ ⟨-, rfl⟩
    exact Ty.alike_self (fun _ hc => ⟨hwf.hasType_part id hc, rfl⟩) (fun _ hc => ⟨hwf.hasType_filledIn id hc, rfl⟩)
      fun _ hf => ⟨hwf.hasFunc id hf, rfl⟩
  · rintro f _ ⟨-, rfl⟩
    exact Func.alike_self (fun c hc => ⟨(hwf.func f).parts c hc, rfl⟩) fun o ho => ⟨((hwf.func f).origin o ho).1, rfl⟩

theorem own_typeList {as bs : List TypeId} (h : List.Forall₂ t.own.types as bs) : (∀ a ∈ as, t.HasType a) ∧ as = bs :=
  ⟨fun a ha => by obtain ⟨_, -, hab⟩ := exists_of_mem_left h ha; exact hab.1, eq_of_forall₂ (fun _ _ => And.right) h⟩

end Table

theorem Ty.settled_of_isPlain {ty : Ty} (h : ty.isPlain = true) : ty.filledIn = [] ∧ ty.funcs = [] ∧ ty.isSettled = true := by
  cases ty with
  | array | map | chan | signature | struct | tuple | union => exact ⟨rfl, rfl, rfl⟩
  | _ => cases h

theorem Func.Alike.wf {t : Table} {f g : Func} (h : f.Alike t.own g) (hkind : f.kind = .interfaceMethod)
    (horigin : f.origin = none) : f.WF t := by
  refine ⟨fun c hc => ?_, fun o ho => absurd (horigin.symm.trans ho) nofun⟩
  rw [Func.parts, hkind, List.append_nil] at hc
  rcases List.mem_cons.1 hc with rfl | hc
  · exact h.sig.1
  · exact (Table.own_typeList h.typeParams).1 c hc

end Types

namespace Typing

open Syntax UnusedMethods.Types Checking

section Objects

variable {t : Table}

theorem Object.Alike.wf {x y : Object} (h : x.Alike t.own y) : x.WF t := by
  cases h with
  | var h => exact h.1
  | const h => exact h.1
  | typeName h => exact h.1
  | func h => exact h.1
  | _ => trivial

theorem Object.WF.alike {x : Object} (h : x.WF t) : x.Alike t.own x := by
  cases x with
  | var a => exact .var ⟨h, rfl⟩
  | const a => exact .const ⟨h, rfl⟩
  | typeName a => exact .typeName ⟨h, rfl⟩
  | func f => exact .func ⟨h, rfl⟩
  | package id => exact .package id
  | builtin b => exact .builtin b
  | nil => exact .nil

theorem rel_objects {o : Option Object} (h : ∀ x ∈ o, x.WF t) : Option.Rel (Object.Alike t.own) o o := by
  cases o with
  | none => exact .none
  | some x => exact .some (h x rfl).alike

theorem rel_types {o : Option TypeId} (h : ∀ a ∈ o, t.HasType a) : Option.Rel t.own.types o o := by
  cases o with
  | none => exact .none
  | some a => exact .some ⟨h a rfl, rfl⟩

end Objects

/-! ## The logic -/

/-- Steps that start with well-formed tables and notes lead to such. -/
def soundness (plan : Plan) : Logic where
  World := Table
  corr := Table.own
  Later := Table.Grows
  refl := .refl
  trans := .trans
  grows := Table.own_grows
  declares c x := plan.declares c.file.index x
  records _ := True
  denotes := plan.denotes
  methods t f g := t.HasMethod f ∧ f = g
  methods_later h hfg := ⟨h.hasMethod hfg.1, hfg.2⟩
  Holds _ t₀ c _ _ x y Q := SoundTogether plan c t₀ x y Q
  weaken h hgrows := fun n n' t ht => h n n' t (hgrows.trans ht)
  pure h := fun _ _ t ht hwf _ hn hsim => ⟨.refl hwf, hn.refl, rfl, hsim, h t ht⟩
  bind hxy hfg := hxy.bind fun t a b ht _ hab => hfg t a b ht hab
  given h := fun n n' t ht hwf hc hn hsim => h t t t ht hwf.answers n n' t (.refl t) hwf hc hn hsim
  readTable h := fun n n' t ht hwf hc hn hsim => h t t t ht hwf.answers n n' t (.refl t) hwf hc hn hsim
  readContext h := h
  noteType _ h := by
    obtain ⟨ha, rfl⟩ := h
    exact (Sound.noteType ha).together fun _ _ => id
  noteUse _ h := by
    obtain rfl := (h.mono Table.own_same).eq
    exact (Sound.noteUse h.wf).together fun _ _ => id
  noteSelection _ h hfield := by
    obtain rfl := (h.mono Table.own_same).eq
    refine (Sound.noteSelection ⟨h.recv.1, fun m hm => ⟨?_, hfield (by rw [hm]; rfl)⟩, h.type.1⟩).together fun _ _ => id
    have hmethod := h.method
    rw [hm] at hmethod
    cases hmethod with
    | some hm => exact hm.1
  noteDef _ h hfunc := by
    obtain rfl := (h.mono Table.own_same).eq
    exact (Sound.noteDef h.wf fun f hf => absurd hf (hfunc f)).together fun _ _ => id
  useOf? _ := Sound.useOf?.together fun _ _ => rel_objects
  knownTypes := Sound.knownTypes.together fun f t hf id => rel_types (hf id)
  inScope h := h.inScope
  defineLocal _ h := by
    obtain rfl := (h.mono Table.own_same).eq
    exact (Sound.defineLocal h.wf).together fun _ _ => id
  definePackageLevel hname h := by
    obtain rfl := (h.mono Table.own_same).eq
    exact (Sound.definePackageLevel h.wf hname).together fun _ _ => id
  lookup _ := Sound.lookup.together fun _ _ => rel_objects
  innermost? _ := Sound.innermost?.together fun _ _ => rel_objects
  packageLevel? _ := Sound.packageLevel?.together fun _ _ => rel_objects
  member _ _ := Sound.member.together fun _ _ => rel_objects
  push h hplain := by
    obtain rfl := (h.mono Table.own_same).eq_of_isPlain hplain
    obtain ⟨hfilled, hfuncs, hsettled⟩ := Ty.settled_of_isPlain hplain
    refine (Sound.lift (Build.sound_push (Table.own_typeList h.parts).1 ?_ ?_ hsettled)).together fun _ _ ha => ⟨ha, rfl⟩
    · simp [hfilled]
    · simp [hfuncs]
  pointer h := by
    obtain ⟨ha, rfl⟩ := h
    exact (Sound.lift (Build.sound_pointer ha)).together fun _ _ ha => ⟨ha, rfl⟩
  slice h := by
    obtain ⟨ha, rfl⟩ := h
    exact (Sound.lift (Build.sound_slice ha)).together fun _ _ ha => ⟨ha, rfl⟩
  interface hmethods hembedded := by
    obtain ⟨hhas, rfl⟩ := Table.own_typeList hembedded
    obtain rfl := eq_of_forall₂ (fun _ _ => And.right) hmethods
    refine (Sound.lift (Build.sound_interface (fun m hm => ?_) hhas)).together fun _ _ ha => ⟨ha, rfl⟩
    exact (List.forall₂_same.1 hmethods m hm).1
  instantiate h hargs := by
    obtain ⟨hhas, rfl⟩ := Table.own_typeList hargs
    obtain ⟨-, rfl⟩ := h
    exact (Sound.lift (Build.sound_instantiate _ hhas)).together fun _ _ ha => ⟨ha, rfl⟩
  subst hmap h := by
    obtain rfl := eq_of_forall₂ (fun _ _ hpq => Prod.ext hpq.1.2 hpq.2.2) hmap
    obtain ⟨ha, rfl⟩ := h
    refine (Sound.lift (Build.sound_subst ha fun p hp => ?_)).together fun _ _ ha => ⟨ha, rfl⟩
    exact (List.forall₂_same.1 hmap p hp).2.1
  newMethod {_ t₀ _ _ _ f _ name _ _ _} h hkind horigin hname hdeclares _ hrest := by
    obtain rfl := (h.mono Table.own_same).eq
    have hf : f.WF t₀ := h.wf hkind horigin
    refine (Sound.lift (Build.sound_newFunc hf)).self.bind fun t a b ht hwf hab => ?_
    obtain ⟨⟨ha, hfunc⟩, rfl⟩ := hab
    have hobj : (Object.func a).WF t := ha
    refine (Sound.noteDef hobj fun g hg => ⟨name, hdeclares, rfl, ?_⟩).self.bind fun t' _ _ ht' _ _ => ?_
    · cases hg
      rw [hfunc, hname]
    · exact hrest t' _ _ (ht.trans ht') ⟨ht'.hasMethod ⟨ha, by rw [hfunc, hkind]⟩, rfl⟩
  newNamed {_ t₀ c _ _ _ _ _ _ _} hrest := by
    intro n n' t ht hwf hc hn hsim
    have hpush (name : String) (package : Option String) :
        Build.Sound t (Build.newNamed name package) fun id t' => t'.HasType id ∧ ¬ t.HasType id :=
      Build.sound_newNamed name package
    refine (Sound.lift (hpush _ _)).self.bind (fun t' a b ht' hwf' hab => ?_) n n' t (.refl t) hwf hc hn hsim
    obtain ⟨⟨ha, hnew⟩, rfl⟩ := hab
    refine hrest t' a a (ht.trans ht') ⟨ha, rfl⟩ fun {_ t₂ a' _} _ ha' => ?_
    obtain ⟨ha', rfl⟩ := ha'
    -- the type is new, so it is not settled
    exact (Sound.changeNamed (fun h => hnew (hn.settled _ h)) (fun t ht hwf => hwf.setRhs (ht.hasType ha')) fun _ => ⟨rfl, rfl⟩).together fun _ _ => id

/-! ## What is sound -/

section

variable {plan : Plan} {c : Context} {t₀ : Table}

theorem hasType_of_rel {t : Table} {o o' : Option TypeId} (h : Option.Rel t.own.types o o') :
    (∀ id ∈ o, t.HasType id) ∧ o = o' := by
  cases h with
  | none => exact ⟨nofun, rfl⟩
  | some h =>
    obtain ⟨ha, rfl⟩ := h
    exact ⟨fun id hid => by cases hid; exact ha, rfl⟩

/-- What is judged of a step is what soundness says, if results that belong together are the same. -/
theorem sound_of_holds {α : Type} {x : Checking α} {P : α → Table → Prop} {Q : Table → α → α → Prop}
    (h : (soundness plan).Holds none t₀ c x x Q) (hQ : ∀ t a b, Q t a b → P a t ∧ a = b) : Sound plan c t₀ x P :=
  SoundTogether.sound h hQ

theorem sound_of_done {m : Option Level} {x : Checking Unit} (h : (soundness plan).Holds m t₀ c x x fun _ _ _ => True) :
    Sound plan c t₀ x fun _ _ => True :=
  SoundTogether.sound (Q := fun _ _ _ => True) h fun _ _ _ _ => ⟨trivial, rfl⟩

theorem soundness_covers {names : List Ident} (h : ∀ x ∈ names, plan.declares c.file.index x) (places : List Pos) :
    (soundness plan).Covers c names places := ⟨h, fun _ _ => trivial⟩

theorem sound_resolveType (e : TypeExpr) (h : ∀ x ∈ e.funcNames, plan.declares c.file.index x) :
    Sound plan c t₀ (resolveType e) fun id t => t.HasType id :=
  sound_of_holds (holds_resolveType e (soundness_covers h _).notes) fun _ _ _ => id

theorem sound_resolveTypes (es : List TypeExpr) (h : ∀ x ∈ TypeExpr.funcNamesAll es, plan.declares c.file.index x) :
    Sound plan c t₀ (resolveTypes es) fun ids t => ∀ id ∈ ids, t.HasType id :=
  sound_of_holds (holds_resolveTypes es (soundness_covers h _).notes) fun _ _ _ => Table.own_typeList

theorem sound_resolveSignature (sig : FuncType) (h : ∀ x ∈ sig.funcNames, plan.declares c.file.index x) :
    Sound plan c t₀ (resolveSignature sig) fun id t => t.HasType id :=
  sound_of_holds (holds_resolveSignature sig (soundness_covers h _).notes) fun _ _ _ => id

theorem sound_resolveMethods (ms : List MethodSpec)
    (h : ∀ x ∈ MethodSpec.funcNamesAll ms, plan.declares c.file.index x) :
    Sound plan c t₀ (resolveMethods ms) fun ids t => ∀ id ∈ ids, t.HasMethod id := by
  refine sound_of_holds (holds_resolveMethods ms (soundness_covers h _).notes) fun t fs gs hfs => ?_
  obtain rfl := eq_of_forall₂ (fun _ _ => And.right) hfs
  exact ⟨fun f hf => (List.forall₂_same.1 hfs f hf).1, rfl⟩

/-- Nothing is recorded about an expression that is read as a type. -/
theorem sound_typeDenoted? (e : Expr) (h : ∀ x ∈ e.funcNames, plan.declares c.file.index x) :
    Sound plan c t₀ (typeDenoted? e) fun o t => ∀ id ∈ o, t.HasType id :=
  sound_of_holds (holds_typeDenoted? e (soundness_covers h _)) fun _ _ _ => hasType_of_rel

theorem sound_bindTypeParams (idents : List Ident) {params : List TypeId} (hparams : ∀ p ∈ params, t₀.HasType p) :
    Sound plan c t₀ (bindTypeParams idents params) fun _ _ => True :=
  sound_of_done (holds_bindTypeParams idents (List.forall₂_same.2 fun p hp => ⟨hparams p hp, rfl⟩))

theorem sound_checkExprs (es : List Expr) {hint : Option TypeId}
    (h : ∀ x ∈ Expr.funcNamesAll es, plan.declares c.file.index x) (hhint : ∀ id ∈ hint, t₀.HasType id) :
    Sound plan c t₀ (checkExprs hint es) fun ids t => ∀ id ∈ ids, t.HasType id :=
  sound_of_holds (holds_checkExprs es (rel_types hhint) (soundness_covers h _)) fun _ _ _ => Table.own_typeList

theorem sound_checkVarSpec (level : Level) (s : ValueSpec) (h : ∀ x ∈ s.funcNames, plan.declares c.file.index x)
    (hplan : ∀ x ∈ s.names, ∀ id, plan.Allows level x (.var id)) :
    Sound plan c t₀ (checkVarSpec level s) fun _ _ => True :=
  sound_of_done (holds_checkVarSpec level s (soundness_covers h _) hplan)

theorem sound_checkConstSpecs (level : Level) (ss : List ValueSpec)
    (h : ∀ x ∈ ValueSpec.funcNamesAll ss, plan.declares c.file.index x)
    (hplan : ∀ s ∈ ss, ∀ x ∈ s.names, ∀ id, plan.Allows level x (.const id)) :
    Sound plan c t₀ (checkConstSpecs level none ss) fun _ _ => True :=
  sound_of_done (holds_checkConstSpecs level ss (soundness_covers h _) (by simp) hplan)

theorem sound_receiver? (type : TypeExpr) :
    Sound plan c t₀ (receiver? type) fun o t => ∀ r ∈ o, t.HasType r.owner := by
  refine sound_of_holds (holds_receiver? type) fun t o o' h => ?_
  cases h with
  | none => exact ⟨nofun, rfl⟩
  | @some r r' h =>
    cases r
    cases r'
    obtain ⟨howner, hsame⟩ := h.owner
    cases hsame
    cases h.isPointer
    cases h.typeParams
    exact ⟨fun r hr => by cases hr; exact howner, rfl⟩

end

end Typing

end UnusedMethods
