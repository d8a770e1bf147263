import UnusedMethods.Proofs.InStep
import UnusedMethods.Proofs.Satisfaction

/-!
# Method sets that are composed of others

When the declarations of a package end, the method set of each interface is put together from its own methods and the
method sets of what it embeds. An instance that is embedded is filled in on the way, and this may complete other interfaces
while the first is half done; these take over what there is of it, and keep that. So a method set need not be composed of
those that are there in the end.

It is, if only declared types are embedded, directly and by way of the interfaces that are embedded: nothing has to be
filled in then.
-/

namespace UnusedMethods.Types

/-! ## Inherited methods -/

/-- The methods of a type, and whether it has terms, for an interface that embeds it. -/
def Ty.offers : Ty → List FuncId × Bool
  | .interface i => (i.methodList, i.hasTerms)
  | .invalid => ([], false)
  | _ => ([], true)

/-- What a declared type or a type parameter is said to be. -/
def Ty.next? : Ty → Option TypeId
  | .named n => some n.rhs
  | .typeParam p => some p.constraint
  | _ => none

/-- Neither an instance nor a type parameter. -/
def Ty.isDeclared (ty : Ty) : Bool := !ty.isInstance && !ty.isTypeParam

/-- What stays of a type while declarations end. -/
def Ty.Since : Ty → Ty → Prop
  | .named n, ty => ∃ n', ty = .named n' ∧ n'.origin = n.origin ∧ (n.origin = none → n'.rhs = n.rhs)
  | .interface i, ty => ∃ j, ty = .interface j ∧ j.explicit = i.explicit ∧ j.embedded = i.embedded ∧
      (i.complete = true ∨ j.complete = false → j = i)
  | ty, ty' => ty' = ty

namespace Table

variable {d t t' : Table}

theorem inheritMethods_append (t : Table) (methods xs ys : List FuncId) :
    t.inheritMethods methods (xs ++ ys) = t.inheritMethods (t.inheritMethods methods xs) ys := List.foldl_append ..

theorem mem_inheritMethods_iff {methods inherited : List FuncId} {m : FuncId} :
    m ∈ t.inheritMethods methods inherited ↔ m ∈ methods ∨
      (∀ e ∈ methods, (t.func e).name ≠ (t.func m).name) ∧ t.funcNamed? (t.func m).name inherited = some m := by
  induction inherited generalizing methods with
  | nil => simp [inheritMethods, funcNamed?]
  | cons f fs ih =>
    have hstep : t.inheritMethods methods (f :: fs) = t.inheritMethods
        (if methods.any (fun e => (t.func e).name = (t.func f).name) then methods else methods ++ [f]) fs := rfl
    rw [hstep, ih]
    by_cases hany : methods.any (fun e => (t.func e).name = (t.func f).name) = true
    · obtain ⟨e, he, hname⟩ := List.any_eq_true.1 hany
      rw [if_pos hany]
      refine or_congr_right (and_congr_right fun hnone => ?_)
      have hne : (t.func f).name ≠ (t.func m).name := fun heq => hnone e he ((of_decide_eq_true hname).trans heq)
      simp [funcNamed?, hne]
    · have hnone : ∀ e ∈ methods, (t.func e).name ≠ (t.func f).name := by simpa using hany
      rw [if_neg hany]
      by_cases hname : (t.func f).name = (t.func m).name
      · simp only [funcNamed?, List.find?_cons_of_pos, hname, decide_true, List.mem_append, List.mem_singleton,
          Option.some.injEq]
        constructor
        · rintro ((hm | rfl) | ⟨hall, -⟩)
          · exact .inl hm
          · exact .inr ⟨hnone, rfl⟩
          · exact absurd hname (hall f (by simp))
        · rintro (hm | ⟨-, rfl⟩)
          · exact .inl (.inl hm)
          · exact .inl (.inr rfl)
      · have hne : m ≠ f := fun heq => hname (by rw [heq])
        simp [funcNamed?, hname, hne, or_imp, forall_and]

theorem nodup_inheritMethods {methods inherited : List FuncId} (h : (methods.map fun m => (t.func m).name).Nodup) :
    ((t.inheritMethods methods inherited).map fun m => (t.func m).name).Nodup := by
  unfold inheritMethods
  refine List.foldlRecOn (motive := fun ms : List FuncId => (ms.map fun m => (t.func m).name).Nodup) inherited _ h ?_
  intro ms hms f _
  split
  · exact hms
  · rename_i hnone
    rw [List.map_append, List.nodup_append]
    refine ⟨hms, by simp, ?_⟩
    rintro _ hx _ hy rfl
    obtain ⟨e, he, hname⟩ := List.mem_map.1 hx
    have hy : (t.func e).name = (t.func f).name := by simpa [hname] using hy
    exact hnone (List.any_eq_true.2 ⟨e, he, decide_eq_true hy⟩)

theorem inheritMethods_congr {methods inherited : List FuncId}
    (h : ∀ m ∈ methods ++ inherited, (t'.func m).name = (t.func m).name) :
    t'.inheritMethods methods inherited = t.inheritMethods methods inherited := by
  induction inherited generalizing methods with
  | nil => rfl
  | cons f fs ih =>
    have hany : methods.any (fun e => (t'.func e).name = (t'.func f).name) =
        methods.any (fun e => (t.func e).name = (t.func f).name) := by
      rw [h f (by simp), Bool.eq_iff_iff, List.any_eq_true, List.any_eq_true]
      exact exists_congr fun e => and_congr_right fun he => by rw [h e (by simp [he])]
    show t'.inheritMethods (if _ then _ else _) fs = t.inheritMethods (if _ then _ else _) fs
    rw [hany]
    refine ih fun m hm => h m ?_
    split at hm <;> simp_all
    tauto

theorem sortMethods_congr {methods : List FuncId} (h : ∀ m ∈ methods, (t'.func m).name = (t.func m).name) :
    t'.sortMethods methods = t.sortMethods methods := by
  have hsame : List.Forall₂ (fun x y => x = y ∧ x ∈ methods) methods methods := List.forall₂_same.2 fun _ hm => ⟨rfl, hm⟩
  have hsorted : List.Forall₂ (fun x y => x = y ∧ x ∈ methods) (t'.sortMethods methods) (t.sortMethods methods) := by
    refine Correspondence.Between.mergeSort_rel ?_ hsame
    rintro x _ y _ ⟨rfl, hx⟩ ⟨rfl, hy⟩
    rw [h x hx, h y hy]
  exact List.forall₂_eq_eq_eq ▸ hsorted.imp fun _ _ hxy => hxy.1

/-! ## Plain interfaces -/

/-- Whether a type is what its declaration says: neither it nor what it is declared to be is an instance. -/
def isDeclaredWithin (t : Table) : Nat → TypeId → Bool
  | 0, _ => false
  | n + 1, id => (t.get id).isDeclared && (t.get id).next?.all (t.isDeclaredWithin n)

/-- An incomplete interface embeds another one, under whatever name. -/
def Embeds (t : Table) (id inner : TypeId) : Prop :=
  (∃ i, t.get id = .interface i ∧ i.complete = false ∧ ∃ e ∈ i.embedded, t.underlying e = inner) ∧
    (t.get inner).isInterface = true

/-- An interface that embeds declared types only, directly and by way of those that it embeds. -/
inductive Plain (t : Table) : TypeId → Prop
  | intro {id : TypeId} {i : Interface} (hget : t.get id = .interface i)
      (hdeclared : i.complete = false → ∀ e ∈ i.embedded, t.isDeclaredWithin 100 e = true)
      (hbelow : ∀ inner, t.Embeds id inner → t.Plain inner) : t.Plain id

namespace Plain

variable {id inner : TypeId}

theorem get (h : t.Plain id) : ∃ i, t.get id = .interface i := by
  obtain ⟨hget, -, -⟩ := h
  exact ⟨_, hget⟩

theorem hasType (h : t.Plain id) : t.HasType id := by
  obtain ⟨i, hget⟩ := h.get
  exact hasType_of_get_ne_invalid (by rw [hget]; exact nofun)

theorem declared (h : t.Plain id) {i : Interface} (hget : t.get id = .interface i) (hopen : i.complete = false) :
    ∀ e ∈ i.embedded, t.isDeclaredWithin 100 e = true := by
  obtain ⟨hget', hdeclared, -⟩ := h
  cases hget.symm.trans hget'
  exact hdeclared hopen

theorem of_below (h : t.Plain id) (hinner : Relation.TransGen t.Embeds id inner) : t.Plain inner := by
  induction hinner with
  | single hembeds =>
    obtain ⟨-, -, hbelow⟩ := h
    exact hbelow _ hembeds
  | tail _ hembeds ih =>
    obtain ⟨-, -, hbelow⟩ := ih
    exact hbelow _ hembeds

theorem not_below_itself (h : t.Plain id) : ¬ Relation.TransGen t.Embeds id id := by
  induction h with
  | intro _ _ _ ih =>
    intro hcircle
    obtain ⟨inner, hembeds, hback⟩ := Relation.TransGen.head'_iff.1 hcircle
    exact ih inner hembeds (.tail' hback hembeds)

end Plain

theorem underlyingWithin_succ (t : Table) (n : Nat) (id : TypeId) :
    t.underlyingWithin (n + 1) id = (t.get id).next?.elim id (t.underlyingWithin n) := by
  rw [underlyingWithin]
  cases t.get id <;> rfl

theorem underlyingWithin_of_declared (hd : d.WF)
    (h : ∀ id, d.HasType id → (d.get id).isDeclared = true → (t.get id).next? = (d.get id).next?) {n : Nat} {id : TypeId}
    (hid : d.HasType id) (hdeclared : d.isDeclaredWithin n id = true) :
    t.underlyingWithin n id = d.underlyingWithin n id ∧ d.HasType (d.underlyingWithin n id) ∧
      (d.get (d.underlyingWithin n id)).next? = none := by
  induction n generalizing id with
  | zero => cases hdeclared
  | succ n ih =>
    obtain ⟨hhere, hnext⟩ := Bool.and_eq_true_iff.1 hdeclared
    rw [underlyingWithin_succ, underlyingWithin_succ, h id hid hhere]
    cases heq : (d.get id).next? with
    | none => exact ⟨rfl, hid, heq⟩
    | some next =>
      rw [heq] at hnext
      refine ih (hd.hasType_filledIn id ?_) hnext
      cases hget : d.get id <;> rw [hget] at heq <;> cases heq <;> simp [Ty.filledIn]

/-! ## Composed method sets -/

/-- What each embedded type has for the interface. Which types they are is seen in `d`. -/
def offered (d t : Table) (embedded : List TypeId) : List (List FuncId × Bool) :=
  embedded.map fun e => (t.get (d.underlying e)).offers

/-- The methods of an interface, before they are sorted, and whether it has terms: its own methods and what the embedded
types have. -/
structure Gathers (d t : Table) (explicit : List FuncId) (embedded : List TypeId) (methods : List FuncId)
    (hasTerms : Bool) : Prop where
  known : ∀ e ∈ embedded, (t.get (d.underlying e)).isIncomplete = false
  methods_eq : methods = d.inheritMethods explicit ((d.offered t embedded).flatMap (·.1))
  hasTerms_eq : hasTerms = (d.offered t embedded).any (·.2)
  funcs : ∀ m ∈ methods, d.HasFunc m

namespace Gathers

variable {explicit methods : List FuncId} {embedded : List TypeId} {hasTerms : Bool}

theorem of_same (h : d.Gathers t explicit embedded methods hasTerms)
    (hsame : ∀ e ∈ embedded, t'.get (d.underlying e) = t.get (d.underlying e)) :
    d.Gathers t' explicit embedded methods hasTerms := by
  have hoffered : d.offered t' embedded = d.offered t embedded := List.map_congr_left fun e he => by rw [hsame e he]
  refine ⟨fun e he => ?_, ?_, ?_, h.funcs⟩
  · rw [hsame e he]
    exact h.known e he
  · rw [hoffered, ← h.methods_eq]
  · rw [hoffered, ← h.hasTerms_eq]

theorem snoc (h : d.Gathers t explicit embedded methods hasTerms) {e : TypeId} {more : List FuncId} {terms : Bool}
    (hknown : (t.get (d.underlying e)).isIncomplete = false) (hoffers : (t.get (d.underlying e)).offers = (more, terms))
    (hfuncs : ∀ m ∈ more, d.HasFunc m) :
    d.Gathers t explicit (embedded ++ [e]) (d.inheritMethods methods more) (hasTerms || terms) := by
  have hoffered : d.offered t (embedded ++ [e]) = d.offered t embedded ++ [(more, terms)] := by
    simp [offered, hoffers]
  refine ⟨fun e' he' => ?_, ?_, ?_, fun m hm => ?_⟩
  · rcases List.mem_append.1 he' with he' | he'
    · exact h.known e' he'
    · rwa [List.mem_singleton.1 he']
  · rw [hoffered, List.flatMap_append, inheritMethods_append, ← h.methods_eq]
    simp
  · rw [hoffered, List.any_append, ← h.hasTerms_eq]
    simp
  · rcases Expansion.mem_inheritMethods hm with hm | hm
    · exact h.funcs m hm
    · exact hfuncs m hm

end Gathers

/-- A table on the way from `d`, in which declarations have been read, to the end of the declarations. Plain interfaces that
have been completed since then are composed of what they embed. -/
structure Since (d t : Table) : Prop where
  types : d.types.size ≤ t.types.size
  funcs : d.funcs.size ≤ t.funcs.size
  func : ∀ m, d.HasFunc m → t.func m = d.func m
  get : ∀ id, d.HasType id → (d.get id).Since (t.get id)
  composed : ∀ id i, d.Plain id → (d.get id).isIncomplete = true → t.get id = .interface i → i.complete = true →
    ∃ methods, d.Gathers t i.explicit i.embedded methods i.hasTerms ∧ i.methods = d.sortMethods methods

/-- One step on this way. Method sets of plain interfaces that are known stay as they are. -/
structure Carries (d t t' : Table) : Prop where
  since : d.Since t'
  stays : ∀ id, d.Plain id → (t.get id).isIncomplete = false → t'.get id = t.get id

theorem Carries.trans {t'' : Table} (h : d.Carries t t') (h' : d.Carries t' t'') : d.Carries t t'' where
  since := h'.since
  stays id hplain hknown := by
    have hget := h.stays id hplain hknown
    rw [h'.stays id hplain (by rw [hget, hknown]), hget]

namespace Since

variable {id : TypeId} {i : Interface}

theorem refl (d : Table) : d.Since d where
  types := Nat.le_refl _
  funcs := Nat.le_refl _
  func _ _ := rfl
  get id _ := by cases d.get id <;> simp [Ty.Since]
  composed id i _ hopen hget hcomplete := by simp [hget, Ty.isIncomplete, hcomplete] at hopen

theorem carries_refl (h : d.Since t) : d.Carries t t := ⟨h, fun _ _ _ => rfl⟩

theorem isInterface (h : d.Since t) (hid : d.HasType id) : (t.get id).isInterface = (d.get id).isInterface := by
  have hsince := h.get id hid
  cases hget : d.get id <;> rw [hget] at hsince
  case named =>
    obtain ⟨n', hget', -⟩ := hsince
    rw [hget']
    rfl
  case interface =>
    obtain ⟨j, hget', -⟩ := hsince
    rw [hget']
    rfl
  all_goals rw [hsince]

theorem next (h : d.Since t) (hid : d.HasType id) (hdeclared : (d.get id).isDeclared = true) :
    (t.get id).next? = (d.get id).next? := by
  have hsince := h.get id hid
  cases hget : d.get id with
  | named n =>
    rw [hget] at hsince hdeclared
    obtain ⟨n', hget', -, hrhs⟩ := hsince
    rw [hget', Ty.next?, Ty.next?, hrhs (by simpa [Ty.isDeclared, Ty.isInstance, Ty.isTypeParam] using hdeclared)]
  | interface i =>
    rw [hget] at hsince
    obtain ⟨j, hget', -⟩ := hsince
    rw [hget']
    rfl
  | _ => rw [hget] at hsince; rw [hsince]

theorem interface (h : d.Since t) (hget : d.get id = .interface i) : ∃ j, t.get id = .interface j ∧
    j.explicit = i.explicit ∧ j.embedded = i.embedded ∧ (i.complete = true ∨ j.complete = false → j = i) := by
  have hsince := h.get id (hasType_of_get_ne_invalid (by rw [hget]; exact nofun))
  rwa [hget] at hsince

theorem embedded (hd : d.WF) (h : d.Since t) (hplain : d.Plain id) (hopen : (d.get id).isIncomplete = true)
    (hget : t.get id = .interface i) {e : TypeId} (he : e ∈ i.embedded) :
    t.underlying e = d.underlying e ∧ d.HasType (d.underlying e) ∧ (d.get (d.underlying e)).next? = none ∧
      ((d.get (d.underlying e)).isInterface = true → d.Embeds id (d.underlying e)) := by
  obtain ⟨i₀, hi⟩ := hplain.get
  have hopen : i₀.complete = false := by simpa [hi, Ty.isIncomplete] using hopen
  obtain ⟨j, hj, -, hembedded, -⟩ := h.interface hi
  cases hget.symm.trans hj
  rw [hembedded] at he
  obtain ⟨heq, hhas, hnext⟩ := underlyingWithin_of_declared hd (fun id hid hdecl => h.next hid hdecl)
    (hd.hasType_part id (by rw [hi]; exact he)) (hplain.declared hi hopen e he)
  exact ⟨heq, hhas, hnext, fun hinner => ⟨⟨i₀, hi, hopen, e, he, rfl⟩, hinner⟩⟩

/-- Plain interfaces do not change when other things do: new entries, and instances. -/
theorem carries (hd : d.WF) (h : d.Since t) (htypes : t.types.size ≤ t'.types.size) (hfuncs : t.funcs.size ≤ t'.funcs.size)
    (hfunc : ∀ m, d.HasFunc m → t'.func m = t.func m) (hget : ∀ id, d.HasType id →
      t'.get id = t.get id ∨ (d.get id).isInstance = true ∧ (d.get id).Since (t'.get id)) : d.Carries t t' := by
  have hsame : ∀ id, d.HasType id → (d.get id).next? = none → t'.get id = t.get id := by
    intro id hid hnext
    rcases hget id hid with heq | ⟨hinstance, -⟩
    · exact heq
    · cases heq : d.get id <;> simp_all [Ty.next?, Ty.isInstance]
  have hplain : ∀ id, d.Plain id → t'.get id = t.get id := by
    intro id hid
    obtain ⟨i, hi⟩ := hid.get
    exact hsame id hid.hasType (by rw [hi]; rfl)
  refine ⟨⟨h.types.trans htypes, h.funcs.trans hfuncs, fun m hm => (hfunc m hm).trans (h.func m hm), fun id hid => ?_,
    fun id i hid hopen hi hcomplete => ?_⟩, fun id hid _ => hplain id hid⟩
  · rcases hget id hid with heq | ⟨-, hsince⟩
    · rw [heq]
      exact h.get id hid
    · exact hsince
  · rw [hplain id hid] at hi
    obtain ⟨methods, hgathers, hmethods⟩ := h.composed id i hid hopen hi hcomplete
    refine ⟨methods, hgathers.of_same fun e he => ?_, hmethods⟩
    obtain ⟨-, hhas, hnext, -⟩ := h.embedded hd hid hopen hi he
    exact hsame _ hhas hnext

theorem get_embedded (hd : d.WF) (h : d.Since t) (hcarries : d.Carries t t') (hplain : d.Plain id)
    (hopen : (d.get id).isIncomplete = true) (hget : t.get id = .interface i) {e : TypeId} (he : e ∈ i.embedded)
    (hknown : (t.get (d.underlying e)).isIncomplete = false) : t'.get (d.underlying e) = t.get (d.underlying e) := by
  obtain ⟨-, hhas, hnext, hembeds⟩ := h.embedded hd hplain hopen hget he
  have hsince := h.get _ hhas
  have hsince' := hcarries.since.get _ hhas
  cases heq : d.get (d.underlying e) with
  | interface inner => exact hcarries.stays _ (hplain.of_below (.single (hembeds (by rw [heq]; rfl)))) hknown
  | named n => rw [heq] at hnext; cases hnext
  | _ =>
    rw [heq] at hsince hsince'
    rw [hsince, hsince']

theorem hasFunc (hd : d.WF) (h : d.Since t) (hplain : d.Plain id) (hget : t.get id = .interface i)
    (hcomplete : i.complete = true) {m : FuncId} (hm : m ∈ i.methods) : d.HasFunc m := by
  obtain ⟨i₀, hi₀⟩ := hplain.get
  cases hopen : i₀.complete with
  | false =>
    obtain ⟨methods, hgathers, heq⟩ := h.composed id i hplain (by simp [hi₀, Ty.isIncomplete, hopen]) hget hcomplete
    rw [heq, sortMethods, List.mem_mergeSort] at hm
    exact hgathers.funcs m hm
  | true =>
    obtain ⟨j, hj, -, -, hsame⟩ := h.interface hi₀
    cases hget.symm.trans hj
    obtain rfl := hsame (.inl hopen)
    exact hd.hasFunc id (by rw [hi₀]; exact List.mem_append_right _ hm)

/-- An interface is completed with what has been gathered for it. If it was completed in passing before, nothing changes. -/
theorem carries_completed (hd : d.WF) (h : d.Since t) (hopen : (d.get id).isIncomplete = true) (hget : t.get id = .interface i)
    {methods : List FuncId} {hasTerms : Bool} (hgathers : d.Plain id → d.Gathers t i.explicit i.embedded methods hasTerms) :
    d.Carries t (t.modifyInterface id fun i =>
      { i with methods := t.sortMethods methods, complete := true, hasTerms }) := by
  have hid : t.HasType id := hasType_of_get_ne_invalid (by rw [hget]; exact nofun)
  generalize hnew : (t.modifyInterface id fun i => { i with methods := t.sortMethods methods, complete := true, hasTerms }) = t'
  have hother : ∀ id', id' ≠ id → t'.get id' = t.get id' := fun id' hne => hnew ▸ get_modifyType_of_ne hne _
  have hself : t'.get id =
      .interface { i with methods := t.sortMethods methods, complete := true, hasTerms := hasTerms } := by
    rw [← hnew, modifyInterface, get_modifyType_self hid, hget]
  have hsorted : d.Plain id → t.sortMethods methods = d.sortMethods methods := fun hplain =>
    sortMethods_congr fun m hm => by rw [h.func m ((hgathers hplain).funcs m hm)]
  -- what a plain interface was completed with in passing is the same
  have hkept : d.Plain id → (t.get id).isIncomplete = false → t'.get id = t.get id := by
    intro hplain hknown
    have hcomplete : i.complete = true := by simpa [hget, Ty.isIncomplete] using hknown
    obtain ⟨methods', hgathers', heq⟩ := h.composed id i hplain hopen hget hcomplete
    have hmethods : methods = methods' := (hgathers hplain).methods_eq.trans hgathers'.methods_eq.symm
    have hterms : hasTerms = i.hasTerms := (hgathers hplain).hasTerms_eq.trans hgathers'.hasTerms_eq.symm
    rw [hself, hget, hsorted hplain, hmethods, ← heq, hterms, ← hcomplete]
  refine ⟨⟨?_, hnew ▸ h.funcs, fun m hm => hnew ▸ h.func m hm, fun id' hid' => ?_,
    fun id' i' hplain hopen' hi' hcomplete => ?_⟩, fun id' hplain hknown => ?_⟩
  · rw [← hnew]
    simpa [modifyInterface, modifyType] using h.types
  · by_cases heq : id' = id
    · subst heq
      cases hd₀ : d.get id' with
      | interface i₀ =>
        rw [hd₀] at hopen
        obtain ⟨j, hj, hexplicit, hembedded, -⟩ := h.interface hd₀
        cases hget.symm.trans hj
        exact ⟨_, hself, hexplicit, hembedded, fun hdone => by simp_all [Ty.isIncomplete]⟩
      | _ => rw [hd₀] at hopen; cases hopen
    · rw [hother id' heq]
      exact h.get id' hid'
  · by_cases heq : id' = id
    · subst heq
      cases hself.symm.trans hi'
      refine ⟨methods, (hgathers hplain).of_same fun e he => hother _ fun hback => ?_, hsorted hplain⟩
      -- it does not embed itself
      obtain ⟨-, -, -, hembeds⟩ := h.embedded hd hplain hopen hget he
      rw [hback] at hembeds
      obtain ⟨i₀, hi₀⟩ := hplain.get
      exact hplain.not_below_itself (.single (hembeds (by rw [hi₀]; rfl)))
    · rw [hother id' heq] at hi'
      obtain ⟨methods', hgathers', hmethods'⟩ := h.composed id' i' hplain hopen' hi' hcomplete
      refine ⟨methods', hgathers'.of_same fun e he => ?_, hmethods'⟩
      by_cases hinner : d.underlying e = id
      · -- an interface below a complete one was completed before
        obtain ⟨-, -, -, hembeds⟩ := h.embedded hd hplain hopen' hi' he
        have hknown := hgathers'.known e he
        rw [hinner] at hembeds hknown ⊢
        refine hkept (hplain.of_below (.single (hembeds ?_))) hknown
        cases hd₀ : d.get id <;> rw [hd₀] at hopen <;> first | rfl | cases hopen
      · exact hother _ hinner
  · by_cases heq : id' = id
    · subst heq
      exact hkept hplain hknown
    · exact hother id' heq

end Since

end Table

/-! ## Ending declarations -/

namespace Expansion

open Table (Since Carries)

variable {α β : Type} {d t : Table}

/-- On the table, the computation keeps plain interfaces composed, and `Q` holds of its outcome. -/
def CarriesOn (d t : Table) (x : Expansion α) (Q : α → Table → Prop) : Prop :=
  ∀ a t', StateT.run x t = some (a, t') → d.Carries t t' ∧ Q a t'

/-- The computation keeps plain interfaces composed. -/
def Carrying (d : Table) (x : Expansion α) : Prop := ∀ t, d.Since t → CarriesOn d t x fun _ _ => True

namespace CarriesOn

variable {Q : α → Table → Prop} {R : β → Table → Prop}

theorem pure {a : α} (h : d.Since t) (hQ : Q a t) : CarriesOn d t (Pure.pure a) Q := by
  rintro _ _ ⟨⟩
  exact ⟨h.carries_refl, hQ⟩

theorem bind {x : Expansion α} {f : α → Expansion β} (hx : CarriesOn d t x Q)
    (hf : ∀ a t', d.Carries t t' → Q a t' → CarriesOn d t' (f a) R) : CarriesOn d t (x >>= f) R := by
  intro b t₂ hrun
  rw [StateT.run_bind] at hrun
  obtain ⟨⟨a, t₁⟩, hx', hrun⟩ := Option.bind_eq_some_iff.1 hrun
  obtain ⟨hcarries, hQ⟩ := hx a t₁ hx'
  obtain ⟨hcarries', hR⟩ := hf a t₁ hcarries hQ b t₂ hrun
  exact ⟨hcarries.trans hcarries', hR⟩

theorem forIn {I : List α → β → Table → Prop} {f : α → β → Expansion (ForInStep β)} {as : List α}
    (hf : ∀ before a after b t, before ++ a :: after = as → d.Since t → I before b t →
      CarriesOn d t (f a b) fun step t' => ∃ b', step = .yield b' ∧ I (before ++ [a]) b' t')
    {before rest : List α} (hsplit : before ++ rest = as) {b : β} (h : d.Since t) (hI : I before b t) :
    CarriesOn d t (ForIn.forIn rest b f) fun b t' => I as b t' := by
  induction rest generalizing before b t with
  | nil =>
    rw [List.forIn_nil]
    rw [List.append_nil] at hsplit
    exact .pure h (hsplit ▸ hI)
  | cons a rest ih =>
    rw [List.forIn_cons]
    refine .bind (hf before a rest b t hsplit h hI) fun step t₁ hcarries hstep => ?_
    obtain ⟨b', rfl, hI'⟩ := hstep
    exact ih ((List.append_cons before a rest).symm.trans hsplit) hcarries.since hI'

end CarriesOn

theorem CarriesOn.ofTable {f : Table → Expansion α} {Q : α → Table → Prop} (h : CarriesOn d t (f t) Q) :
    CarriesOn d t (get >>= f) Q := h

namespace Carrying

theorem bind {x : Expansion α} {f : α → Expansion β} (hx : Carrying d x) (hf : ∀ a, Carrying d (f a)) :
    Carrying d (x >>= f) := fun t h => (hx t h).bind fun a t' hcarries _ => hf a t' hcarries.since

theorem ofTable {f : Table → Expansion α} (hf : ∀ t, d.Since t → CarriesOn d t (f t) fun _ _ => True) :
    Carrying d (get >>= f) := fun t h => hf t h

theorem change {f : Table → Table} (hf : ∀ t, d.Since t → d.Carries t (f t)) : Carrying d (modify f : Expansion Unit) := by
  rintro t h _ _ ⟨⟩
  exact ⟨hf t h, trivial⟩

theorem push (hd : d.WF) (ty : Ty) : Carrying d (liftM (Build.push ty) : Expansion TypeId) := by
  rintro t h _ _ ⟨⟩
  refine ⟨h.carries hd (by simp) (Nat.le_refl _) (fun _ _ => rfl) fun id hid => .inl ?_, trivial⟩
  rw [Table.get_push, if_neg]
  rintro rfl
  exact absurd h.types (Nat.not_le_of_lt hid)

theorem lasts (hd : d.WF) : Lasts fun _ x => Carrying d x where
  pure _ := fun _ h => .pure h trivial
  bind := bind
  getTable := ofTable fun _ h => .pure h trivial
  push _ := push hd _
  newFunc f := by
    rintro t h _ _ ⟨⟩
    refine ⟨h.carries hd (Nat.le_refl _) (by simp) (fun m hm => ?_) fun _ _ => .inl rfl, trivial⟩
    have hne : m.index ≠ t.funcs.size := Nat.ne_of_lt (Nat.lt_of_lt_of_le hm h.funcs)
    simp [Table.func, Array.getElem?_push, hne]

theorem modifyNamed (hd : d.WF) {inst : TypeId} (hinst : ∀ n, d.get inst = .named n → n.origin.isSome = true)
    {f : Named → Named} (hf : ∀ n, (f n).origin = n.origin) : Carrying d (modify (·.modifyNamed inst f) : Expansion Unit) := by
  refine change fun t h => h.carries hd (by simp [Table.modifyNamed, Table.modifyType]) (Nat.le_refl _) (fun _ _ => rfl)
    fun id hid => ?_
  by_cases heq : id = inst
  · subst heq
    have hsince := h.get id hid
    have hself : (t.modifyNamed id f).get id = _ := Table.get_modifyType_self (Nat.lt_of_lt_of_le hid h.types) _
    cases hget : d.get id with
    | named n =>
      rw [hget] at hsince
      obtain ⟨n', hget', horigin, -⟩ := hsince
      rw [hget'] at hself
      have hsome := hinst n hget
      refine .inr ⟨hsome, f n', hself, (hf n').trans horigin, fun hnone => ?_⟩
      rw [hnone] at hsome
      cases hsome
    | interface i =>
      rw [hget] at hsince
      obtain ⟨j, hget', -⟩ := hsince
      rw [hget'] at hself
      exact .inl (hself.trans hget'.symm)
    | _ =>
      rw [hget] at hsince
      rw [hsince] at hself
      exact .inl (hself.trans hsince.symm)
  · exact .inl (Table.get_modifyType_of_ne heq _)

end Carrying

/-- With `n` levels of nesting, the five activities keep plain interfaces composed. A plain interface that is being completed
embeds those that are completed for it. -/
structure AllCarry (d : Table) (n : Nat) : Prop where
  instantiate : ∀ origin args depth, Carrying d (instantiate n origin args depth)
  expand : ∀ inst depth, Carrying d (expand n inst depth)
  subst : ∀ map depth id, Carrying d (subst n map depth id)
  newInterface : ∀ explicit embedded, Carrying d (newInterface n explicit embedded)
  complete : ∀ visiting id t, d.Since t → (∀ v ∈ visiting, d.Plain v → Relation.TransGen d.Embeds v id) →
    CarriesOn d t (complete n visiting id) fun _ t' => visiting.contains id = false → (t'.get id).isIncomplete = false

namespace AllCarry

variable {n : Nat}

theorem completeFresh (ih : AllCarry d n) (id : TypeId) : Carrying d (Expansion.complete n [] id) := by
  intro t h a t' hrun
  exact ⟨(ih.complete [] id t h nofun a t' hrun).1, trivial⟩

theorem instantiate_succ (hd : d.WF) (ih : AllCarry d n) (origin : TypeId) (args : List TypeId) (depth : Nat) :
    Carrying d (Expansion.instantiate (n + 1) origin args depth) := by
  have hpure : ∀ (id : TypeId) (t : Table), d.Since t → CarriesOn d t (pure id) fun _ _ => True :=
    fun _ _ h => .pure h trivial
  unfold Expansion.instantiate
  refine .ofTable fun t h => ?_
  split
  · exact hpure _ t h
  dsimp only
  split
  · exact hpure _ t h
  split
  · exact hpure _ t h
  split
  · exact hpure _ t h
  split
  · exact hpure _ t h
  split
  · exact hpure _ t h
  refine Carrying.bind (.push hd _) (fun inst => ?_) t h
  split
  · exact .bind (ih.expand inst depth) fun _ => hpure inst
  · exact hpure inst

theorem newInterface_succ (hd : d.WF) (ih : AllCarry d n) (explicit : List FuncId) (embedded : List TypeId) :
    Carrying d (Expansion.newInterface (n + 1) explicit embedded) := by
  unfold Expansion.newInterface
  refine .bind (.push hd _) fun id => .ofTable fun t h => ?_
  split
  · exact Carrying.bind (ih.completeFresh id) (fun _ _ h => .pure h trivial) t h
  · exact .pure h trivial

theorem expand_succ (hd : d.WF) (ih : AllCarry d n) (inst : TypeId) (depth : Nat) :
    Carrying d (Expansion.expand (n + 1) inst depth) := by
  rw [expand_eq_fill]
  refine .ofTable fun t h => ?_
  split
  · rename_i origin typeArgs hnamed
    have hinst : ∀ n, d.get inst = .named n → n.origin.isSome = true := by
      intro n hn
      have hsince := h.get inst (Table.hasType_of_get_ne_invalid (by rw [hn]; exact nofun))
      rw [hn] at hsince
      obtain ⟨n', hn', horigin, -⟩ := hsince
      cases (named?_eq_some hnamed).symm.trans hn'
      rw [← horigin]
      rfl
    refine Carrying.bind ?_ (fun _ => ?_) t h
    · exact .modifyNamed hd hinst fun _ => rfl
    · exact (Carrying.lasts hd).fill (fun f _ hf => .modifyNamed hd hinst hf) (fun map id => ih.subst map _ id)
        ih.completeFresh origin typeArgs
  · exact .pure h trivial

theorem complete_succ (hd : d.WF) (htidy : d.Tidy) (ih : AllCarry d n) (visiting : List TypeId) (id : TypeId) (t : Table)
    (h : d.Since t) (hchain : ∀ v ∈ visiting, d.Plain v → Relation.TransGen d.Embeds v id) :
    CarriesOn d t (Expansion.complete (n + 1) visiting id) fun _ t' =>
      visiting.contains id = false → (t'.get id).isIncomplete = false := by
  unfold Expansion.complete
  refine .ofTable ?_
  split
  · rename_i i hget
    split
    · rename_i hdone
      refine .pure h fun hnot => ?_
      rw [hnot, Bool.or_false] at hdone
      simp [hget, Ty.isIncomplete, hdone]
    rename_i hundone
    obtain ⟨hi, -⟩ : i.complete = false ∧ visiting.contains id = false := by simpa using hundone
    have hdeclared : d.HasType id → d.get id = .interface i := by
      intro hid
      have hinterface := h.isInterface hid
      rw [hget] at hinterface
      cases heq : d.get id with
      | interface i₀ =>
        obtain ⟨j, hj, -, -, hsame⟩ := h.interface heq
        cases hget.symm.trans hj
        rw [hsame (.inr hi)]
      | _ => rw [heq] at hinterface; cases hinterface
    have hopen : d.Plain id → (d.get id).isIncomplete = true := by
      intro hplain
      simp [hdeclared hplain.hasType, Ty.isIncomplete, hi]
    dsimp only
    refine .bind (CarriesOn.forIn (I := fun before s t' => d.Plain id → d.Gathers t' i.explicit before s.1 s.2)
      (fun before embed after s t₁ hsplit h₁ hgathers => ?_) (List.nil_append i.embedded) h fun hplain => ?_)
      fun s t₁ hcarries hgathers => ?_
    · have hembed : embed ∈ i.embedded := by simp [← hsplit]
      refine .bind (ih.expand embed 0 t₁ h₁) fun _ t₂ hcarries₂ _ => .ofTable (.ofTable ?_)
      have h₂ := hcarries₂.since
      have hunder : d.Plain id → t₂.underlying embed = d.underlying embed ∧ d.HasType (d.underlying embed) ∧
          ((d.get (d.underlying embed)).isInterface = true → d.Embeds id (d.underlying embed)) := by
        intro hplain
        obtain ⟨j, hj, -, hembedded, -⟩ := h₂.interface (hdeclared hplain.hasType)
        obtain ⟨heq, hhas, -, hembeds⟩ := h₂.embedded hd hplain (hopen hplain) hj (hembedded ▸ hembed)
        exact ⟨heq, hhas, hembeds⟩
      -- what was gathered before stays what it is
      have hstays : d.Plain id → ∀ t₃, d.Carries t₁ t₃ → d.Gathers t₃ i.explicit before s.1 s.2 := by
        intro hplain t₃ hcarries₃
        obtain ⟨j, hj, -, hembedded, -⟩ := h₁.interface (hdeclared hplain.hasType)
        refine (hgathers hplain).of_same fun e he => ?_
        exact h₁.get_embedded hd hcarries₃ hplain (hopen hplain) hj (by rw [hembedded, ← hsplit]; simp [he])
          ((hgathers hplain).known e he)
      generalize t₂.underlying embed = under at hunder
      cases hget₂ : t₂.get under with
      | interface _ =>
        have hembeds : d.Plain id → d.Embeds id under := by
          intro hplain
          obtain ⟨rfl, hhas, hembeds⟩ := hunder hplain
          refine hembeds ?_
          rw [← h₂.isInterface hhas, hget₂]
          rfl
        have hbelow : ∀ v ∈ id :: visiting, d.Plain v → Relation.TransGen d.Embeds v under := by
          intro v hv hplain
          rcases List.mem_cons.1 hv with rfl | hv
          · exact .single (hembeds hplain)
          · exact (hchain v hv hplain).tail (hembeds (hplain.of_below (hchain v hv hplain)))
        refine .bind (ih.complete (id :: visiting) under t₂ h₂ hbelow) fun _ t₃ hcarries₃ hknown => .ofTable ?_
        have h₃ := hcarries₃.since
        split
        · rename_i inner hinner
          refine .pure h₃ ⟨_, rfl, fun hplain => ?_⟩
          have hplain' := hplain.of_below (.single (hembeds hplain))
          have hknown := hknown (by
            refine Bool.eq_false_iff.2 fun hcontains => ?_
            exact hplain'.not_below_itself (hbelow under (by simpa using hcontains) hplain'))
          have hcomplete : inner.complete = true := by simpa [hinner, Ty.isIncomplete] using hknown
          have hlist : inner.methodList = inner.methods := if_pos hcomplete
          have hfuncs : ∀ m ∈ inner.methodList, d.HasFunc m :=
            fun m hm => h₃.hasFunc hd hplain' hinner hcomplete (hlist ▸ hm)
          obtain ⟨rfl, -⟩ := hunder hplain
          have hgathered := hstays hplain t₃ (hcarries₂.trans hcarries₃)
          rw [Table.inheritMethods_congr (t := d) fun m hm => by
            rw [h₃.func m ((List.mem_append.1 hm).elim (hgathered.funcs m) (hfuncs m))]]
          exact hgathered.snoc hknown (by rw [hinner]; rfl) hfuncs
        · rename_i hother
          refine .pure h₃ ⟨_, rfl, fun hplain => ?_⟩
          obtain ⟨inner, hinner⟩ := (hplain.of_below (.single (hembeds hplain))).get
          obtain ⟨j, hj, -⟩ := h₃.interface hinner
          exact absurd hj (hother j)
      | invalid =>
        refine .pure h₂ ⟨_, rfl, fun hplain => ?_⟩
        obtain ⟨rfl, -⟩ := hunder hplain
        have hoffers : (t₂.get (d.underlying embed)).offers = ([], false) := by rw [hget₂]; rfl
        simpa [Table.inheritMethods] using (hstays hplain t₂ hcarries₂).snoc (by rw [hget₂]; rfl) hoffers (by simp)
      | _ =>
        refine .pure h₂ ⟨_, rfl, fun hplain => ?_⟩
        obtain ⟨rfl, -⟩ := hunder hplain
        have hoffers : (t₂.get (d.underlying embed)).offers = ([], true) := by rw [hget₂]; rfl
        simpa [Table.inheritMethods] using (hstays hplain t₂ hcarries₂).snoc (by rw [hget₂]; rfl) hoffers (by simp)
    · have hi₀ := hdeclared hplain.hasType
      have hterms := htidy id
      rw [hi₀] at hterms
      exact ⟨by simp, rfl, hterms.2 hi, fun m hm => hd.hasFunc id (by rw [hi₀]; exact List.mem_append_left _ hm)⟩
    · rintro _ _ ⟨⟩
      refine ⟨?_, fun _ => isIncomplete_get_completed⟩
      by_cases hid : d.HasType id
      · have hi₀ := hdeclared hid
        obtain ⟨i₁, hi₁, hexplicit, hembedded, -⟩ := hcarries.since.interface hi₀
        refine hcarries.since.carries_completed hd (by simp [hi₀, Ty.isIncomplete, hi]) hi₁ fun hplain => ?_
        rw [hexplicit, hembedded]
        exact hgathers hplain
      · refine hcarries.since.carries hd (by simp [Table.modifyInterface, Table.modifyType]) (Nat.le_refl _)
          (fun _ _ => rfl) fun id' hid' => .inl (Table.get_modifyType_of_ne ?_ _)
        rintro rfl
        exact hid hid'
  · rename_i hother
    refine .pure h fun _ => ?_
    cases hget : t.get id with
    | interface i => exact absurd hget (hother i)
    | _ => rfl

end AllCarry

/-- Whatever is filled in or completed, plain interfaces are composed of what they embed. -/
theorem allCarry (hd : d.WF) (htidy : d.Tidy) (n : Nat) : AllCarry d n := by
  induction n with
  | zero => exact ⟨nofun, nofun, nofun, nofun, nofun⟩
  | succ n ih =>
    exact {
      instantiate := ih.instantiate_succ hd
      expand := ih.expand_succ hd
      subst := fun map depth id => (Carrying.lasts hd).subst_succ (fun _ => ih.subst map _) (fun _ origin args =>
        ih.instantiate origin args _) (fun _ => ih.newInterface) id
      newInterface := ih.newInterface_succ hd
      complete := ih.complete_succ hd htidy }

theorem carrying_endDeclarations (hd : d.WF) (htidy : d.Tidy) (n : Nat) (order : List TypeId) :
    Carrying d (endDeclarations n order) := by
  have hall := allCarry hd htidy n
  have hlasts := Carrying.lasts hd
  unfold endDeclarations
  refine .bind (.change fun t h => ?_) fun _ => ?_
  · exact h.carries hd (Nat.le_refl _) (Nat.le_refl _) (fun _ _ => rfl) fun _ _ => .inl rfl
  refine .bind (hlasts.forM fun id _ => hall.completeFresh id) fun _ => .bind hlasts.getTable fun t₁ => ?_
  refine .bind (hlasts.forM fun inst _ => hall.expand inst 0) fun _ => .bind hlasts.getTable fun t₂ => ?_
  exact hlasts.forM fun id _ => hall.completeFresh id

end Expansion

theorem Table.Since.endDeclarations {d : Table} (hd : d.WF) (htidy : d.Tidy) (order : List TypeId) :
    d.Since ((Build.endDeclarations order).run d).2 := by
  show d.Since ((StateT.run (Expansion.endDeclarations d.expansionBound order) d).getD (default, d)).2
  cases hrun : StateT.run (Expansion.endDeclarations d.expansionBound order) d with
  | none => exact .refl d
  | some r => exact (Expansion.carrying_endDeclarations hd htidy _ order d (.refl d) r.1 r.2 hrun).1.since

/-! ## After the declarations -/

theorem Ty.Becomes.offers {a b : Ty} (h : a.Becomes b) (hknown : a.isIncomplete = false) : b.offers = a.offers := by
  cases a with
  | interface i =>
    cases b with
    | interface j =>
      have hcomplete : i.complete = true := by simpa [Ty.isIncomplete] using hknown
      have hsame := h.2 hcomplete
      simp [Ty.offers, Interface.methodList, hcomplete, hsame.complete, hsame.methods, hsame.hasTerms]
    | _ => cases h
  | _ => cases b <;> simp_all [Ty.Becomes, Ty.offers]

theorem Ty.Becomes.next {a b : Ty} (h : a.Becomes b) (hdeclared : a.isDeclared = true) (hsame : b.definition? = a.definition?) :
    b.next? = a.next? := by
  cases a <;> cases b <;> simp_all [Ty.Becomes, Ty.isDeclared, Ty.isInstance, Ty.isTypeParam, Ty.definition?, Ty.next?]

namespace Table

variable {d t t' : Table} {id : TypeId} {i : Interface}

/-- The method set of an interface is composed of its own methods and the method sets of the types that it embeds. -/
structure ComposedOf (t : Table) (embedded : List TypeId) (i : Interface) : Prop where
  distinct : (i.explicit.map fun m => (t.func m).name).Nodup → (i.methods.map fun m => (t.func m).name).Nodup
  explicit : i.explicit ⊆ i.methods
  names : ∀ name, (∃ m ∈ i.methods, (t.func m).name = name) ↔ (∃ m ∈ i.explicit, (t.func m).name = name) ∨
    ∃ e ∈ embedded, ∃ m ∈ t.interfaceMethods e, (t.func m).name = name
  inherited : ∀ m ∈ i.methods, m ∉ i.explicit →
    embedded.findSome? (fun e => t.funcNamed? (t.func m).name (t.interfaceMethods e)) = some m
  hasTerms : i.hasTerms = true ↔ ∃ e ∈ embedded, (∃ j, t.interface? e = some j ∧ j.hasTerms = true) ∨
    t.interface? e = none ∧ t.isInvalid (t.underlying e) = false

theorem offers_underlying (t : Table) (e : TypeId) : (t.get (t.underlying e)).offers.1 = t.interfaceMethods e := by
  unfold interfaceMethods interface?
  cases t.get (t.underlying e) <;> rfl

theorem hasTerms_offers (t : Table) (e : TypeId) : (t.get (t.underlying e)).offers.2 = true ↔
    (∃ j, t.interface? e = some j ∧ j.hasTerms = true) ∨ t.interface? e = none ∧ t.isInvalid (t.underlying e) = false := by
  unfold interface? isInvalid
  cases t.get (t.underlying e) <;> simp [Ty.offers]

theorem composedOf_of_offered {embedded : List TypeId}
    (hmethods : i.methods = t.sortMethods (t.inheritMethods i.explicit ((t.offered t embedded).flatMap (·.1))))
    (hterms : i.hasTerms = (t.offered t embedded).any (·.2)) : t.ComposedOf embedded i := by
  have hlist : (t.offered t embedded).flatMap (·.1) = embedded.flatMap t.interfaceMethods := by
    rw [offered, List.flatMap_map]
    exact List.flatMap_congr fun e _ => t.offers_underlying e
  rw [hlist] at hmethods
  have hperm : i.methods.Perm (t.inheritMethods i.explicit (embedded.flatMap t.interfaceMethods)) := by
    rw [hmethods]
    exact List.mergeSort_perm _ _
  refine ⟨fun hnodup => ?_, fun m hm => ?_, fun name => ⟨?_, ?_⟩, fun m hm hnot => ?_, ?_⟩
  · exact (hperm.map _).nodup_iff.2 (nodup_inheritMethods hnodup)
  · exact hperm.mem_iff.2 (Expansion.subset_inheritMethods _ _ _ hm)
  · rintro ⟨m, hm, rfl⟩
    rcases Expansion.mem_inheritMethods (hperm.mem_iff.1 hm) with hm | hm
    · exact .inl ⟨m, hm, rfl⟩
    · obtain ⟨e, he, hm⟩ := List.mem_flatMap.1 hm
      exact .inr ⟨e, he, m, hm, rfl⟩
  · rintro (⟨m, hm, rfl⟩ | ⟨e, he, m, hm, rfl⟩)
    · exact ⟨m, hperm.mem_iff.2 (Expansion.subset_inheritMethods _ _ _ hm), rfl⟩
    by_cases hown : ∃ own ∈ i.explicit, (t.func own).name = (t.func m).name
    · obtain ⟨own, hmem, hname⟩ := hown
      exact ⟨own, hperm.mem_iff.2 (Expansion.subset_inheritMethods _ _ _ hmem), hname⟩
    · -- the first method of this name is inherited
      have hsome : (t.funcNamed? (t.func m).name (embedded.flatMap t.interfaceMethods)).isSome = true :=
        List.find?_isSome.2 ⟨m, List.mem_flatMap.2 ⟨e, he, hm⟩, by simp⟩
      obtain ⟨first, hfirst⟩ := Option.isSome_iff_exists.1 hsome
      have hname : (t.func first).name = (t.func m).name := by simpa using List.find?_some hfirst
      refine ⟨first, hperm.mem_iff.2 (mem_inheritMethods_iff.2 (.inr ⟨fun own hmem heq => ?_, ?_⟩)), hname⟩
      · exact hown ⟨own, hmem, heq.trans hname⟩
      · rwa [hname]
  · rcases mem_inheritMethods_iff.1 (hperm.mem_iff.1 hm) with hm | ⟨-, hfirst⟩
    · exact absurd hm hnot
    · rwa [funcNamed?, List.find?_flatMap] at hfirst
  · rw [hterms, offered, List.any_map, List.any_eq_true]
    exact exists_congr fun e => and_congr_right fun _ => t.hasTerms_offers e

/-- A plain interface is composed of what it embeds when declarations have ended, and stays so as long as what they say does
not change. -/
theorem Since.composedOf (hd : d.WF) (h : d.Since t) (hknown : ∀ id, (t.get id).isIncomplete = false) (hgrows : t.Grows t')
    (hsame : ∀ id, d.HasType id → t'.definition? id = t.definition? id) (hplain : d.Plain id) (hget : d.get id = .interface i)
    (hi : i.complete = false) :
    ∃ j, t'.get id = .interface j ∧ j.explicit = i.explicit ∧ t'.ComposedOf i.embedded j := by
  have hopen : (d.get id).isIncomplete = true := by simp [hget, Ty.isIncomplete, hi]
  obtain ⟨j, hj, hexplicit, hembedded, -⟩ := h.interface hget
  have hcomplete : j.complete = true := by simpa [hj, Ty.isIncomplete] using hknown id
  obtain ⟨methods, hgathers, hmethods⟩ := h.composed id j hplain hopen hj hcomplete
  obtain ⟨j', hj', hexplicit', hstays⟩ := hgrows.interface hj
  have hstays := hstays hcomplete
  have hbecomes : ∀ id, d.HasType id → (t.get id).Becomes (t'.get id) := by
    intro id hid
    obtain ⟨ty, hty, hbecomes⟩ := hgrows.types id.index _ (HasType.getElem? (Nat.lt_of_lt_of_le hid h.types))
    rwa [get_eq_of_getElem? hty]
  have hnext : ∀ id, d.HasType id → (d.get id).isDeclared = true → (t'.get id).next? = (d.get id).next? := by
    intro id hid hdeclared
    rw [← h.next hid hdeclared]
    refine (hbecomes id hid).next ?_ (hsame id hid)
    have hsince := h.get id hid
    cases heq : d.get id <;> rw [heq] at hsince hdeclared <;>
      simp_all [Ty.Since, Ty.isDeclared, Ty.isInstance, Ty.isTypeParam] <;>
      obtain ⟨x, hx, hrest⟩ := hsince <;> simp_all
  have hoffered : t'.offered t' j.embedded = d.offered t j.embedded := by
    refine List.map_congr_left fun e he => ?_
    obtain ⟨-, hhas, -⟩ := h.embedded hd hplain hopen hj he
    rw [hembedded] at he
    have hunder : t'.underlying e = d.underlying e := (underlyingWithin_of_declared hd hnext
      (hd.hasType_part id (by rw [hget]; exact he)) (hplain.declared hget hi e he)).1
    rw [hunder]
    exact (hbecomes _ hhas).offers (hknown _)
  have hfuncs : ∀ m ∈ j.explicit ++ (d.offered t j.embedded).flatMap (·.1), (t'.func m).name = (d.func m).name := by
    intro m hm
    have hm : d.HasFunc m := by
      rcases List.mem_append.1 hm with hm | hm
      · rw [hexplicit] at hm
        exact hd.hasFunc id (by rw [hget]; exact List.mem_append_left _ hm)
      · obtain ⟨_, hoffers, hm⟩ := List.mem_flatMap.1 hm
        obtain ⟨e, he, rfl⟩ := List.mem_map.1 hoffers
        obtain ⟨-, hhas, -, hembeds⟩ := h.embedded hd hplain hopen hj he
        have hinner := h.isInterface hhas
        cases heq : t.get (d.underlying e) with
        | interface inner =>
          rw [heq] at hm hinner
          have hcomplete : inner.complete = true := by simpa [heq, Ty.isIncomplete] using hknown (d.underlying e)
          refine h.hasFunc hd (hplain.of_below (.single (hembeds hinner.symm))) heq hcomplete ?_
          simpa [Ty.offers, Interface.methodList, hcomplete] using hm
        | _ => simp [heq, Ty.offers] at hm
    rw [(hgrows.func (Nat.lt_of_lt_of_le hm h.funcs)).name, h.func m hm]
  refine ⟨j', hj', hexplicit'.trans hexplicit, hembedded ▸ composedOf_of_offered ?_ ?_⟩
  · rw [hoffered, hexplicit', inheritMethods_congr hfuncs, ← hgathers.methods_eq, hstays.methods, hmethods]
    refine (sortMethods_congr fun m hm => hfuncs m ?_).symm
    rw [hgathers.methods_eq] at hm
    exact List.mem_append.2 (Expansion.mem_inheritMethods hm)
  · rw [hoffered, hstays.hasTerms, hgathers.hasTerms_eq]

end Table

end UnusedMethods.Types

namespace UnusedMethods.Typing

open UnusedMethods.Types Checking

/-- The table when the declarations of a package have been read and circles of embeddings have been cut. -/
def PackageSource.declaredTable (source : PackageSource) (packages : Array Package) (byPath : ImportMap) (t : Table) : Table :=
  ((readFiles (source.currentFiles packages byPath)).eval (source.context packages) source.start t).2

/-- After the check of a package, all method sets are known and contain what is declared. Interfaces of the package that embed
declared types only, directly and by way of interfaces that they embed, are composed of what they embed. -/
theorem composed_of_plain {t : Table} {packages : Array Package} (h : Stage t packages) (byPath : ImportMap) (pkg : PackageId)
    (source : PackageSource) :
    (∀ id i, ((checkPackage packages byPath pkg source).run t).2.get id = .interface i →
      i.complete = true ∧ i.explicit ⊆ i.methods) ∧
    ∀ id i, (source.declaredTable packages byPath t).get id = .interface i → i.complete = false →
      (source.declaredTable packages byPath t).Plain id →
      ∃ j, ((checkPackage packages byPath pkg source).run t).2.get id = .interface j ∧ j.explicit = i.explicit ∧
        ((checkPackage packages byPath pkg source).run t).2.ComposedOf i.embedded j := by
  obtain ⟨hwf, hpackages⟩ := h.wf
  have hready : Ready source.openPlan (source.context packages) source.start t :=
    ⟨hwf, source.context_wf hpackages, source.start_wf⟩
  obtain ⟨hread, hend, hrest⟩ := step_checkFiles hready source.open_openPlan (source.currentFiles_wf hpackages byPath)
  refine ⟨fun id i hget => ?_, fun id i hget hopen hplain => ?_⟩
  · obtain ⟨hcomplete, hexplicit, -⟩ := (finished_of_checkPackage h.finished hpackages byPath pkg source).interfaces id i hget
    exact ⟨hcomplete, hexplicit⟩
  · have hknown := hend.known (hread.known h.finished.methodSetsKnown) (Build.deferring_endDeclarations _ _)
    have hsince := Table.Since.endDeclarations hread.wf (hread.tidy h.finished.tidy)
      ((readFiles (source.currentFiles packages byPath)).eval (source.context packages) source.start t).1.1.2.2
    rw [run_checkPackage]
    exact hsince.composedOf hread.wf hknown hrest.grows hrest.settled hplain hget hopen

deriving instance DecidableEq for Interface

/-- An interface that embeds another one under a second name. -/
def sourceFile : String :=
  "package app

type Reader interface \x7b Read() \x7d

type Source Reader

type File interface \x7b
	Source
	Close()
\x7d
"

/-- Its method set is composed of its own method and that of the other one. -/
theorem composed_source_file :
    ∃ j, (checkText sourceFile).2.get ⟨37⟩ = .interface j ∧ j.explicit = [⟨2⟩] ∧
      (checkText sourceFile).2.ComposedOf [⟨32⟩] j := by
  have hdeclared : let d := (PackageSource.ofText sourceFile).declaredTable #[] [] Table.predeclared
      d.interface? ⟨37⟩ = some ⟨[⟨2⟩], [⟨32⟩], [], false, false⟩ ∧ d.underlying ⟨37⟩ = ⟨37⟩ ∧
      d.interface? ⟨32⟩ = some ⟨[⟨1⟩], [], [], false, false⟩ ∧ d.isDeclaredWithin 100 ⟨32⟩ = true := by
    decide +kernel
  have hcomposed := (composed_of_plain .start [] ⟨0⟩ (.ofText sourceFile)).2 ⟨37⟩
  generalize (PackageSource.ofText sourceFile).declaredTable #[] [] Table.predeclared = d at hdeclared hcomposed
  obtain ⟨hfile, hself, hsource, hdeclared⟩ := hdeclared
  replace hfile := Table.get_underlying_of_interface? hfile
  replace hsource := Table.get_underlying_of_interface? hsource
  rw [hself] at hfile
  have hplain : d.Plain (d.underlying ⟨32⟩) := by
    refine .intro hsource (fun _ => nofun) ?_
    rintro _ ⟨⟨i, hi, -, e, he, -⟩, -⟩
    cases hsource.symm.trans hi
    cases he
  refine hcomposed _ hfile rfl (.intro hfile (fun _ e he => ?_) ?_)
  · rwa [List.mem_singleton.1 he]
  · rintro _ ⟨⟨i, hi, -, e, he, rfl⟩, -⟩
    cases hfile.symm.trans hi
    rwa [List.mem_singleton.1 he]

/-- The parameter of the method of `H` is an interface that embeds `H`. -/
def halfDone : String :=
  "package app

type H[T any] interface \x7b
	m(interface \x7b
		H[T]
		k()
	\x7d)
\x7d

type X H[int]
"

/-- For `H[int]` the parameter is completed before it is known what `H[int]` is, and so it lacks the method `m`. -/
theorem half_done_taken_over :
    ∃ i, (checkText halfDone).2.interface? ⟨39⟩ = some i ∧ i.embedded = [⟨38⟩] ∧
      ¬ (checkText halfDone).2.ComposedOf i.embedded i := by
  have h : let t := (checkText halfDone).2
      t.interface? ⟨39⟩ = some ⟨[⟨1⟩], [⟨38⟩], [⟨1⟩], true, false⟩ ∧ t.interfaceMethods ⟨38⟩ = [⟨3⟩] ∧
      (t.func ⟨1⟩).name = "k" ∧ (t.func ⟨3⟩).name = "m" := by
    decide +kernel
  obtain ⟨hget, hmethods, hk, hm⟩ := h
  refine ⟨_, hget, rfl, fun hcomposed => ?_⟩
  obtain ⟨f, hf, hname⟩ := (hcomposed.names "m").2 (.inr ⟨⟨38⟩, by simp, ⟨3⟩, by simp [hmethods], hm⟩)
  rw [List.mem_singleton.1 hf, hk] at hname
  exact absurd hname (by decide)

end UnusedMethods.Typing
