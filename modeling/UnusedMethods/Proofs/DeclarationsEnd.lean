import Mathlib.Data.List.Nodup
import Mathlib.Data.List.Perm.Subperm
import UnusedMethods.Proofs.Expansion

/-!
# Declarations come to an end

When the declarations of a package end, the instances that were made meanwhile are filled in and all interfaces are
completed. The functions that do this count down the levels by which their calls may nest, and give up at zero. Here it is
shown that the bound which the table provides is large enough, so that they never give up.

Calls nest for three reasons.
- Substitution goes down into types and makes instances, but no deeper than `maxSubstDepth`.
- To complete an interface, those are completed which it embeds, but none that is being completed already. There are no
  more levels of this than there are incomplete interfaces.
- An interface may embed an instance that waits to be filled in. This is done on the spot, from depth zero, and interfaces
  that are completed for it do not know which ones are being completed. But then one instance less is waiting.

What is made on the way is filled in or completed before the call returns, so neither waiting instances nor incomplete
interfaces become more (`Table.Shrinks`).
-/

namespace UnusedMethods.Types

namespace Table

variable {t t' t'' : Table}

variable {p : Ty → Bool} {id : TypeId}

/-! ## What waits to be filled in or completed -/

/-- The instances that have not been filled in. -/
def unfilled (t : Table) : List TypeId := t.idsWhere Ty.isUnexpanded

/-- The incomplete interfaces that are not among those being completed. -/
def unvisited (t : Table) (visiting : List TypeId) : List TypeId :=
  (t.idsWhere Ty.isIncomplete).filter fun id => !visiting.contains id

theorem nodup_idsWhere (t : Table) (p : Ty → Bool) : (t.idsWhere p).Nodup :=
  (List.nodup_range.map fun _ _ h => TypeId.mk.inj h).filter _

theorem nodup_unvisited (t : Table) (visiting : List TypeId) : (t.unvisited visiting).Nodup :=
  (nodup_idsWhere _ _).filter _

theorem mem_idsWhere (hp : p .invalid = false) : id ∈ t.idsWhere p ↔ p (t.get id) = true := by
  rw [idsWhere, List.mem_filter, and_iff_right_iff_imp]
  intro h
  refine List.mem_map.2 ⟨id.index, List.mem_range.2 ?_, rfl⟩
  by_contra hid
  rw [get_eq_invalid_of_not_hasType hid, hp] at h
  cases h

theorem mem_unvisited {visiting : List TypeId} :
    id ∈ t.unvisited visiting ↔ (t.get id).isIncomplete = true ∧ id ∉ visiting := by
  rw [unvisited, List.mem_filter, mem_idsWhere rfl]
  simp

/-- Nothing begins to wait. -/
structure Shrinks (t t' : Table) : Prop where
  deferring : t'.deferring = t.deferring
  unexpanded : ∀ id, (t'.get id).isUnexpanded = true → (t.get id).isUnexpanded = true
  incomplete : ∀ id, (t'.get id).isIncomplete = true → (t.get id).isIncomplete = true

namespace Shrinks

theorem refl (t : Table) : t.Shrinks t := ⟨rfl, fun _ => id, fun _ => id⟩

theorem trans (h : t.Shrinks t') (h' : t'.Shrinks t'') : t.Shrinks t'' :=
  ⟨h'.deferring.trans h.deferring, fun id hid => h.unexpanded id (h'.unexpanded id hid),
    fun id hid => h.incomplete id (h'.incomplete id hid)⟩

theorem length_unfilled (h : t.Shrinks t') : t'.unfilled.length ≤ t.unfilled.length := by
  refine ((nodup_idsWhere _ _).subperm fun id hid => ?_).length_le
  exact (mem_idsWhere rfl).2 (h.unexpanded id ((mem_idsWhere rfl).1 hid))

theorem length_unvisited (h : t.Shrinks t') (visiting : List TypeId) :
    (t'.unvisited visiting).length ≤ (t.unvisited visiting).length := by
  refine ((nodup_unvisited _ _).subperm fun id hid => ?_).length_le
  obtain ⟨hincomplete, hnot⟩ := mem_unvisited.1 hid
  exact mem_unvisited.2 ⟨h.incomplete id hincomplete, hnot⟩

theorem modifyType {id : TypeId} {f : Ty → Ty} (hunexpanded : ∀ ty, (f ty).isUnexpanded = true → ty.isUnexpanded = true)
    (hincomplete : ∀ ty, (f ty).isIncomplete = true → ty.isIncomplete = true) : t.Shrinks (t.modifyType id f) := by
  have hget : ∀ id', (t.modifyType id f).get id' = t.get id' ∨ (t.modifyType id f).get id' = f (t.get id') := by
    intro id'
    by_cases heq : id' = id
    · subst heq
      by_cases hid : t.HasType id'
      · exact .inr (get_modifyType_self hid f)
      · rw [get_eq_invalid_of_not_hasType hid, get_eq_invalid_of_not_hasType fun h => hid (hasType_modifyType.1 h)]
        exact .inl rfl
    · exact .inl (get_modifyType_of_ne heq f)
  refine ⟨rfl, fun id' h => ?_, fun id' h => ?_⟩
  · rcases hget id' with heq | heq
    · rwa [heq] at h
    · rw [heq] at h
      exact hunexpanded _ h
  · rcases hget id' with heq | heq
    · rwa [heq] at h
    · rw [heq] at h
      exact hincomplete _ h

end Shrinks

/-- An entry that is replaced by one that does not wait does not wait any more. -/
theorem get_modifyType_closed (hp : p .invalid = false) {f : Ty → Ty} (hf : ∀ ty, p (f ty) = false) :
    p ((t.modifyType id f).get id) = false := by
  by_cases hid : t.HasType id
  · rw [get_modifyType_self hid]
    exact hf _
  · rw [get_eq_invalid_of_not_hasType fun h => hid (hasType_modifyType.1 h)]
    exact hp

theorem get_push (t : Table) (ty : Ty) (id : TypeId) :
    { t with types := t.types.push ty : Table }.get id = if id = ⟨t.types.size⟩ then ty else t.get id := by
  show (t.types.push ty)[id.index]?.getD .invalid = _
  rw [Array.getElem?_push]
  by_cases h : id.index = t.types.size
  · obtain ⟨i⟩ := id
    cases h
    simp
  · have hne : id ≠ ⟨t.types.size⟩ := fun heq => h (congrArg TypeId.index heq)
    rw [if_neg h, if_neg hne]
    rfl

theorem length_idsWhere_push (hp : p .invalid = false) (t : Table) (ty : Ty) :
    ({ t with types := t.types.push ty : Table }.idsWhere p).length ≤ (t.idsWhere p).length + 1 := by
  have hsub : { t with types := t.types.push ty : Table }.idsWhere p ⊆ ⟨t.types.size⟩ :: t.idsWhere p := by
    intro id hid
    have hid := (mem_idsWhere hp).1 hid
    rw [get_push] at hid
    split at hid
    · rename_i heq
      exact heq ▸ List.mem_cons_self
    · exact List.mem_cons_of_mem _ ((mem_idsWhere hp).2 hid)
  exact ((nodup_idsWhere _ _).subperm hsub).length_le

/-- An entry begins nothing that waits if it has been filled in or completed in the end. -/
theorem Shrinks.of_push {ty : Ty} (h : { t with types := t.types.push ty : Table }.Shrinks t')
    (hunexpanded : ty.isUnexpanded = true → (t'.get ⟨t.types.size⟩).isUnexpanded = false)
    (hincomplete : ty.isIncomplete = true → (t'.get ⟨t.types.size⟩).isIncomplete = false) : t.Shrinks t' := by
  refine ⟨h.deferring, fun id hid => ?_, fun id hid => ?_⟩
  · have hold := h.unexpanded id hid
    rw [get_push] at hold
    split at hold
    · rename_i heq
      rw [heq, hunexpanded hold] at hid
      cases hid
    · exact hold
  · have hold := h.incomplete id hid
    rw [get_push] at hold
    split at hold
    · rename_i heq
      rw [heq, hincomplete hold] at hid
      cases hid
    · exact hold

theorem Shrinks.push {ty : Ty} (h : ty.isOpen = false) : t.Shrinks { t with types := t.types.push ty } := by
  obtain ⟨hincomplete, hunexpanded⟩ := Ty.isOpen_eq_false.1 h
  refine .of_push (.refl _) (fun hopen => ?_) fun hopen => ?_
  · rw [hunexpanded] at hopen
    cases hopen
  · rw [hincomplete] at hopen
    cases hopen

/-- At most `u` instances wait to be filled in, and at most `k` instances and interfaces in all. No declarations are being
read. -/
structure Fits (t : Table) (u k : Nat) : Prop where
  deferring : t.deferring = false
  unfilled : t.unfilled.length ≤ u
  total : t.unfilled.length + (t.unvisited []).length ≤ k

namespace Fits

variable {u k : Nat}

theorem of_shrinks (h : t.Fits u k) (hshrinks : t.Shrinks t') : t'.Fits u k := by
  have hunfilled := hshrinks.length_unfilled
  have hunvisited := hshrinks.length_unvisited []
  have htotal := h.total
  exact ⟨hshrinks.deferring.trans h.deferring, Nat.le_trans hunfilled h.unfilled, by omega⟩

theorem size (t : Table) : { t with deferring := false : Table }.Fits t.types.size t.types.size := by
  have hunfilled : t.unfilled ⊆ (List.range t.types.size).map TypeId.mk := fun id hid => List.mem_of_mem_filter hid
  have hunvisited : t.unvisited [] ⊆ (List.range t.types.size).map TypeId.mk :=
    fun id hid => List.mem_of_mem_filter (List.mem_of_mem_filter hid)
  have hdisjoint : t.unfilled.Disjoint (t.unvisited []) := by
    intro id hinstance hinterface
    have hinstance := (mem_idsWhere rfl).1 hinstance
    have hinterface := (mem_unvisited.1 hinterface).1
    cases hget : t.get id with
    | interface i => simp [hget, Ty.isUnexpanded] at hinstance
    | _ => simp [hget, Ty.isIncomplete] at hinterface
  have hnodup : (t.unfilled ++ t.unvisited []).Nodup :=
    (nodup_idsWhere _ _).append (nodup_unvisited _ _) hdisjoint
  have htotal := (hnodup.subperm (List.append_subset.2 ⟨hunfilled, hunvisited⟩)).length_le
  rw [List.length_append, List.length_map, List.length_range] at htotal
  exact ⟨rfl, Nat.le_trans (Nat.le_add_right _ _) htotal, htotal⟩

theorem mono (h : t.Fits u k) : t.Fits u (k + 1) :=
  ⟨h.deferring, h.unfilled, Nat.le_succ_of_le h.total⟩

theorem length_unvisited_le (h : t.Fits u k) (visiting : List TypeId) : (t.unvisited visiting).length ≤ k := by
  have hsub : (t.unvisited visiting).length ≤ (t.unvisited []).length := by
    refine ((nodup_unvisited _ _).subperm fun id hid => ?_).length_le
    exact mem_unvisited.2 ⟨(mem_unvisited.1 hid).1, List.not_mem_nil⟩
  have htotal := h.total
  omega

/-- A new instance waits until it is filled in. -/
theorem pushInstance (h : t.Fits u k) {d : Named} : { t with types := t.types.push (.named d) : Table }.Fits (u + 1) (k + 1) := by
  have hunfilled := length_idsWhere_push (p := Ty.isUnexpanded) rfl t (.named d)
  have hunvisited : ({ t with types := t.types.push (.named d) : Table }.unvisited []).length ≤ (t.unvisited []).length := by
    refine ((nodup_unvisited _ _).subperm fun id hid => ?_).length_le
    have hid := (mem_unvisited.1 hid).1
    rw [get_push] at hid
    split at hid
    · cases hid
    · exact mem_unvisited.2 ⟨hid, List.not_mem_nil⟩
  have hu : (t.idsWhere Ty.isUnexpanded).length ≤ u := h.unfilled
  have htotal : (t.idsWhere Ty.isUnexpanded).length + _ ≤ k := h.total
  exact ⟨h.deferring, Nat.le_trans hunfilled (Nat.succ_le_succ hu), by unfold Table.unfilled; omega⟩

/-- A new interface waits until it is completed. -/
theorem pushInterface (h : t.Fits u k) {i : Interface} :
    { t with types := t.types.push (.interface i) : Table }.Fits u (k + 1) := by
  have hunfilled : { t with types := t.types.push (.interface i) : Table }.unfilled.length ≤ t.unfilled.length := by
    refine ((nodup_idsWhere _ _).subperm fun id hid => ?_).length_le
    have hid := (mem_idsWhere rfl).1 hid
    rw [get_push] at hid
    split at hid
    · cases hid
    · exact (mem_idsWhere rfl).2 hid
  have hunvisited : { t with types := t.types.push (.interface i) : Table }.unvisited [] ⊆
      ⟨t.types.size⟩ :: t.unvisited [] := by
    intro id hid
    have hid := (mem_unvisited.1 hid).1
    rw [get_push] at hid
    split at hid
    · rename_i heq
      exact heq ▸ List.mem_cons_self
    · exact List.mem_cons_of_mem _ (mem_unvisited.2 ⟨hid, List.not_mem_nil⟩)
  have hunvisited := ((nodup_unvisited _ _).subperm hunvisited).length_le
  rw [List.length_cons] at hunvisited
  have htotal := h.total
  exact ⟨h.deferring, Nat.le_trans hunfilled h.unfilled, by omega⟩

end Fits

/-- The table with an instance marked as filled in. -/
def marked (t : Table) (inst : TypeId) : Table := t.modifyNamed inst fun d => { d with expanded := true }

variable {inst : TypeId}

theorem shrinks_marked : t.Shrinks (t.marked inst) := by
  refine .modifyType (fun ty h => ?_) fun ty h => ?_
  · cases ty with
    | named d => simp [Ty.isUnexpanded] at h
    | _ => exact h
  · cases ty with
    | named d => cases h
    | _ => exact h

theorem isUnexpanded_get_marked : ((t.marked inst).get inst).isUnexpanded = false := by
  refine get_modifyType_closed rfl fun ty => ?_
  cases ty <;> simp [Ty.isUnexpanded]

theorem Fits.marked {u k : Nat} (h : t.Fits u (k + 1)) (hinst : (t.get inst).isUnexpanded = true) :
    ∃ v, u = v + 1 ∧ (t.marked inst).Fits v k := by
  have hless : (t.marked inst).unfilled.length + 1 ≤ t.unfilled.length := by
    have hnodup : (inst :: (t.marked inst).unfilled).Nodup := by
      refine List.nodup_cons.2 ⟨fun hmem => ?_, nodup_idsWhere _ _⟩
      have hopen := (mem_idsWhere rfl).1 hmem
      rw [isUnexpanded_get_marked] at hopen
      cases hopen
    refine (hnodup.subperm fun id hid => ?_).length_le
    rcases List.mem_cons.1 hid with rfl | hid
    · exact (mem_idsWhere rfl).2 hinst
    · exact (mem_idsWhere rfl).2 (shrinks_marked.unexpanded id ((mem_idsWhere rfl).1 hid))
  have hshrinks : t.Shrinks (t.marked inst) := shrinks_marked
  have hunvisited := hshrinks.length_unvisited []
  have hu := h.unfilled
  have htotal := h.total
  exact ⟨u - 1, by omega, h.deferring, by omega, by omega⟩

/-- Of an interface that is being completed, the ones left are those that are not being completed yet. -/
theorem length_unvisited_cons {visiting : List TypeId} (h : id ∈ t.unvisited visiting) :
    (t.unvisited (id :: visiting)).length + 1 ≤ (t.unvisited visiting).length := by
  have hnodup : (id :: t.unvisited (id :: visiting)).Nodup := by
    refine List.nodup_cons.2 ⟨fun hmem => ?_, nodup_unvisited _ _⟩
    exact (mem_unvisited.1 hmem).2 List.mem_cons_self
  refine (hnodup.subperm fun id' hid' => ?_).length_le
  rcases List.mem_cons.1 hid' with rfl | hid'
  · exact h
  · obtain ⟨hincomplete, hnot⟩ := mem_unvisited.1 hid'
    exact mem_unvisited.2 ⟨hincomplete, fun hmem => hnot (List.mem_cons_of_mem _ hmem)⟩

end Table

/-! ## Properties that last

Substitution and the filling in of instances do the same things again and again. What holds of each of these things, and of
one after the other, holds of them all.
-/

namespace Expansion

variable {α β : Type}

/-- A property that computations have if their steps have it: reading the table and entering types and functions. -/
structure Lasts (P : (α : Type) → Expansion α → Prop) : Prop where
  pure : ∀ {α : Type} (a : α), P α (Pure.pure a)
  bind : ∀ {α β : Type} {x : Expansion α} {f : α → Expansion β}, P α x → (∀ a, P β (f a)) → P β (x >>= f)
  getTable : P Table get
  push : ∀ {ty : Ty}, ty.isSettled = true → P TypeId (liftM (Build.push ty))
  newFunc : ∀ f : Func, P FuncId (liftM (Build.newFunc f))

namespace Lasts

variable {P : (α : Type) → Expansion α → Prop} {n : Nat}

variable {as : List α}

theorem mapM (hP : Lasts P) {f : α → Expansion β} (hf : ∀ a ∈ as, P β (f a)) : P (List β) (as.mapM f) := by
  induction as with
  | nil =>
    rw [List.mapM_nil]
    exact hP.pure []
  | cons a as ih =>
    rw [List.mapM_cons]
    exact hP.bind (hf a (by simp)) fun _ => hP.bind (ih fun a' ha' => hf a' (by simp [ha'])) fun _ => hP.pure _

theorem forM (hP : Lasts P) {f : α → Expansion Unit} (hf : ∀ a ∈ as, P Unit (f a)) : P Unit (as.forM f) := by
  induction as with
  | nil => exact hP.pure ()
  | cons a as ih => exact hP.bind (hf a (by simp)) fun _ => ih fun a' ha' => hf a' (by simp [ha'])

theorem forIn (hP : Lasts P) {init : β} {f : α → β → Expansion (ForInStep β)} (hf : ∀ a ∈ as, ∀ b, P (ForInStep β) (f a b)) :
    P β (ForIn.forIn as init f) := by
  induction as generalizing init with
  | nil =>
    rw [List.forIn_nil]
    exact hP.pure init
  | cons a as ih =>
    rw [List.forIn_cons]
    refine hP.bind (hf a (by simp) init) fun step => ?_
    cases step with
    | done b => exact hP.pure b
    | yield b => exact ih fun a' ha' => hf a' (by simp [ha'])

theorem enter (hP : Lasts P) (p : Ty → Bool) {ty : Ty} (hty : ty.isSettled = true) :
    P TypeId (liftM (do
      match (← get).find? p with
      | some id => return id
      | none => Build.push ty : Build TypeId)) := by
  have heq : (liftM (do
      match (← get).find? p with
      | some id => return id
      | none => Build.push ty : Build TypeId) : Expansion TypeId) = get >>= fun t =>
        match t.find? p with
        | some id => Pure.pure id
        | none => liftM (Build.push ty) := by
    funext t
    show some (StateT.run (do
      match (← get).find? p with
      | some id => return id
      | none => Build.push ty : Build TypeId) t) = StateT.run (match t.find? p with
        | some id => (Pure.pure id : Expansion TypeId)
        | none => liftM (Build.push ty)) t
    rw [StateT.run_bind, StateT.run_get, pure_bind]
    cases t.find? p <;> rfl
  rw [heq]
  refine hP.bind hP.getTable fun t => ?_
  split
  · exact hP.pure _
  · exact hP.push hty

theorem fill (hP : Lasts P) {inst : TypeId} (hmodify : ∀ f : Named → Named, (∀ d, (f d).expanded = d.expanded) →
      (∀ d, (f d).origin = d.origin) → P Unit (modify (·.modifyNamed inst f)))
    {depth : Nat} (hsubst : ∀ map id, P TypeId (Expansion.subst n map (depth + 1) id))
    (hcomplete : ∀ id, P Unit (Expansion.complete n [] id)) (origin : TypeId) (typeArgs : List TypeId) :
    P Unit (Expansion.fill n inst origin typeArgs depth) := by
  unfold Expansion.fill
  refine hP.bind hP.getTable fun t₁ => ?_
  split
  · exact hP.pure ()
  · rename_i d _
    refine hP.bind (hsubst _ d.rhs) fun rhs => ?_
    refine hP.bind (hmodify _ (fun _ => rfl) fun _ => rfl) fun _ => ?_
    refine hP.bind (hP.forIn fun m _ _ => ?_) fun _ => hP.bind hP.getTable fun t₂ => hcomplete _
    refine hP.bind hP.getTable fun t₂ => hP.bind (hsubst _ _) fun sig => hP.bind (hP.newFunc _) fun copy => ?_
    exact hP.bind (hmodify _ (fun _ => rfl) fun _ => rfl) fun _ => hP.pure _

theorem subst_succ (hP : Lasts P) {map : Subst} {depth : Nat}
    (hsubst : depth ≤ maxSubstDepth → ∀ id, P TypeId (Expansion.subst n map (depth + 1) id))
    (hinstantiate : depth ≤ maxSubstDepth → ∀ origin args, P TypeId (Expansion.instantiate n origin args (depth + 1)))
    (hnew : depth ≤ maxSubstDepth → ∀ explicit embedded, P TypeId (Expansion.newInterface n explicit embedded))
    (id : TypeId) : P TypeId (Expansion.subst (n + 1) map depth id) := by
  unfold Expansion.subst
  split
  · exact hP.pure _
  rename_i hdepth
  replace hsubst := hsubst (Nat.le_of_not_gt hdepth)
  replace hinstantiate := hinstantiate (Nat.le_of_not_gt hdepth)
  replace hnew := hnew (Nat.le_of_not_gt hdepth)
  have hsubsts : ∀ ids : List TypeId, P (List TypeId) (ids.mapM (Expansion.subst n map (depth + 1))) :=
    fun ids => hP.mapM fun id _ => hsubst id
  -- a type in which nothing is replaced stays itself
  have hunless : ∀ {p : Prop} [Decidable p] {x : Expansion TypeId}, P TypeId x → P TypeId (if p then Pure.pure id else x) := by
    intro p _ x hx
    split
    · exact hP.pure _
    · exact hx
  refine hP.bind hP.getTable fun t₁ => ?_
  split
  · exact hP.pure _
  · exact hP.pure _
  · exact hP.pure _
  · split
    · exact hP.bind (hsubsts _) fun args => hunless (hinstantiate _ args)
    · split
      · exact hP.pure _
      · exact hP.bind (hsubsts _) fun args => hunless (hinstantiate _ args)
  · exact hP.bind (hsubst _) fun e => hunless (hP.enter _ rfl)
  · exact hP.bind (hsubst _) fun e => hunless (hP.enter _ rfl)
  · exact hP.bind (hsubst _) fun e => hunless (hP.push rfl)
  · exact hP.bind (hsubst _) fun key => hP.bind (hsubst _) fun value => hunless (hP.push rfl)
  · exact hP.bind (hsubst _) fun e => hunless (hP.push rfl)
  · exact hP.bind (hsubsts _) fun elems => hunless (hP.push rfl)
  · exact hP.bind (hsubsts _) fun params => hP.bind (hsubsts _) fun results => hunless (hP.push rfl)
  · exact hP.bind (hP.mapM fun f _ => hsubst f.type) fun types => hunless (hP.push rfl)
  · exact hP.bind (hP.mapM fun term _ => hsubst term.type) fun types => hunless (hP.push rfl)
  · refine hP.bind (hP.mapM fun m _ => ?_) fun explicit => hP.bind (hsubsts _) fun embedded => ?_
    · refine hP.bind hP.getTable fun t₂ => hP.bind (hsubst _) fun sig => ?_
      split
      · exact hP.pure _
      · exact hP.newFunc _
    · exact hunless (hnew explicit embedded)

end Lasts

end Expansion

/-! ## Computations that end -/

namespace Expansion

variable {α β : Type} {t t₀ : Table}

/-- On the table, the computation does not run out of its bound, leaves nothing new waiting, and `Q` holds of the table
afterwards. -/
def EndsOn (t : Table) (x : Expansion α) (Q : Table → Prop) : Prop :=
  ∃ a t', StateT.run x t = some (a, t') ∧ t.Shrinks t' ∧ Q t'

/-- The computation ends on all tables on which no more waits than on `t₀`. -/
def Ends (t₀ : Table) (x : Expansion α) : Prop := ∀ t, t₀.Shrinks t → EndsOn t x fun _ => True

namespace EndsOn

variable {Q R : Table → Prop}

theorem pure {a : α} (h : Q t) : EndsOn t (Pure.pure a : Expansion α) Q := ⟨a, t, rfl, .refl t, h⟩

theorem post {x : Expansion α} (h : EndsOn t x Q) (hQR : ∀ t', Q t' → R t') : EndsOn t x R := by
  obtain ⟨a, t', hrun, hshrinks, hQ⟩ := h
  exact ⟨a, t', hrun, hshrinks, hQR t' hQ⟩

theorem bind {x : Expansion α} {f : α → Expansion β} (hx : EndsOn t x Q)
    (hf : ∀ a t', t.Shrinks t' → Q t' → EndsOn t' (f a) R) : EndsOn t (x >>= f) R := by
  obtain ⟨a, t', hrun, hshrinks, hQ⟩ := hx
  obtain ⟨b, t'', hrun', hshrinks', hR⟩ := hf a t' hshrinks hQ
  refine ⟨b, t'', ?_, hshrinks.trans hshrinks', hR⟩
  rw [StateT.run_bind, hrun]
  exact hrun'

/-- A computation that starts with reading the table goes on from this table. -/
theorem ofTable {f : Table → Expansion α} (h : EndsOn t (f t) Q) : EndsOn t (get >>= f) Q := h

end EndsOn

namespace Ends

theorem pure (a : α) : Ends t₀ (Pure.pure a : Expansion α) := fun _ _ => .pure trivial

theorem bind {x : Expansion α} {f : α → Expansion β} (hx : Ends t₀ x) (hf : ∀ a, Ends t₀ (f a)) : Ends t₀ (x >>= f) :=
  fun t ht => (hx t ht).bind fun a t' ht' _ => hf a t' (ht.trans ht')

theorem getTable : Ends t₀ (get : Expansion Table) := fun t _ => ⟨t, t, rfl, .refl t, trivial⟩

theorem change {f : Table → Table} (hf : ∀ t : Table, t.Shrinks (f t)) : Ends t₀ (modify f : Expansion Unit) :=
  fun t _ => ⟨(), f t, rfl, hf t, trivial⟩

theorem lasts : Lasts fun _ x => Ends t₀ x where
  pure := pure
  bind := bind
  getTable := getTable
  push hty := fun _ _ => ⟨_, _, rfl, .push (Ty.isOpen_of_isSettled hty), trivial⟩
  newFunc _ := fun _ _ => ⟨_, _, rfl, ⟨rfl, fun _ h => h, fun _ h => h⟩, trivial⟩

end Ends

/-! ## Levels of nesting -/

/-- For every instance that waits there may be so many levels. -/
def levelsEach (k : Nat) : Nat := k + 140

/-- Levels for the completion of any interface. -/
def levels (u k : Nat) : Nat := u * levelsEach k + k + 3

/-- Levels for substitution at some depth, before it comes to an interface or an instance. -/
def substLevels (depth : Nat) : Nat := 2 * (maxSubstDepth + 2 - depth)

/-- With `n` levels of nesting, the five activities end on tables where no more than `k` types wait. -/
structure Enough (k n : Nat) : Prop where
  instantiate : ∀ u t, t.Fits u k → ∀ origin args depth, levels u k + substLevels (depth + 1) + 3 ≤ n →
    EndsOn t (instantiate n origin args depth) fun _ => True
  expand : ∀ u t, t.Fits u (k + 1) → ∀ inst depth, 1 ≤ n →
    (∀ v, u = v + 1 → levels v k + substLevels (depth + 1) + 2 ≤ n) →
    EndsOn t (expand n inst depth) fun t => (t.get inst).isUnexpanded = false
  subst : ∀ u t, t.Fits u k → ∀ map depth id, levels u k + substLevels depth + 1 ≤ n →
    EndsOn t (subst n map depth id) fun _ => True
  newInterface : ∀ u t, t.Fits u k → ∀ explicit embedded, levels u k + 1 ≤ n →
    EndsOn t (newInterface n explicit embedded) fun _ => True
  complete : ∀ u t, t.Fits u (k + 1) → ∀ f visiting id, (t.unvisited visiting).length ≤ f → u * levelsEach k + f + 2 ≤ n →
    EndsOn t (complete n visiting id) fun t => visiting.contains id = false → (t.get id).isIncomplete = false

theorem shrinks_completed {id : TypeId} {methods : List FuncId} {hasTerms : Bool} :
    t.Shrinks (t.modifyInterface id fun i => { i with methods, complete := true, hasTerms }) := by
  refine .modifyType (fun ty h => ?_) fun ty h => ?_
  · cases ty with
    | interface i => cases h
    | _ => exact h
  · cases ty with
    | interface i => simp [Ty.isIncomplete] at h
    | _ => exact h

theorem isIncomplete_get_completed {id : TypeId} {methods : List FuncId} {hasTerms : Bool} :
    ((t.modifyInterface id fun i => { i with methods, complete := true, hasTerms }).get id).isIncomplete = false := by
  refine Table.get_modifyType_closed rfl fun ty => ?_
  cases ty <;> rfl

namespace Enough

variable {k n u : Nat}

theorem instantiate_succ (ih : Enough k n) (hfits : t.Fits u k) (origin : TypeId) (args : List TypeId) (depth : Nat)
    (hn : levels u k + substLevels (depth + 1) + 3 ≤ n + 1) :
    EndsOn t (Expansion.instantiate (n + 1) origin args depth) fun _ => True := by
  unfold Expansion.instantiate
  refine .ofTable ?_
  split
  · exact .pure trivial
  · dsimp only
    split
    · exact .pure trivial
    · rename_i d₀ _ d _
      split
      · exact .pure trivial
      split
      · exact .pure trivial
      split
      · exact .pure trivial
      split
      · exact .pure trivial
      · generalize hnew : Ty.named (Named.mk d.name _ _ _ _ _ _ _) = new
        have hpushed : { t with types := t.types.push new : Table }.Fits (u + 1) (k + 1) := by
          rw [← hnew]
          exact hfits.pushInstance
        -- the new instance is filled in at once
        obtain ⟨_, t', hrun, hshrinks, hfilled⟩ := ih.expand (u + 1) _ hpushed ⟨t.types.size⟩ depth (by omega)
          fun v hv => by cases hv; omega
        refine ⟨⟨t.types.size⟩, t', ?_, .of_push hshrinks (fun _ => hfilled) fun h => ?_, trivial⟩
        · simp only [hfits.deferring, Bool.not_false, if_true]
          show StateT.run (do
            Expansion.expand n ⟨t.types.size⟩ depth
            Pure.pure (⟨t.types.size⟩ : TypeId)) { t with types := t.types.push new : Table } = _
          rw [StateT.run_bind, hrun]
          rfl
        · rw [← hnew] at h
          cases h

theorem newInterface_succ (ih : Enough k n) (hfits : t.Fits u k) (explicit : List FuncId) (embedded : List TypeId)
    (hn : levels u k + 1 ≤ n + 1) : EndsOn t (Expansion.newInterface (n + 1) explicit embedded) fun _ => True := by
  unfold Expansion.newInterface
  generalize hnew : Ty.interface (Interface.mk explicit embedded _ _ _) = new
  have hpushed : { t with types := t.types.push new : Table }.Fits u (k + 1) := by
    rw [← hnew]
    exact hfits.pushInterface
  unfold levels at hn
  obtain ⟨_, t', hrun, hshrinks, hcompleted⟩ := ih.complete u _ hpushed (k + 1) [] ⟨t.types.size⟩
    (hpushed.length_unvisited_le []) (by omega)
  refine ⟨⟨t.types.size⟩, t', ?_, .of_push hshrinks (fun h => ?_) fun _ => hcompleted rfl, trivial⟩
  · show StateT.run (if (!t.deferring) = true then (do
      Expansion.complete n [] ⟨t.types.size⟩
      Pure.pure (⟨t.types.size⟩ : TypeId)) else Pure.pure (⟨t.types.size⟩ : TypeId))
        { t with types := t.types.push new : Table } = _
    rw [if_pos (by simp [hfits.deferring]), StateT.run_bind, hrun]
    rfl
  · rw [← hnew] at h
    cases h

theorem subst_of_shrinks (ih : Enough k n) (hfits : t.Fits u k) (map : Subst) (depth : Nat)
    (hn : levels u k + substLevels depth + 1 ≤ n) (id : TypeId) : Ends t (Expansion.subst n map depth id) :=
  fun t' ht' => ih.subst u t' (hfits.of_shrinks ht') map depth id hn

/-- The declaration of an instance may be changed in any way that keeps the mark. -/
theorem ends_modifyNamed {inst : TypeId} {f : Named → Named} (hf : ∀ d, (f d).expanded = d.expanded)
    (horigin : ∀ d, (f d).origin = d.origin) : Ends t (modify (·.modifyNamed inst f) : Expansion Unit) := by
  refine .change fun t' => .modifyType (fun ty h => ?_) fun ty h => ?_
  · cases ty with
    | named d => simpa [Ty.isUnexpanded, hf, horigin] using h
    | _ => exact h
  · cases ty with
    | named d => cases h
    | _ => exact h

theorem ends_fill (ih : Enough k n) (hfits : t.Fits u k) (inst origin : TypeId) (typeArgs : List TypeId) (depth : Nat)
    (hn : levels u k + substLevels (depth + 1) + 1 ≤ n) : Ends t (fill n inst origin typeArgs depth) := by
  refine Ends.lasts.fill (fun f hf horigin => ends_modifyNamed hf horigin)
    (fun map id => ih.subst_of_shrinks hfits map (depth + 1) hn id) (fun id t' ht' => ?_) origin typeArgs
  have hfits' := hfits.of_shrinks ht'
  unfold levels at hn
  exact (ih.complete u t' hfits'.mono k [] id (hfits'.length_unvisited_le []) (by omega)).post fun _ _ => trivial

theorem expand_succ (ih : Enough k n) (hfits : t.Fits u (k + 1)) (inst : TypeId) (depth : Nat)
    (hn : ∀ v, u = v + 1 → levels v k + substLevels (depth + 1) + 2 ≤ n + 1) :
    EndsOn t (Expansion.expand (n + 1) inst depth) fun t => (t.get inst).isUnexpanded = false := by
  rw [expand_eq_fill]
  refine .ofTable ?_
  split
  · rename_i name package rhs methods typeParams origin typeArgs hinst
    have hopen : (t.get inst).isUnexpanded = true := by
      rw [named?_eq_some hinst]
      rfl
    obtain ⟨v, hv, hmarked⟩ := hfits.marked hopen
    have hfill := ih.ends_fill hmarked inst origin typeArgs depth (by have := hn v hv; omega)
    obtain ⟨a, t', hrun, hshrinks, -⟩ := hfill _ (.refl _)
    refine ⟨a, t', hrun, Table.shrinks_marked.trans hshrinks, ?_⟩
    by_contra hwaits
    have hwaits := hshrinks.unexpanded inst (by simpa using hwaits)
    rw [Table.isUnexpanded_get_marked] at hwaits
    cases hwaits
  · rename_i hother
    exact .pure (isUnexpanded_get_of_named? hother)

theorem subst_succ (ih : Enough k n) (hfits : t.Fits u k) (map : Subst) (depth : Nat) (id : TypeId)
    (hn : levels u k + substLevels depth + 1 ≤ n + 1) : Ends t (Expansion.subst (n + 1) map depth id) := by
  have hnext : depth ≤ maxSubstDepth → substLevels depth = substLevels (depth + 1) + 2 ∧
      substLevels (depth + 1) = substLevels (depth + 1 + 1) + 2 := by unfold substLevels; omega
  refine Ends.lasts.subst_succ (fun hdepth => ?_) (fun hdepth origin args t' ht' => ?_)
    (fun hdepth explicit embedded t' ht' => ?_) id
  · exact ih.subst_of_shrinks hfits map (depth + 1) (by have := hnext hdepth; omega)
  · exact ih.instantiate u t' (hfits.of_shrinks ht') origin args (depth + 1) (by have := hnext hdepth; omega)
  · exact ih.newInterface u t' (hfits.of_shrinks ht') explicit embedded (by have := hnext hdepth; omega)

theorem complete_succ (ih : Enough k n) (hfits : t.Fits u (k + 1)) (f : Nat) (visiting : List TypeId) (id : TypeId)
    (hf : (t.unvisited visiting).length ≤ f) (hn : u * levelsEach k + f + 2 ≤ n + 1) :
    EndsOn t (Expansion.complete (n + 1) visiting id) fun t =>
      visiting.contains id = false → (t.get id).isIncomplete = false := by
  unfold Expansion.complete
  refine .ofTable ?_
  split
  · rename_i i hget
    split
    · rename_i hdone
      refine .pure fun hnot => ?_
      rw [hnot, Bool.or_false] at hdone
      rw [hget]
      simp [Ty.isIncomplete, hdone]
    · rename_i hopen
      -- the interface itself is one of those that are left
      have hmem : id ∈ t.unvisited visiting := by
        rw [Table.mem_unvisited, hget]
        simpa [Ty.isIncomplete] using hopen
      have hless := Table.length_unvisited_cons hmem
      dsimp only
      refine .bind ((Ends.lasts.forIn fun embed _ s => ?_ : Ends t _) t (.refl t)) fun s t₁ ht₁ _ => ?_
      · have hexpand : Ends t (Expansion.expand n embed 0) := by
          intro t₁ ht₁
          refine (ih.expand u t₁ (hfits.of_shrinks ht₁) embed 0 (by omega) fun v hv => ?_).post fun _ _ => trivial
          have hlevels : levels v k + substLevels (0 + 1) + 2 ≤ (v + 1) * levelsEach k := by
            unfold levels substLevels levelsEach maxSubstDepth
            rw [Nat.add_mul]
            omega
          subst hv
          omega
        refine .bind hexpand fun _ => .bind .getTable fun t₂ => .bind .getTable fun t₃ => ?_
        split
        · refine .bind (fun t₄ ht₄ => ?_) fun _ => .bind .getTable fun t₄ => ?_
          · have hleft := ht₄.length_unvisited (id :: visiting)
            exact (ih.complete u t₄ (hfits.of_shrinks ht₄) (f - 1) (id :: visiting) _ (by omega) (by omega)).post
              fun _ _ => trivial
          · split
            · exact .pure _
            · exact .pure _
        · exact .pure _
        · exact .pure _
      · refine .ofTable ?_
        exact ⟨(), _, rfl, shrinks_completed, fun _ => isIncomplete_get_completed⟩
  · rename_i hother
    refine .pure fun _ => ?_
    cases hget : t.get id with
    | interface i => exact absurd hget (hother i)
    | _ => rfl

end Enough

/-- Instances, substitution and the completion of interfaces end. -/
theorem enough (k n : Nat) : Enough k n := by
  induction n with
  | zero =>
    refine ⟨fun u t _ origin args depth hn => ?_, fun u t _ inst depth hn _ => ?_, fun u t _ map depth id hn => ?_,
      fun u t _ explicit embedded hn => ?_, fun u t _ f visiting id _ hn => ?_⟩
    all_goals omega
  | succ n ih =>
    exact {
      instantiate := fun u t hfits => ih.instantiate_succ hfits
      expand := fun u t hfits inst depth _ => ih.expand_succ hfits inst depth
      subst := fun u t hfits map depth id hn => ih.subst_succ hfits map depth id hn t (.refl t)
      newInterface := fun u t hfits => ih.newInterface_succ hfits
      complete := fun u t hfits => ih.complete_succ hfits }

theorem endsOn_endDeclarations (t : Table) (order : List TypeId) :
    ∃ t', StateT.run (endDeclarations t.expansionBound order) t = some ((), t') ∧ t'.deferring = false := by
  have hfits := Table.Fits.size t
  generalize hsize : t.types.size = k at hfits
  have hbound : k * levelsEach k + k + 3 + 132 ≤ t.expansionBound := by
    unfold Table.expansionBound levelsEach
    rw [hsize, Nat.add_mul, Nat.mul_add, Nat.mul_add]
    omega
  have hcomplete : ∀ id, Ends { t with deferring := false } (complete t.expansionBound [] id) := by
    intro id t' ht'
    have hfits' := hfits.of_shrinks ht'
    exact ((enough k _).complete k t' hfits'.mono k [] id (hfits'.length_unvisited_le []) (by omega)).post fun _ _ => trivial
  have hexpand : ∀ id, Ends { t with deferring := false } (expand t.expansionBound id 0) := by
    intro id t' ht'
    refine ((enough k _).expand k t' (hfits.of_shrinks ht').mono id 0 (by omega) fun v hv => ?_).post fun _ _ => trivial
    have hless : levels v k ≤ k * levelsEach k + k + 3 := by
      have := Nat.mul_le_mul_right (levelsEach k) (Nat.le_of_lt (Nat.lt_of_lt_of_eq (Nat.lt_succ_self v) hv.symm))
      unfold levels
      omega
    have hsubst : substLevels (0 + 1) = 130 := rfl
    omega
  have hrest : Ends { t with deferring := false } (do
      order.forM (complete t.expansionBound [])
      (← get).unexpanded.forM fun inst => expand t.expansionBound inst 0
      (← get).incomplete.forM (complete t.expansionBound [])) := by
    refine .bind (Ends.lasts.forM fun id _ => hcomplete id) fun _ => .bind .getTable fun t₁ => ?_
    exact .bind (Ends.lasts.forM fun id _ => hexpand id) fun _ => .bind .getTable fun t₂ => Ends.lasts.forM fun id _ => hcomplete id
  obtain ⟨⟨⟩, t', hrun, hshrinks, -⟩ := hrest _ (.refl _)
  exact ⟨t', hrun, hshrinks.deferring⟩

end Expansion

theorem Build.deferring_endDeclarations (order : List TypeId) (t : Table) :
    ((endDeclarations order).run t).2.deferring = false := by
  obtain ⟨t', hrun, hdeferring⟩ := Expansion.endsOn_endDeclarations t order
  have heq : (endDeclarations order).run t =
      (StateT.run (Expansion.endDeclarations t.expansionBound order) t).getD (default, t) := rfl
  rw [heq, hrun]
  exact hdeferring

end UnusedMethods.Types
