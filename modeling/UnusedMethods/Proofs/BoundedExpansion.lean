import UnusedMethods.Proofs.DeclarationsEnd
import UnusedMethods.Proofs.InStep

/-!
# Expansion comes to an end

Generic types may grow without end, as `type T[P any] struct { next *T[[]P] }` does, but what is made of them does not. While
declarations are read nothing is filled in, and substitution stops at its greatest depth. Afterwards an instance is filled in
as soon as it is made, one level deeper than what asks for it. Only an instance that an interface embeds is filled in from
depth zero, and only if it has been waiting since the declarations were read. It does not wait any more then.
-/

namespace UnusedMethods.Types.Expansion

variable {α : Type} {t : Table}

/-! ## While declarations are read -/

/-- The computation ends on all tables of declarations that are being read. -/
def EndsDeferring (x : Expansion α) : Prop :=
  ∀ t : Table, t.deferring = true → ∃ a t', StateT.run x t = some (a, t') ∧ t'.deferring = true

theorem EndsDeferring.lasts : Lasts fun _ x => EndsDeferring x where
  pure a := fun t ht => ⟨a, t, rfl, ht⟩
  bind hx hf := by
    intro t ht
    obtain ⟨a, t', hrun, ht'⟩ := hx t ht
    obtain ⟨b, t'', hrun', ht''⟩ := hf a t' ht'
    exact ⟨b, t'', by rw [StateT.run_bind, hrun]; exact hrun', ht''⟩
  getTable := fun t ht => ⟨t, t, rfl, ht⟩
  push _ := fun _ ht => ⟨_, _, rfl, ht⟩
  newFunc _ := fun _ ht => ⟨_, _, rfl, ht⟩

theorem endsDeferring_instantiate (n : Nat) (origin : TypeId) (args : List TypeId) (depth : Nat) :
    EndsDeferring (instantiate (n + 1) origin args depth) := by
  intro t ht
  have hpure (id : TypeId) : ∃ a t', StateT.run (pure id : Expansion TypeId) t = some (a, t') ∧ t'.deferring = true :=
    ⟨id, t, rfl, ht⟩
  unfold instantiate
  rw [run_get]
  split
  · exact hpure _
  · dsimp only
    split
    · exact hpure _
    · split
      · exact hpure _
      split
      · exact hpure _
      split
      · exact hpure _
      split
      · exact hpure _
      · simp only [ht, Bool.not_true, Bool.false_eq_true, if_false]
        exact ⟨_, _, rfl, ht⟩

theorem endsDeferring_newInterface (n : Nat) (explicit : List FuncId) (embedded : List TypeId) :
    EndsDeferring (newInterface (n + 1) explicit embedded) := by
  intro t ht
  exact ⟨_, _, run_newInterface_deferring ht n explicit embedded, ht⟩

theorem endsDeferring_subst {n depth : Nat} (h : maxSubstDepth + 2 - depth < n) (map : Subst) (id : TypeId) :
    EndsDeferring (subst n map depth id) := by
  induction n generalizing depth id with
  | zero => omega
  | succ n ih =>
    refine EndsDeferring.lasts.subst_succ (fun hdepth id => ih (by omega) id) (fun hdepth origin args => ?_)
      (fun hdepth explicit embedded => ?_) id
    all_goals obtain ⟨m, rfl⟩ : ∃ m, n = m + 1 := ⟨n - 1, by omega⟩
    · exact endsDeferring_instantiate m origin args _
    · exact endsDeferring_newInterface m explicit embedded

/-! ## Afterwards -/

/-- The computation ends within the bound that the table provides. Outside of declarations, no instance waits afterwards
that did not wait before. -/
def Returns (t : Table) (x : Nat → Expansion α) : Prop :=
  ∃ a t', StateT.run (x t.expansionBound) t = some (a, t') ∧ (t.deferring = false → t.Shrinks t')

theorem EndsDeferring.returns {x : Nat → Expansion α} (h : EndsDeferring (x t.expansionBound)) (ht : t.deferring = true) :
    Returns t x := by
  obtain ⟨a, t', hrun, -⟩ := h t ht
  exact ⟨a, t', hrun, fun hnot => by simp [ht] at hnot⟩

theorem EndsOn.returns {x : Nat → Expansion α} {Q : Table → Prop} (h : EndsOn t (x t.expansionBound) Q) : Returns t x := by
  obtain ⟨a, t', hrun, hshrinks, -⟩ := h
  exact ⟨a, t', hrun, fun _ => hshrinks⟩

theorem fits_size (ht : t.deferring = false) : t.Fits t.types.size t.types.size := by
  have hfits := Table.Fits.size t
  rwa [← ht] at hfits

/-- The bound is large enough for each of the activities, if all types of the table wait. -/
theorem levels_le_expansionBound (t : Table) : levels t.types.size t.types.size + 140 ≤ t.expansionBound := by
  unfold levels levelsEach Table.expansionBound
  rw [Nat.add_mul, Nat.mul_add, Nat.mul_add]
  omega

/-- Expansion ends on every table. While declarations are read this is so for instances and substitution; interfaces are
completed when they end or later. An instance that is filled in from depth zero has been waiting: for other types nothing
happens. It does not wait afterwards, and outside of declarations nothing begins to wait, so this happens once for every
instance that was left over. What substitution does at some depth, beyond entering types and functions, it does by
substitution and by instances one level deeper and by new interfaces, and beyond the greatest depth it does nothing. An
instance is filled in at some depth by substitution one level deeper, and the interface that it may be is completed. -/
theorem expansion_returns (t : Table) :
    (∀ origin args, Returns t fun n => instantiate n origin args 0) ∧
    (∀ map id, Returns t fun n => subst n map 0 id) ∧
    (∀ order, ∃ t', StateT.run (endDeclarations t.expansionBound order) t = some ((), t') ∧ t'.deferring = false) ∧
    (t.deferring = false → (∀ id, Returns t fun n => complete n [] id) ∧
      ∀ inst, ∃ t', StateT.run (expand t.expansionBound inst 0) t = some ((), t') ∧ t.Shrinks t' ∧
        (t'.get inst).isUnexpanded = false) ∧
    (∀ inst n, (t.get inst).isUnexpanded = false → StateT.run (expand (n + 1) inst 0) t = some ((), t)) ∧
    ∀ P, Lasts P → ∀ n depth,
      (∀ map, (depth ≤ maxSubstDepth → (∀ id, P TypeId (subst n map (depth + 1) id)) ∧
          (∀ origin args, P TypeId (instantiate n origin args (depth + 1))) ∧
          ∀ explicit embedded, P TypeId (newInterface n explicit embedded)) →
        ∀ id, P TypeId (subst (n + 1) map depth id)) ∧
      ∀ inst, (∀ f, P Unit (modify (·.modifyNamed inst f))) → (∀ map id, P TypeId (subst n map (depth + 1) id)) →
        (∀ id, P Unit (complete n [] id)) → P Unit (expand (n + 1) inst depth) := by
  have hbound := levels_le_expansionBound t
  have henough := enough t.types.size t.expansionBound
  have hpositive : ∃ m, t.expansionBound = m + 1 := ⟨t.expansionBound - 1, by omega⟩
  have hsubst : substLevels 0 = 132 ∧ substLevels (0 + 1) = 130 := ⟨rfl, rfl⟩
  refine ⟨fun origin args => ?_, fun map id => ?_, endsOn_endDeclarations t, fun ht => ⟨fun id => ?_, fun inst => ?_⟩,
    fun inst n h => run_expand_of_filled h n 0, fun P hP n depth => ⟨fun map h => ?_, fun inst hmodify hsubst hcomplete => ?_⟩⟩
  · cases ht : t.deferring with
    | true =>
      obtain ⟨m, hm⟩ := hpositive
      exact EndsDeferring.returns (hm ▸ endsDeferring_instantiate m origin args 0) ht
    | false => exact (henough.instantiate _ t (fits_size ht) origin args 0 (by omega)).returns
  · cases ht : t.deferring with
    | true => exact EndsDeferring.returns (endsDeferring_subst (by unfold maxSubstDepth; omega) map id) ht
    | false => exact (henough.subst _ t (fits_size ht) map 0 id (by omega)).returns
  · have hlevels : t.types.size * levelsEach t.types.size + t.types.size + 2 ≤ t.expansionBound := by
      unfold levels at hbound
      omega
    exact (henough.complete _ t (fits_size ht).mono _ [] id ((fits_size ht).length_unvisited_le []) hlevels).returns
  · have hless (v : Nat) (hv : t.types.size = v + 1) : levels v t.types.size ≤ levels t.types.size t.types.size := by
      have hmul := Nat.mul_le_mul_right (levelsEach t.types.size) (Nat.le_of_lt (Nat.lt_of_succ_le (Nat.le_of_eq hv.symm)))
      unfold levels
      omega
    obtain ⟨_, t', hrun, hshrinks, hfilled⟩ := henough.expand _ t (fits_size ht).mono inst 0 (by omega) fun v hv => by
      have := hless v hv
      omega
    exact ⟨t', hrun, hshrinks, hfilled⟩
  · exact hP.subst_succ (fun hdepth => (h hdepth).1) (fun hdepth => (h hdepth).2.1) fun hdepth => (h hdepth).2.2
  · rw [expand_eq_fill]
    refine hP.bind hP.getTable fun t₁ => ?_
    split
    · refine hP.bind (hmodify _) fun _ => ?_
      exact hP.fill (fun f _ _ => hmodify f) hsubst hcomplete _ _
    · exact hP.pure ()

/-- A generic type with a field that refers to its instance for slices, which waits to be filled in. -/
def growingTable : Table :=
  { Table.predeclared with
    types := Table.predeclared.types ++
      #[.typeParam ⟨"P", 0, .emptyInterface⟩, .slice ⟨31⟩, .named ⟨"T", "app", ⟨36⟩, [], [⟨31⟩], none, [], true⟩,
        .named ⟨"T", "app", .invalid, [], [], some ⟨33⟩, [⟨32⟩], false⟩, .pointer ⟨34⟩, .struct [⟨"next", ⟨35⟩, false⟩]] }

/-- An instance of the type can be made, and the one that waits is filled in. -/
theorem growingTable_returns : (growingTable.get ⟨34⟩).isUnexpanded = true ∧
    Returns growingTable (fun n => instantiate n ⟨33⟩ [BasicKind.int.typeId] 0) ∧
    ∃ t', StateT.run (expand growingTable.expansionBound ⟨34⟩ 0) growingTable = some ((), t') ∧
      growingTable.Shrinks t' ∧ (t'.get ⟨34⟩).isUnexpanded = false := by
  obtain ⟨hinstantiate, -, -, hafterwards, -⟩ := expansion_returns growingTable
  exact ⟨by decide, hinstantiate _ _, (hafterwards rfl).2 ⟨34⟩⟩

end UnusedMethods.Types.Expansion
