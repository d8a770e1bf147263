import Mathlib.Logic.Relation
import UnusedMethods.Types.Generics

/-!
# Types that a substitution leaves alone

A substitution goes down into the parts of a type and puts a new type together only where a part has changed. So it gives
back the very type that it is given, and leaves the table as it is, if none of the type parameters that it replaces occurs
in the type and the type is not nested deeper than substitution goes.
-/

namespace UnusedMethods.Types

/-! ## Steps that leave the table alone -/

section Runs

variable {α β : Type} {t : Table}

theorem Expansion.bind_of_run {x : Expansion α} {a : α} (h : x t = some (a, t)) (f : α → Expansion β) :
    (x >>= f) t = f a t := by
  show (x t).bind _ = _
  rw [h]
  rfl

theorem Expansion.mapM_of_run {f : α → Expansion β} {g : α → β} {as : List α} (h : ∀ a ∈ as, f a t = some (g a, t)) :
    as.mapM f t = some (as.map g, t) := by
  induction as with
  | nil => rfl
  | cons a as ih =>
    obtain ⟨ha, has⟩ := List.forall_mem_cons.1 h
    rw [List.mapM_cons, bind_of_run ha, bind_of_run (ih has)]
    rfl

end Runs

/-! ## What occurs in a type -/

namespace Table

/-- The types that a substitution looks into when it comes to a type: components, fields and terms, the arguments of an
instance, the parameters of a generic type, and the methods and embeddings of an interface. -/
def partsOf (t : Table) (id : TypeId) : List TypeId :=
  match t.get id with
  | .invalid | .basic _ | .typeParam _ => []
  | .named d =>
    match d.origin with
    | some _ => d.typeArgs
    | none => d.typeParams
  | .pointer elem | .slice elem | .array _ elem | .chan _ elem => [elem]
  | .map key value => [key, value]
  | .tuple elems => elems
  | .signature s => s.params ++ s.results
  | .struct fields => fields.map (·.type)
  | .union terms => terms.map (·.type)
  | .interface i => i.explicit.map (fun m => (t.func m).sig) ++ i.embedded

/-- Nothing in the type is more than `n` steps down. -/
def NestsWithin (t : Table) : Nat → TypeId → Prop
  | 0, id => t.partsOf id = []
  | n + 1, id => ∀ part ∈ t.partsOf id, t.NestsWithin n part

instance decidableNestsWithin (t : Table) : (n : Nat) → (id : TypeId) → Decidable (t.NestsWithin n id)
  | 0, id => inferInstanceAs (Decidable (t.partsOf id = []))
  | n + 1, id =>
    have := t.decidableNestsWithin n
    inferInstanceAs (Decidable (∀ part ∈ t.partsOf id, t.NestsWithin n part))

/-- A type that is the other or stands somewhere in it. -/
def Occurs (t : Table) (inner id : TypeId) : Prop := Relation.ReflTransGen (fun a b => b ∈ t.partsOf a) id inner

/-- None of the type parameters that are replaced occurs in the type. -/
def Untouched (t : Table) (map : Subst) (id : TypeId) : Prop :=
  ∀ p data, t.Occurs p id → t.get p = .typeParam data → map.lookup p = none

variable {t : Table} {map : Subst}

theorem Untouched.part {id part : TypeId} (h : t.Untouched map id) (hpart : part ∈ t.partsOf id) : t.Untouched map part :=
  fun p data hp => h p data (.head hpart hp)

end Table

/-! ## Substitution -/

namespace Expansion

variable {t : Table} {map : Subst}

/-- Substitution in the parts of a type that are left alone, one after the other. -/
theorem mapM_subst {n depth : Nat} {ids : List TypeId} (h : ∀ id ∈ ids, subst n map depth id t = some (id, t)) :
    ids.mapM (subst n map depth) t = some (ids, t) := by
  simpa using mapM_of_run (g := id) h

theorem subst_of_untouched {n k depth : Nat} {id : TypeId} (hn : k < n) (hdepth : depth + k ≤ maxSubstDepth)
    (hnests : t.NestsWithin k id) (hfree : t.Untouched map id) : subst n map depth id t = some (id, t) := by
  induction n generalizing k depth id with
  | zero => omega
  | succ n ih =>
    have hparts : ∀ part ∈ t.partsOf id, subst n map (depth + 1) part t = some (part, t) := by
      intro part hpart
      cases k with
      | zero =>
        rw [show t.partsOf id = [] from hnests] at hpart
        cases hpart
      | succ k => exact ih (by omega) (by omega) (hnests part hpart) (hfree.part hpart)
    have hget : (get : Expansion Table) t = some (t, t) := rfl
    unfold subst
    rw [if_neg (by omega), bind_of_run hget]
    cases hid : t.get id with simp only [Table.partsOf, hid] at hparts
    | invalid => rfl
    | basic kind => rfl
    | typeParam data =>
      show some ((map.lookup id).getD id, t) = _
      rw [hfree id data .refl hid]
      rfl
    | named d =>
      dsimp only
      cases horigin : d.origin with simp only [horigin] at hparts
      | some origin =>
        dsimp only
        rw [bind_of_run (mapM_subst hparts), if_pos (by simp)]
        rfl
      | none =>
        dsimp only
        split
        · rfl
        · rw [bind_of_run (mapM_subst hparts), if_pos (by simp)]
          rfl
    | pointer elem | slice elem | array len elem | chan dir elem =>
      dsimp only
      rw [bind_of_run (hparts elem (by simp)), if_pos rfl]
      rfl
    | map key value =>
      dsimp only
      rw [bind_of_run (hparts key (by simp)), bind_of_run (hparts value (by simp)), if_pos ⟨rfl, rfl⟩]
      rfl
    | tuple elems =>
      dsimp only
      rw [bind_of_run (mapM_subst hparts), if_pos (by simp)]
      rfl
    | signature s =>
      obtain ⟨hparams, hresults⟩ := List.forall_mem_append.1 hparts
      dsimp only
      rw [bind_of_run (mapM_subst hparams), bind_of_run (mapM_subst hresults), if_pos (by simp)]
      rfl
    | struct fields | union terms =>
      dsimp only
      rw [bind_of_run (mapM_of_run fun part hpart => hparts part.type (List.mem_map_of_mem hpart)), if_pos (by simp)]
      rfl
    | interface i =>
      obtain ⟨hmethods, hembedded⟩ := List.forall_mem_append.1 hparts
      -- the methods keep their signatures, so none of them is copied
      have hexplicit : ∀ m ∈ i.explicit, (do
          let f := (← get).func m
          let sig ← subst n map (depth + 1) f.sig
          if sig = f.sig then return m
          else Build.newFunc { f with sig, origin := some (f.origin.getD m) } : Expansion FuncId) t = some (m, t) := by
        intro m hm
        rw [bind_of_run hget, bind_of_run (hmethods _ (List.mem_map_of_mem hm)), if_pos rfl]
        rfl
      dsimp only
      rw [bind_of_run (mapM_of_run (g := fun m => m) hexplicit), bind_of_run (mapM_subst hembedded), if_pos (by simp)]
      rfl

end Expansion

/-- A substitution gives back the very type that it is given and leaves the table as it is, if none of the type parameters
that it replaces occurs in the type. The type may be nested as deep as substitution goes. -/
theorem subst_untouched (t : Table) (map : Subst) (id : TypeId) (hnests : t.NestsWithin maxSubstDepth id)
    (hfree : ∀ p data, t.Occurs p id → t.get p = .typeParam data → p ∉ map.map Prod.fst) :
    (Build.subst id map).run t = (id, t) := by
  have hfree' : t.Untouched map id := fun p data hp hget =>
    List.lookup_eq_none_iff.2 fun entry hentry => by
      simpa using fun heq : p = entry.1 => hfree p data hp hget (heq ▸ List.mem_map_of_mem hentry)
  unfold Build.subst
  split
  · rfl
  · -- the bound that the table provides is larger than the depth
    have hbound : maxSubstDepth < t.expansionBound := by
      have h := Nat.mul_le_mul (Nat.le_add_left 1 t.types.size) (Nat.le_add_left 400 t.types.size)
      unfold Table.expansionBound maxSubstDepth
      omega
    have hrun : Expansion.subst t.expansionBound map 0 id t = some (id, t) :=
      Expansion.subst_of_untouched hbound (by omega) hnests hfree'
    show ((Expansion.subst t.expansionBound map 0 id) t).getD _ = _
    rw [hrun]
    rfl

/-- The predeclared types, two type parameters, and the maps from the second of them to the interface of `error`. -/
def mapTable : Table :=
  { Table.predeclared with
    types := Table.predeclared.types ++
      #[.typeParam ⟨"T", 0, .invalid⟩, .typeParam ⟨"U", 1, .invalid⟩, .map ⟨32⟩ ⟨27⟩] }

/-- The map type stays when the first type parameter is replaced. -/
theorem mapTable_untouched : mapTable.get ⟨33⟩ = .map ⟨32⟩ ⟨27⟩ ∧
    (Build.subst ⟨33⟩ [(⟨31⟩, BasicKind.int.typeId)]).run mapTable = (⟨33⟩, mapTable) := by
  refine ⟨rfl, ?_⟩
  -- the types that occur in it
  let inside : List TypeId := [⟨33⟩, ⟨32⟩, ⟨27⟩, ⟨26⟩, BasicKind.string.typeId]
  have hinside (p : TypeId) (hp : mapTable.Occurs p ⟨33⟩) : p ∈ inside := by
    have hparts : ∀ a ∈ inside, ∀ b ∈ mapTable.partsOf a, b ∈ inside := by decide
    refine Relation.ReflTransGen.head_induction_on (motive := fun a _ => a ∈ inside → p ∈ inside) hp id ?_ (by decide)
    exact fun hb _ ih ha => ih (hparts _ ha _ hb)
  have hother : ∀ p ∈ inside, p ∉ [(⟨31⟩, BasicKind.int.typeId)].map (Prod.fst : TypeId × TypeId → TypeId) := by decide
  exact subst_untouched _ _ _ (by decide) fun p data hp _ => hother p (hinside p hp)

end UnusedMethods.Types
