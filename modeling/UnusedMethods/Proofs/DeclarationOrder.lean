import Mathlib.Data.List.Perm.Basic
import UnusedMethods.Proofs.Declarations

/-!
# The order of declarations

A package is checked kind after kind: aliases, types, methods, functions, constants, variables. So it does not matter how
declarations of different kinds are mixed.
-/

namespace UnusedMethods.Typing

open Syntax UnusedMethods.Types

/-! ## Two orders that agree on each kind -/

/-- Declarations with the same declarations of each kind, in the same order. -/
def SameByKind (ds ds' : List (CurrentFile × Declaration)) : Prop :=
  ∀ k, declarationsOfKind k ds = declarationsOfKind k ds'

theorem SameByKind.perm {ds ds' : List (CurrentFile × Declaration)} (h : SameByKind ds ds') : ds.Perm ds' := by
  classical
  rw [List.perm_iff_count]
  intro p
  -- an element is counted among those of its kind
  have hcount : ∀ l : List (CurrentFile × Declaration), l.count p = (declarationsOfKind p.2.kind l).count p :=
    fun l => (List.count_filter (by simp)).symm
  rw [hcount ds, hcount ds', h]

theorem mem_bindingsOf_iff {es : List (CurrentFile × Entry)} {b : String × Object} :
    b ∈ bindingsOf es ↔ ∃ k, ∃ p ∈ entriesOfKind k es, b ∈ p.2.bindings := by
  unfold bindingsOf entriesOfKind
  simp only [List.mem_flatMap, List.mem_filter]
  constructor
  · rintro ⟨p, hp, hb⟩
    exact ⟨p.2.declaration.kind, p, ⟨hp, by simp⟩, hb⟩
  · rintro ⟨_, p, ⟨hp, -⟩, hb⟩
    exact ⟨p, hp, hb⟩

/-- Declarations with different names are entered alike in two orders that agree on each kind. -/
theorem enterAll_agree {ds ds' : List (CurrentFile × Declaration)} (h : SameByKind ds ds') (hnodup : (namesIn ds).Nodup)
    (c : Context) (n : Notes) (t : Table) :
    (∀ k, entriesOfKind k ((enterAll ds).eval c n t).1.1 = entriesOfKind k ((enterAll ds').eval c n t).1.1) ∧
      ((enterAll ds).eval c n t).2 = ((enterAll ds').eval c n t).2 ∧
      ((enterAll ds).eval c n t).1.2.Similar ((enterAll ds').eval c n t).1.2 := by
  have hnodup' : (namesIn ds').Nodup := ((h.perm.flatMap_right _).nodup_iff).1 hnodup
  obtain ⟨n₁, heval, hdefines⟩ := eval_enterAll ds c n t
  obtain ⟨n₁', heval', hdefines'⟩ := eval_enterAll ds' c n t
  have hentries : ∀ k, entriesOfKind k (entriesFrom c.path t.types.size t.funcs.size ds) =
      entriesOfKind k (entriesFrom c.path t.types.size t.funcs.size ds') := by
    intro k
    rw [entriesOfKind_entriesFrom, entriesOfKind_entriesFrom, h]
  have htypes : newTypesOf c.path ds = newTypesOf c.path ds' := by
    rw [← newTypesOf_ofKind, ← newTypesOf_ofKind c.path ds', h]
  have hfuncs : newFuncsOf c.path ds = newFuncsOf c.path ds' := by
    rw [← newFuncsOf_ofKind, ← newFuncsOf_ofKind c.path ds', h]
  rw [heval, heval']
  refine ⟨hentries, by rw [htypes, hfuncs], fun name => ?_, ?_, ?_⟩
  · -- the same names are defined, and each only once
    have hmem : ∀ b, b ∈ bindingsOf (entriesFrom c.path t.types.size t.funcs.size ds) ↔
        b ∈ bindingsOf (entriesFrom c.path t.types.size t.funcs.size ds') := by
      intro b
      rw [mem_bindingsOf_iff, mem_bindingsOf_iff]
      simp only [hentries]
    ext obj
    rw [hdefines.scope, hdefines'.scope, find?_define _ ((names_bindingsOf ..).nodup hnodup),
      find?_define _ ((names_bindingsOf ..).nodup hnodup')]
    simp only [List.mem_map, hmem]
  · rw [hdefines.locals, hdefines'.locals]
  · rw [hdefines.infos, hdefines'.infos]

theorem checkFiles_agree {plan : Plan} (hopen : plan.Open) {t : Table} (hwf : t.WF) {c : Context}
    (hc : c.WF t) {n : Notes} (hn : n.WF plan t) {files files' : List (CurrentFile × SourceFile)}
    (hfiles : FilesWF plan t files) (h : SameByKind (declarationsIn files) (declarationsIn files'))
    (hnodup : (namesIn (declarationsIn files)).Nodup) :
    Agree ((checkFiles files).eval c n t) ((checkFiles files').eval c n t) := by
  obtain ⟨hentries, htable, hsimilar⟩ := enterAll_agree h hnodup c n t
  obtain ⟨⟨hstep, hnotes, hes⟩, -⟩ := sound_enterAll (c := c) hopen.denotes hfiles.declarationsIn n t (.refl t) hwf hc hn
  obtain ⟨-, hagree⟩ := sound_checkEntries (c := c) hopen.steady hes (fun id _ => hopen.settled id) _ _ (.refl _) hstep.wf
    (hc.of_grows hstep.grows) hnotes.wf
  unfold checkFiles
  rw [Checking.eval_bind, Checking.eval_bind, ← checkEntries_congr hentries, ← htable]
  exact hagree _ hsimilar

end UnusedMethods.Typing
