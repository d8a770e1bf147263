import UnusedMethods.Proofs.EmbeddingOrder

/-!
# Taking embeddings away until there is an order

As long as there is no topological order, a node on a cycle is found, and its outgoing edges are taken away. Their places are
listed before the first of them goes, and each removal moves the last edge to the place that became free. So some of them may
be left behind until another round. Edges from other nodes are never taken away: the place of an edge that has not been
removed yet still holds that edge, or lies past the end.

For interfaces, the nodes that lose their edges are those that lose their embeddings. Two declared interfaces may be written
as one and the same interface, through an alias; then they lose their embeddings together.
-/

namespace UnusedMethods.Digraph

variable {α : Type} [DecidableEq α] {g : Digraph α} {u v : α}

/-! ## Topological orders -/

theorem leads_iff_exists_edge : g.Leads u v ↔ ∃ e ∈ g.edges, e.source = u ∧ e.target = v := by
  simp only [Leads, successors, List.mem_filterMap, g.entered_perm.mem_iff, Option.ite_none_right_eq_some, Option.some.injEq]

theorem mem_predecessors_iff : v ∈ g.predecessors u ↔ g.Leads v u := by
  simp only [predecessors, List.mem_filterMap, g.entered_perm.mem_iff, leads_iff_exists_edge, Option.ite_none_right_eq_some,
    Option.some.injEq, and_comm]

/-- All edges lead from nodes of the graph to nodes of the graph. -/
def Spanned (g : Digraph α) : Prop := ∀ u v, g.Leads u v → u ∈ g.nodes ∧ v ∈ g.nodes

theorem Spanned.closed (h : g.Spanned) : g.Closed := fun u v hlead => (h u v hlead).2

theorem backward?_eq_some {order earlier : List α} (h : g.backward? order earlier = some v) : v ∉ earlier ∧
    ∃ before u after, order = before ++ u :: after ∧ g.Leads v u ∧ v ∉ before ∧ v ≠ u := by
  induction order generalizing earlier with
  | nil => cases h
  | cons w order ih =>
    rw [backward?] at h
    split at h
    · rename_i x hfind
      cases h
      have hlead := mem_predecessors_iff.1 (List.mem_of_find?_eq_some hfind)
      have hnew : v ≠ w ∧ v ∉ earlier := by simpa using List.find?_some hfind
      exact ⟨hnew.2, [], w, order, rfl, hlead, by simp, hnew.1⟩
    · obtain ⟨hearlier, before, u, after, rfl, hlead, hbefore, hne⟩ := ih h
      have hw : v ≠ w ∧ v ∉ earlier := by simpa using hearlier
      exact ⟨hw.2, w :: before, u, after, rfl, hlead, by simp [hw.1, hbefore], hne⟩

theorem backward?_eq_none {order earlier : List α} (h : g.backward? order earlier = none) :
    ∀ before u after, order = before ++ u :: after → ∀ v, g.Leads v u → v = u ∨ v ∈ before ∨ v ∈ earlier := by
  induction order generalizing earlier with
  | nil =>
    intro before u after heq
    simp at heq
  | cons w order ih =>
    rw [backward?] at h
    split at h
    · cases h
    · rename_i hfind
      intro before u after heq v hlead
      cases before with
      | nil =>
        obtain ⟨rfl, rfl⟩ := List.cons.inj heq
        have hpassed := List.find?_eq_none.1 hfind v (mem_predecessors_iff.2 hlead)
        have hmem : v ≠ w → v ∈ earlier := by simpa using hpassed
        by_cases hw : v = w
        · exact .inl hw
        · exact .inr (.inr (hmem hw))
      | cons x before =>
        obtain ⟨rfl, rfl⟩ := List.cons.inj heq
        have hmem := ih h before u after rfl v hlead
        simp only [List.mem_cons] at hmem ⊢
        tauto

theorem not_leads_self_of_foldlM {n : Nat} {us : List α} {s s' : Search α}
    (hstep : ∀ s s' u, (∀ v ∈ s.finished, ¬ g.Leads v v) → g.searchFrom n s u = .ok s' → ∀ v ∈ s'.finished, ¬ g.Leads v v)
    (hs : ∀ v ∈ s.finished, ¬ g.Leads v v) (h : us.foldlM (g.searchFrom n) s = .ok s') :
    ∀ v ∈ s'.finished, ¬ g.Leads v v := by
  induction us generalizing s with
  | nil =>
    cases h
    exact hs
  | cons u us ih =>
    rw [List.foldlM_cons] at h
    cases hfirst : g.searchFrom n s u with
    | error w =>
      rw [hfirst] at h
      cases h
    | ok s₁ =>
      rw [hfirst] at h
      exact ih (hstep s s₁ u hs hfirst) h

theorem not_leads_self_of_searchFrom {n : Nat} {s s' : Search α} (hs : ∀ v ∈ s.finished, ¬ g.Leads v v)
    (h : g.searchFrom n s u = .ok s') : ∀ v ∈ s'.finished, ¬ g.Leads v v := by
  induction n generalizing s s' u with
  | zero =>
    cases h
    exact hs
  | succ n ih =>
    rw [searchFrom] at h
    split at h
    · cases h
      exact hs
    · split at h
      · cases h
      · rename_i hself
        cases hfold : (g.successors u).foldlM (g.searchFrom n) { s with seen := u :: s.seen } with
        | error w =>
          rw [hfold] at h
          cases h
        | ok s₁ =>
          rw [hfold] at h
          cases h
          have hfinished := not_leads_self_of_foldlM (s := { s with seen := u :: s.seen }) (fun _ _ _ => ih) hs hfold
          exact List.forall_mem_cons.2 ⟨fun hlead => hself (List.contains_iff_mem.2 hlead), hfinished⟩

theorem not_leads_self_of_finishingOrder {order : List α} (h : g.finishingOrder = .ok order) : ∀ v ∈ order, ¬ g.Leads v v := by
  unfold finishingOrder at h
  cases hfold : g.nodes.foldlM (g.searchFrom (g.nodes.length + 1)) { seen := [], finished := [] } with
  | error v =>
    rw [hfold] at h
    cases h
  | ok s =>
    rw [hfold] at h
    cases h
    exact not_leads_self_of_foldlM (fun _ _ _ => not_leads_self_of_searchFrom) (by simp) hfold

theorem topologicalOrder_of_eq_ok {order : List α} (h : g.finishingOrder = .ok order) :
    g.topologicalOrder = (g.backward? order []).elim (.ok order) .error := by
  simp only [topologicalOrder, h, bind, Except.bind]
  cases g.backward? order [] <;> rfl

theorem topologicalOrder_of_eq_error (h : g.finishingOrder = .error u) : g.topologicalOrder = .error u := by
  show (g.finishingOrder >>= fun order => _) = _
  rw [h]
  rfl

theorem transGen_of_topologicalOrder_eq_error (hspanned : g.Spanned) (h : g.topologicalOrder = .error u) :
    Relation.TransGen g.Leads u u := by
  cases hrun : g.finishingOrder with
  | error v =>
    rw [topologicalOrder_of_eq_error hrun] at h
    cases h
    exact .single (finishingOrder_eq_error hrun)
  | ok order =>
    rw [topologicalOrder_of_eq_ok hrun] at h
    cases hback : g.backward? order [] with
    | none =>
      rw [hback] at h
      cases h
    | some v =>
      rw [hback] at h
      cases h
      obtain ⟨-, before, w, after, horder, hlead, hbefore, hne⟩ := backward?_eq_some hback
      exact .head' hlead (reaches_of_backward hspanned.closed hrun horder hlead (hspanned _ _ hlead).1 hbefore hne)

/-- In an order that is found, every node stands once, and every edge points forward. -/
theorem forward_of_topologicalOrder_eq_ok (hspanned : g.Spanned) {order : List α} (hnodup : g.nodes.Nodup)
    (h : g.topologicalOrder = .ok order) :
    order.Perm g.nodes ∧ ∀ u v, g.Leads u v → order.idxOf u < order.idxOf v := by
  cases hrun : g.finishingOrder with
  | error v =>
    rw [topologicalOrder_of_eq_error hrun] at h
    cases h
  | ok order' =>
    rw [topologicalOrder_of_eq_ok hrun] at h
    cases hback : g.backward? order' [] with
    | some v =>
      rw [hback] at h
      cases h
    | none =>
      rw [hback] at h
      cases h
      obtain ⟨hnodup', hmem, -⟩ := finishingOrder_eq_ok hspanned.closed hrun
      refine ⟨(List.perm_ext_iff_of_nodup hnodup' hnodup).2 hmem, fun u v hlead => ?_⟩
      obtain ⟨before, after, rfl⟩ := List.append_of_mem ((hmem v).2 (hspanned u v hlead).2)
      have hv : v ∉ before := fun hv => (List.nodup_append.1 hnodup').2.2 v hv v List.mem_cons_self rfl
      have hself := not_leads_self_of_finishingOrder hrun v (by simp)
      have hu : u ∈ before := by
        rcases backward?_eq_none hback before v after rfl u hlead with rfl | hu | hu
        · exact absurd hlead hself
        · exact hu
        · cases hu
      rw [List.idxOf_append_of_mem hu, List.idxOf_append_of_notMem hv]
      have hlt := List.idxOf_lt_length_of_mem hu
      omega

/-! ## Edges that are taken away -/

omit [DecidableEq α] in
/-- A place other than the one that became free holds the same edge, or lies past the end. -/
theorem getElem?_removeAt {i j : Nat} (hij : j ≠ i) {e : Edge α} (h : (g.removeAt i).edges[j]? = some e) :
    g.edges[j]? = some e := by
  rw [removeAt] at h
  split at h
  · split at h
    · simp only [List.dropLast_eq_take, List.getElem?_take] at h
      split at h
      · rwa [List.getElem?_set_ne hij.symm] at h
      · cases h
    · exact h
  · exact h

omit [DecidableEq α] in
theorem removeAt_of_getElem?_eq_none {i : Nat} (h : g.edges[i]? = none) : g.removeAt i = g := by
  rw [List.getElem?_eq_none_iff] at h
  rw [removeAt]
  split
  · rw [if_neg (by omega)]
  · rfl

omit [DecidableEq α] in
theorem foldl_removeAt_perm {p : Edge α → Prop} {places : List Nat} (hnodup : places.Nodup)
    (hplaces : ∀ i ∈ places, ∀ e, g.edges[i]? = some e → p e) :
    ∃ removed, (removed ++ (places.foldl removeAt g).edges).Perm g.edges ∧ (∀ e ∈ removed, p e) ∧
      ∀ i ∈ places.head?, ∀ e, g.edges[i]? = some e → e ∈ removed := by
  induction places generalizing g with
  | nil => exact ⟨[], .refl _, by simp, by simp⟩
  | cons i places ih =>
    obtain ⟨hi, hnodup⟩ := List.nodup_cons.1 hnodup
    have hrest : ∀ j ∈ places, ∀ e, (g.removeAt i).edges[j]? = some e → p e := by
      intro j hj e he
      have hji : j ≠ i := fun h => hi (h ▸ hj)
      exact hplaces j (List.mem_cons_of_mem _ hj) e (getElem?_removeAt hji he)
    obtain ⟨removed, hperm, hremoved, -⟩ := ih hnodup hrest
    rw [List.foldl_cons]
    cases he : g.edges[i]? with
    | none =>
      -- the edge has been moved to the place of one that was taken away
      rw [removeAt_of_getElem?_eq_none he] at hperm ⊢
      exact ⟨removed, hperm, hremoved, by simp [he]⟩
    | some e =>
      refine ⟨e :: removed, (hperm.cons e).trans (removeAt_perm he), ?_, by simp [he]⟩
      exact List.forall_mem_cons.2 ⟨hplaces i List.mem_cons_self e he, hremoved⟩

theorem mem_outgoing_iff {i : Nat} : i ∈ g.outgoing u ↔ ∃ e, g.edges[i]? = some e ∧ e.source = u := by
  simp only [outgoing, List.mem_map, List.mem_mergeSort, List.mem_filter, List.mem_mapIdx, decide_eq_true_eq]
  constructor
  · rintro ⟨⟨j, e⟩, ⟨⟨k, hk, heq⟩, hsource⟩, rfl⟩
    cases heq
    exact ⟨_, List.getElem?_eq_getElem hk, hsource⟩
  · rintro ⟨e, he, hsource⟩
    obtain ⟨hi, rfl⟩ := List.getElem?_eq_some_iff.1 he
    exact ⟨(i, g.edges[i]), ⟨⟨i, hi, rfl⟩, hsource⟩, rfl⟩

theorem nodup_outgoing (g : Digraph α) (u : α) : (g.outgoing u).Nodup := by
  have hperm : (g.outgoing u).Perm (((g.edges.mapIdx fun i e => (i, e)).filter fun p => p.2.source = u).map (·.1)) :=
    (List.mergeSort_perm ..).map _
  rw [hperm.nodup_iff]
  have hplaces : (g.edges.mapIdx fun i e => (i, e)).map (·.1) = List.range g.edges.length :=
    List.ext_getElem (by simp) fun i h₁ h₂ => by simp
  have hnodup := List.nodup_range (n := g.edges.length)
  rw [← hplaces] at hnodup
  exact (List.filter_sublist.map _).nodup hnodup

/-- Edges from other nodes stay, and if there are edges from the node, at least one of them goes. -/
theorem removeOutgoing_spec (g : Digraph α) (u : α) :
    ∃ removed, (removed ++ (g.removeOutgoing u).edges).Perm g.edges ∧ (∀ e ∈ removed, e.source = u) ∧
      ((∃ v, g.Leads u v) → removed ≠ []) := by
  have hplaces : ∀ i ∈ g.outgoing u, ∀ e, g.edges[i]? = some e → e.source = u := by
    intro i hi e he
    obtain ⟨e', he', hsource⟩ := mem_outgoing_iff.1 hi
    rw [he] at he'
    cases he'
    exact hsource
  obtain ⟨removed, hperm, hremoved, hfirst⟩ := foldl_removeAt_perm (g.nodup_outgoing u) hplaces
  refine ⟨removed, hperm, hremoved, fun ⟨v, hlead⟩ => ?_⟩
  obtain ⟨e, he, hsource, -⟩ := leads_iff_exists_edge.1 hlead
  obtain ⟨i, hi⟩ := List.getElem?_of_mem he
  obtain ⟨j, places, houtgoing⟩ := List.exists_cons_of_ne_nil (List.ne_nil_of_mem (mem_outgoing_iff.2 ⟨e, hi, hsource⟩))
  obtain ⟨f, hf, -⟩ := mem_outgoing_iff.1 (houtgoing ▸ List.mem_cons_self)
  exact List.ne_nil_of_mem (hfirst j (by simp [houtgoing]) f hf)

theorem leads_of_removeOutgoing {x y : α} (h : (g.removeOutgoing u).Leads x y) : g.Leads x y := by
  obtain ⟨removed, hperm, -⟩ := g.removeOutgoing_spec u
  obtain ⟨e, he, hends⟩ := leads_iff_exists_edge.1 h
  exact leads_iff_exists_edge.2 ⟨e, hperm.mem_iff.1 (List.mem_append_right _ he), hends⟩

theorem leads_removeOutgoing {x y : α} (hx : x ≠ u) (h : g.Leads x y) : (g.removeOutgoing u).Leads x y := by
  obtain ⟨removed, hperm, hremoved, -⟩ := g.removeOutgoing_spec u
  obtain ⟨e, he, hsource, htarget⟩ := leads_iff_exists_edge.1 h
  rcases List.mem_append.1 (hperm.mem_iff.2 he) with hmem | hmem
  · exact absurd (hsource.symm.trans (hremoved e hmem)) hx
  · exact leads_iff_exists_edge.2 ⟨e, hmem, hsource, htarget⟩

theorem length_edges_removeOutgoing (h : g.Leads u v) : (g.removeOutgoing u).edges.length < g.edges.length := by
  obtain ⟨removed, hperm, -, hne⟩ := g.removeOutgoing_spec u
  have hlength := hperm.length_eq
  have hpos := List.length_pos_iff.2 (hne ⟨v, h⟩)
  rw [List.length_append] at hlength
  omega

theorem Spanned.removeOutgoing (h : g.Spanned) (u : α) : (g.removeOutgoing u).Spanned := by
  intro x y hlead
  rw [nodes_removeOutgoing]
  exact h x y (leads_of_removeOutgoing hlead)

/-! ## Rounds -/

/-- Rounds in which a node that is reported loses edges, up to an order of what is left. -/
inductive Breaks : Digraph α → List α → List α → Prop
  | ordered {g : Digraph α} {order : List α} : g.topologicalOrder = .ok order → Breaks g [] order
  | reported {g : Digraph α} {u : α} {cut order : List α} :
    g.topologicalOrder = .error u → Breaks (g.removeOutgoing u) cut order → Breaks g (u :: cut) order

/-- In every round an edge is taken away, so there are no more rounds than edges. -/
theorem breaks_breakCyclesWithin {n : Nat} (hspanned : g.Spanned) (hn : g.edges.length ≤ n) :
    g.Breaks (breakCyclesWithin n g).1 (breakCyclesWithin n g).2 := by
  induction n generalizing g with
  | zero =>
    cases hrun : g.topologicalOrder with
    | ok order =>
      rw [breakCyclesWithin_of_eq_ok hrun]
      exact .ordered hrun
    | error u =>
      obtain ⟨v, hlead, -⟩ := Relation.TransGen.head'_iff.1 (transGen_of_topologicalOrder_eq_error hspanned hrun)
      have hlength := length_edges_removeOutgoing hlead
      omega
  | succ n ih =>
    cases hrun : g.topologicalOrder with
    | ok order =>
      rw [breakCyclesWithin_of_eq_ok hrun]
      exact .ordered hrun
    | error u =>
      obtain ⟨v, hlead, -⟩ := Relation.TransGen.head'_iff.1 (transGen_of_topologicalOrder_eq_error hspanned hrun)
      have hlength := length_edges_removeOutgoing hlead
      rw [breakCyclesWithin_succ_of_eq_error hrun]
      exact .reported hrun (ih (hspanned.removeOutgoing u) (by omega))

theorem breaks_breakCycles (hspanned : g.Spanned) : g.Breaks g.breakCycles.1 g.breakCycles.2 :=
  breaks_breakCyclesWithin hspanned (Nat.le_refl _)

/-- What comes first in a list comes last when it is turned around. -/
theorem idxOf_reverse_lt {l : List α} (hnodup : l.Nodup) (hv : v ∈ l) (h : l.idxOf u < l.idxOf v) :
    l.reverse.idxOf v < l.reverse.idxOf u := by
  obtain ⟨before, after, rfl⟩ := List.append_of_mem hv
  obtain ⟨-, hafter, hdisjoint⟩ := List.nodup_append.1 hnodup
  have hv' : v ∉ before := fun hmem => hdisjoint v hmem v List.mem_cons_self rfl
  have hu : u ∈ before := by
    by_contra hu
    rw [List.idxOf_append_of_notMem hu, List.idxOf_append_of_notMem hv', List.idxOf_cons_self] at h
    omega
  have hne : u ≠ v := fun heq => hv' (heq ▸ hu)
  have hu' : u ∉ after.reverse := fun hmem => hdisjoint u hu u (List.mem_cons_of_mem _ (List.mem_reverse.1 hmem)) rfl
  have hv'' : v ∉ after.reverse := fun hmem => (List.nodup_cons.1 hafter).1 (List.mem_reverse.1 hmem)
  have hreverse : (before ++ v :: after).reverse = after.reverse ++ v :: before.reverse := by simp
  rw [hreverse, List.idxOf_append_of_notMem hu', List.idxOf_append_of_notMem hv'', List.idxOf_cons_self,
    List.idxOf_cons_ne _ hne.symm]
  omega

namespace Breaks

variable {cut order : List α}

/-- Every node that loses edges is on a cycle of the graph as it was at first. -/
theorem transGen_of_mem (h : g.Breaks cut order) (hspanned : g.Spanned) : ∀ u ∈ cut, Relation.TransGen g.Leads u u := by
  induction h with
  | ordered => simp
  | reported hrun _ ih =>
    have hrest := ih (hspanned.removeOutgoing _)
    refine List.forall_mem_cons.2 ⟨transGen_of_topologicalOrder_eq_error hspanned hrun, fun v hv => ?_⟩
    exact Relation.TransGen.mono (fun _ _ => leads_of_removeOutgoing) v v (hrest v hv)

theorem perm_nodes (h : g.Breaks cut order) (hspanned : g.Spanned) (hnodup : g.nodes.Nodup) : order.Perm g.nodes := by
  induction h with
  | ordered hrun => exact (forward_of_topologicalOrder_eq_ok hspanned hnodup hrun).1
  | @reported g u _ _ hrun _ ih =>
    rw [← nodes_removeOutgoing g u] at hnodup ⊢
    exact ih (hspanned.removeOutgoing u) hnodup

/-- The edges of a node that never lost any point forward in the order. -/
theorem idxOf_lt (h : g.Breaks cut order) (hspanned : g.Spanned) (hnodup : g.nodes.Nodup) (hu : u ∉ cut)
    (hlead : g.Leads u v) : order.idxOf u < order.idxOf v := by
  induction h with
  | ordered hrun => exact (forward_of_topologicalOrder_eq_ok hspanned hnodup hrun).2 u v hlead
  | @reported g w _ _ hrun _ ih =>
    obtain ⟨hne, hu⟩ := List.ne_and_not_mem_of_not_mem_cons hu
    rw [← nodes_removeOutgoing g w] at hnodup
    exact ih (hspanned.removeOutgoing w) hnodup hu (leads_removeOutgoing hne hlead)

end Breaks

end UnusedMethods.Digraph

namespace UnusedMethods.Typing

open UnusedMethods.Types

/-! ## Embeddings -/

/-- An interface without its embeddings; other types stay. -/
def withoutEmbeddings : Ty → Ty
  | .interface i => .interface { i with embedded := [] }
  | ty => ty

theorem withoutEmbeddings_idem (ty : Ty) : withoutEmbeddings (withoutEmbeddings ty) = withoutEmbeddings ty := by
  cases ty <;> rfl

theorem get_clearEmbedded (t : Table) (id id' : TypeId) :
    (t.clearEmbedded id).get id' = if id' = id then withoutEmbeddings (t.get id') else t.get id' := by
  split
  · rename_i h
    subst h
    by_cases hid : t.HasType id'
    · rw [Table.clearEmbedded, Table.modifyInterface, Table.get_modifyType_self hid]
      cases t.get id' <;> rfl
    · have hnone : t.types[id'.index]? = none := by simpa [Table.HasType] using hid
      simp [Table.clearEmbedded, Table.modifyInterface, Table.get, Table.getElem?_modifyType, hnone, withoutEmbeddings]
  · rename_i h
    rw [Table.clearEmbedded, Table.modifyInterface, Table.get_modifyType_of_ne h]

theorem get_foldl_clearEmbedded (t : Table) (ids : List TypeId) (id : TypeId) :
    (ids.foldl Table.clearEmbedded t).get id = if id ∈ ids then withoutEmbeddings (t.get id) else t.get id := by
  induction ids generalizing t with
  | nil => simp
  | cons id' ids ih =>
    rw [List.foldl_cons, ih, get_clearEmbedded]
    by_cases h : id = id'
    · simp [h, withoutEmbeddings_idem]
    · simp [h]

theorem named?_foldl_clearEmbedded (t : Table) (ids : List TypeId) (id : TypeId) :
    (ids.foldl Table.clearEmbedded t).named? id = t.named? id := by
  rw [Table.named?, get_foldl_clearEmbedded, Table.named?]
  by_cases h : id ∈ ids
  · rw [if_pos h]
    cases t.get id <;> rfl
  · rw [if_neg h]

/-- What a declared type is written as. -/
def writtenAs? (t : Table) (u : TypeId) : Option TypeId := (t.named? u).map (·.rhs)

theorem mem_interfacesAmong {t : Table} {declared : List TypeId} {u : TypeId} (hu : u ∈ interfacesAmong t declared) :
    ∃ id i, writtenAs? t u = some id ∧ t.get id = .interface i ∧ interfaceBody? t u = some i := by
  have hbody : (interfaceBody? t u).isSome = true := (List.mem_filter.1 hu).2
  rw [interfaceBody?] at hbody ⊢
  rw [writtenAs?]
  cases hd : t.named? u with
  | none => simp [hd] at hbody
  | some d =>
    cases hrhs : t.get d.rhs with
    | interface i => exact ⟨d.rhs, i, rfl, hrhs, by simp [hrhs]⟩
    | _ => simp [hd, hrhs] at hbody

theorem interfaceBody?_of_get_eq {t t' : Table} {u id : TypeId} {i : Interface} (hnamed : t'.named? u = t.named? u)
    (hid : writtenAs? t u = some id) (hget : t'.get id = .interface i) : interfaceBody? t' u = some i := by
  obtain ⟨d, hd, rfl⟩ := Option.map_eq_some_iff.1 hid
  simp [interfaceBody?, hnamed, hd, hget]

theorem spanned_embeddingGraph (t : Table) {interfaces visit : List TypeId} (hnodup : interfaces.Nodup)
    (hvisit : visit.Perm interfaces) : (embeddingGraph t interfaces visit).Spanned := by
  have hdrawn := drawnBy_embeddingGraph t hnodup hvisit
  intro u v hlead
  exact ⟨hdrawn.mem_of_mem_next (hdrawn.leads_iff.1 hlead), hdrawn.closed u v hlead⟩

theorem run_orderInterfacesBy_eq (arrange : List TypeId → List TypeId) (declared : List TypeId) (t : Table) :
    (orderInterfacesBy arrange declared).run t =
      ((breakEmbeddings arrange t (interfacesAmong t declared)).2.reverse.filterMap (writtenAs? t),
        ((breakEmbeddings arrange t (interfacesAmong t declared)).1.filterMap (writtenAs? t)).foldl Table.clearEmbedded t) :=
  rfl

section Cleared

variable {t : Table} {declared cut : List TypeId} {u : TypeId}

theorem interfaceBody?_cleared_of_ne (hu : u ∈ interfacesAmong t declared)
    (hcut : ∀ v ∈ cut, writtenAs? t v ≠ writtenAs? t u) :
    interfaceBody? ((cut.filterMap (writtenAs? t)).foldl Table.clearEmbedded t) u = interfaceBody? t u := by
  obtain ⟨id, i, hid, hi, hbody⟩ := mem_interfacesAmong hu
  have hmem : id ∉ cut.filterMap (writtenAs? t) := by
    rw [hid] at hcut
    simpa [List.mem_filterMap] using hcut
  rw [hbody]
  refine interfaceBody?_of_get_eq (named?_foldl_clearEmbedded ..) hid ?_
  rw [get_foldl_clearEmbedded, if_neg hmem, hi]

theorem interfaceBody?_cleared_of_eq (hu : u ∈ interfacesAmong t declared)
    (hcut : ∃ v ∈ cut, writtenAs? t v = writtenAs? t u) :
    interfaceBody? ((cut.filterMap (writtenAs? t)).foldl Table.clearEmbedded t) u =
      (interfaceBody? t u).map fun i => { i with embedded := [] } := by
  obtain ⟨id, i, hid, hi, hbody⟩ := mem_interfacesAmong hu
  have hmem : id ∈ cut.filterMap (writtenAs? t) := by
    rw [hid] at hcut
    simpa [List.mem_filterMap] using hcut
  rw [hbody]
  refine interfaceBody?_of_get_eq (named?_foldl_clearEmbedded ..) hid ?_
  rw [get_foldl_clearEmbedded, if_pos hmem, hi]
  rfl

/-- What an interface still embeds it embedded before, and it is none of those that lose their embeddings. -/
theorem mem_embeddedDeclarations_cleared {nodes : List TypeId} {v : TypeId} (hu : u ∈ interfacesAmong t declared)
    (hv : v ∈ embeddedDeclarations ((cut.filterMap (writtenAs? t)).foldl Table.clearEmbedded t) nodes u) :
    u ∉ cut ∧ v ∈ embeddedDeclarations t nodes u := by
  rw [embeddedDeclarations] at hv
  by_cases hcut : ∃ v ∈ cut, writtenAs? t v = writtenAs? t u
  · rw [interfaceBody?_cleared_of_eq hu hcut] at hv
    cases hbody : interfaceBody? t u <;> simp [hbody] at hv
  · have hne : ∀ v ∈ cut, writtenAs? t v ≠ writtenAs? t u := fun v hv heq => hcut ⟨v, hv, heq⟩
    rw [interfaceBody?_cleared_of_ne hu hne] at hv
    simp only [named?_foldl_clearEmbedded] at hv
    exact ⟨fun hmem => hcut ⟨u, hmem, rfl⟩, hv⟩

end Cleared

/-- For all orders of visits: embeddings are taken away until there is an order, and this ends. Only interfaces on embedding
cycles lose their embeddings, with those that are written as the same interface; all else in the table stays as it is. In the
order that is returned, every interface comes after the interfaces of the package that it still embeds, directly or as an
instance. -/
theorem exists_breaks_of_run_orderInterfacesBy {arrange : List TypeId → List TypeId} (harrange : ∀ l, (arrange l).Perm l) (t : Table)
    {declared : List TypeId} (hdeclared : declared.Nodup) {bodies : List TypeId} {t' : Table}
    (hrun : (orderInterfacesBy arrange declared).run t = (bodies, t')) {interfaces : List TypeId}
    (hinterfaces : interfacesAmong t declared = interfaces) :
    ∃ cut order : List TypeId,
      (embeddingGraph t interfaces (arrange interfaces)).Breaks cut order.reverse ∧
      (∀ u ∈ cut, u ∈ interfaces ∧ Relation.TransGen (fun x y => y ∈ embeddings t interfaces x) u u) ∧
      (∀ u ∈ interfaces, (∃ v ∈ cut, writtenAs? t v = writtenAs? t u) →
        interfaceBody? t' u = (interfaceBody? t u).map fun i => { i with embedded := [] }) ∧
      (∀ u ∈ interfaces, (∀ v ∈ cut, writtenAs? t v ≠ writtenAs? t u) → interfaceBody? t' u = interfaceBody? t u) ∧
      (∀ id, (∀ v ∈ cut, writtenAs? t v ≠ some id) → t'.get id = t.get id) ∧
      order.Perm interfaces ∧ bodies.map some = order.map (writtenAs? t) ∧
      ∀ u ∈ interfaces, ∀ v ∈ embeddedDeclarations t' interfaces u, order.idxOf v < order.idxOf u := by
  subst hinterfaces
  have hnodup : (interfacesAmong t declared).Nodup := hdeclared.filter _
  have hvisit := harrange (interfacesAmong t declared)
  have hspanned := spanned_embeddingGraph t hnodup hvisit
  have hdrawn := drawnBy_embeddingGraph t hnodup hvisit
  obtain ⟨⟨cut, order⟩, hcut⟩ : ∃ r, breakEmbeddings arrange t (interfacesAmong t declared) = r := ⟨_, rfl⟩
  have hbreaks := Digraph.breaks_breakCycles hspanned
  rw [← breakEmbeddings, hcut] at hbreaks
  rw [run_orderInterfacesBy_eq, hcut] at hrun
  obtain ⟨rfl, rfl⟩ := Prod.mk.inj hrun
  have hperm := hbreaks.perm_nodes hspanned hnodup
  have hcycle := hbreaks.transGen_of_mem hspanned
  have hcutNodes : ∀ u ∈ cut, u ∈ interfacesAmong t declared := by
    intro u hu
    obtain ⟨v, hlead, -⟩ := Relation.TransGen.head'_iff.1 (hcycle u hu)
    exact (hspanned u v hlead).1
  refine ⟨cut, order.reverse, ?_, fun u hu => ⟨hcutNodes u hu, ?_⟩, fun u => interfaceBody?_cleared_of_eq,
    fun u => interfaceBody?_cleared_of_ne, fun id hid => ?_, (List.reverse_perm order).trans hperm, ?_, fun u hu v hv => ?_⟩
  · rwa [List.reverse_reverse]
  · rw [← hdrawn.leads_eq]
    exact hcycle u hu
  · rw [get_foldl_clearEmbedded, if_neg (by simpa [List.mem_filterMap] using hid)]
  · -- every interface has a body to return
    have hbody : ∀ u ∈ order.reverse, some ((writtenAs? t u).getD .invalid) = writtenAs? t u := by
      intro u hu
      obtain ⟨id, i, hid, -⟩ := mem_interfacesAmong (hperm.mem_iff.1 (List.mem_reverse.1 hu))
      rw [hid, Option.getD_some]
    have hmap : order.reverse.filterMap (writtenAs? t) = order.reverse.map fun u => (writtenAs? t u).getD .invalid := by
      rw [← List.filterMap_eq_map]
      exact List.filterMap_congr fun u hu => (hbody u hu).symm
    rw [hmap, List.map_map]
    exact List.map_congr_left hbody
  · obtain ⟨hcut, hembeds⟩ := mem_embeddedDeclarations_cleared hu hv
    have hlead : (embeddingGraph t (interfacesAmong t declared) (arrange (interfacesAmong t declared))).Leads u v := by
      rw [hdrawn.leads_iff, embeddings, if_pos hu]
      exact hembeds
    have hv' : v ∈ order := hperm.mem_iff.2 (hspanned u v hlead).2
    exact Digraph.idxOf_reverse_lt (hperm.nodup_iff.2 hnodup) hv' (hbreaks.idxOf_lt hspanned hnodup hcut hlead)

/-- Two declared types that are written as one interface. The first of them embeds itself. -/
def sharedBody : String :=
  "package app

type Z interface \x7b
	N()
\x7d

type X = interface \x7b
	M()
	Y1
	Z
\x7d

type Y1 X

type Y2 X
"

/-- The second type loses its embeddings together with the first, although no interface embeds it. -/
theorem sharedBody_cut : ∃ t, (PackageSource.ofText sharedBody).interfaces #[] [] .predeclared = (t, [⟨31⟩, ⟨32⟩, ⟨33⟩]) ∧
    (∀ u, ⟨33⟩ ∉ embeddings t [⟨31⟩, ⟨32⟩, ⟨33⟩] u) ∧ (interfaceBody? t ⟨33⟩).map (·.embedded) = some [⟨32⟩, ⟨31⟩] ∧
    (interfaceBody? ((orderInterfacesBy id [⟨31⟩, ⟨32⟩, ⟨33⟩]).run t).2 ⟨33⟩).map (·.embedded) = some [] := by
  obtain ⟨⟨t, interfaces⟩, hread⟩ : ∃ r, (PackageSource.ofText sharedBody).interfaces #[] [] .predeclared = r := ⟨_, rfl⟩
  have h : interfaces = [⟨31⟩, ⟨32⟩, ⟨33⟩] ∧ interfacesAmong t [⟨31⟩, ⟨32⟩, ⟨33⟩] = [⟨31⟩, ⟨32⟩, ⟨33⟩] ∧
      (∀ u ∈ [⟨31⟩, ⟨32⟩, (⟨33⟩ : TypeId)], ⟨33⟩ ∉ embeddedDeclarations t [⟨31⟩, ⟨32⟩, ⟨33⟩] u ∧ writtenAs? t u ≠ some ⟨32⟩) ∧
      (interfaceBody? t ⟨32⟩).map (·.embedded) = some [⟨32⟩, ⟨31⟩] ∧ (t.named? ⟨32⟩).map (·.origin) = some none ∧
      writtenAs? t ⟨32⟩ = writtenAs? t ⟨33⟩ ∧ (interfaceBody? t ⟨33⟩).map (·.embedded) = some [⟨32⟩, ⟨31⟩] := by
    obtain ⟨rfl, rfl⟩ := Prod.mk.inj hread
    decide +kernel
  obtain ⟨rfl, hinterfaces, hnone, hself, horigin, hsame, hbefore⟩ := h
  obtain ⟨⟨bodies, t'⟩, hrun⟩ : ∃ r, (orderInterfacesBy id [⟨31⟩, ⟨32⟩, ⟨33⟩]).run t = r := ⟨_, rfl⟩
  have hdeclared : ∀ l : List TypeId, (id l).Perm l := fun l => .refl l
  obtain ⟨cut, order, -, hcycle, hloses, hkeeps, hget, -, -, horder⟩ :=
    exists_breaks_of_run_orderInterfacesBy hdeclared t (by decide) hrun hinterfaces
  -- if none of the two had lost its embeddings, the first would come after itself
  have hcut : ∃ v ∈ cut, writtenAs? t v = writtenAs? t ⟨33⟩ := by
    by_contra hcut
    have hkeep : interfaceBody? t' ⟨32⟩ = interfaceBody? t ⟨32⟩ :=
      hkeeps ⟨32⟩ (by decide) fun v hv heq => hcut ⟨v, hv, heq.trans hsame⟩
    have hnamed : t'.named? ⟨32⟩ = t.named? ⟨32⟩ := by
      rw [Table.named?, hget ⟨32⟩ fun v hv => (hnone v (hcycle v hv).1).2, Table.named?]
    obtain ⟨i, hi, hembedded⟩ := Option.map_eq_some_iff.1 hself
    obtain ⟨d, hd, horigin⟩ := Option.map_eq_some_iff.1 horigin
    have hlt := horder ⟨32⟩ (by decide) ⟨32⟩ (by simp [embeddedDeclarations, hkeep, hi, hembedded, hnamed, hd, horigin])
    exact absurd hlt (Nat.lt_irrefl _)
  refine ⟨t, hread, fun u hu => ?_, hbefore, ?_⟩
  · rw [embeddings] at hu
    split at hu
    · rename_i hmem
      exact (hnone u hmem).1 hu
    · cases hu
  · obtain ⟨i, hi, -⟩ := Option.map_eq_some_iff.1 hbefore
    rw [hrun, hloses ⟨33⟩ (by decide) hcut, hi]
    rfl

end UnusedMethods.Typing
