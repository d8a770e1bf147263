import Mathlib.Data.List.Find
import Mathlib.Data.List.Nodup
import Mathlib.Data.List.Perm.Basic
import Mathlib.Data.Nat.Find
import Mathlib.Logic.Function.Iterate
import UnusedMethods.Proofs.DepthFirst

/-!
# Graphs that are drawn in different orders

The edges of a graph are entered node by node. In which order the nodes are visited for this is not part of the graph, but
where there are cycles it decides which node is reported, and so which edges are taken away.

The nodes that may be reported are those of `reportable`, which does not depend on the order of visits. Of these it is the
one that is visited first. Where every node on a cycle has one outgoing edge at most, there is only one that may be
reported, each time, and the order of visits decides nothing.
-/

namespace UnusedMethods.Digraph

variable {α : Type} [DecidableEq α]

/-- `searchFrom` along the edges that `next` lists. -/
def searchAlong (next : α → List α) : Nat → Search α → α → Except α (Search α)
  | 0, s, _ => .ok s
  | n + 1, s, u =>
    if s.seen.contains u then .ok s
    else if (next u).contains u then .error u
    else do
      let s ← (next u).foldlM (searchAlong next n) { s with seen := u :: s.seen }
      return { s with finished := u :: s.finished }

/-- `finishingOrder` along the edges that `next` lists. -/
def orderAlong (nodes : List α) (next : α → List α) : Except α (List α) := do
  let s ← nodes.foldlM (searchAlong next (nodes.length + 1)) { seen := [], finished := [] }
  return s.finished

theorem searchFrom_eq (g : Digraph α) (n : Nat) : g.searchFrom n = searchAlong g.successors n := by
  induction n with
  | zero => rfl
  | succ n ih =>
    funext s u
    rw [searchFrom, searchAlong, ih]

theorem finishingOrder_eq (g : Digraph α) : g.finishingOrder = orderAlong g.nodes g.successors := by
  rw [finishingOrder, orderAlong, searchFrom_eq]

/-- The nodes with an edge to an earlier node of a list, of those edges that lead to the first node that has such edges. The
second list holds the nodes already passed. -/
def backwardAlong (nodes : List α) (next : α → List α) : List α → List α → List α
  | [], _ => []
  | u :: us, earlier =>
    match nodes.filter fun v => (next v).contains u && !(u :: earlier).contains v with
    | [] => backwardAlong nodes next us (u :: earlier)
    | v :: vs => v :: vs

/-- The nodes that may be reported to be on a cycle. -/
def reportable (nodes : List α) (next : α → List α) : List α :=
  match orderAlong nodes next with
  | .error u => [u]
  | .ok order => backwardAlong nodes next order []

/-- A graph with the edges that `next` lists, which were entered node by node as the nodes were visited. -/
structure DrawnBy (nodes : List α) (next : α → List α) (visit : List α) (g : Digraph α) : Prop where
  nodup : nodes.Nodup
  starts : ∀ u, u ∉ nodes → next u = []
  ends : ∀ u, next u ⊆ nodes
  visited : visit.Perm nodes
  nodes_eq : g.nodes = nodes
  entered : (g.entered.map fun e => (e.source, e.target)) = visit.flatMap fun u => (next u).map (u, ·)
  numbers : (g.edges.map (·.number)).Nodup

/-! ## Edges in the order of entry -/

section Entered

omit [DecidableEq α]

theorem entered_perm (g : Digraph α) : g.entered.Perm g.edges := List.mergeSort_perm ..

theorem pairwise_entered (g : Digraph α) : g.entered.Pairwise fun e f => e.number ≤ f.number := by
  refine (List.pairwise_mergeSort ?_ ?_ g.edges).imp of_decide_eq_true
  · intro a b c hab hbc
    exact decide_eq_true (Nat.le_trans (of_decide_eq_true hab) (of_decide_eq_true hbc))
  · intro a b
    simpa using Nat.le_total a.number b.number

theorem entered_eq {g : Digraph α} (hnumbers : (g.edges.map (·.number)).Nodup) {es : List (Edge α)}
    (hperm : es.Perm g.edges) (hsorted : es.Pairwise fun e f => e.number ≤ f.number) : g.entered = es := by
  refine List.Perm.eq_of_pairwise ?_ g.pairwise_entered hsorted (g.entered_perm.trans hperm.symm)
  intro e f he hf hle hge
  exact List.inj_on_of_nodup_map hnumbers (g.entered_perm.mem_iff.1 he) (hperm.mem_iff.1 hf) (Nat.le_antisymm hle hge)

theorem map_number_ofEdges (nodes : List α) (pairs : List (α × α)) :
    (ofEdges nodes pairs).edges.map (·.number) = List.range pairs.length := by
  refine List.ext_getElem (by simp [ofEdges]) fun i h₁ h₂ => ?_
  simp [ofEdges]

theorem nodup_numbers_ofEdges (nodes : List α) (pairs : List (α × α)) :
    ((ofEdges nodes pairs).edges.map (·.number)).Nodup :=
  map_number_ofEdges nodes pairs ▸ List.nodup_range

theorem map_entered_ofEdges (nodes : List α) (pairs : List (α × α)) :
    ((ofEdges nodes pairs).entered.map fun e => (e.source, e.target)) = pairs := by
  have hsorted : ((ofEdges nodes pairs).edges.map (·.number)).Pairwise (· ≤ ·) := by
    rw [map_number_ofEdges]
    exact List.pairwise_le_range
  rw [entered_eq (nodup_numbers_ofEdges nodes pairs) (.refl _) (List.pairwise_map.1 hsorted)]
  refine List.ext_getElem (by simp [ofEdges]) fun i h₁ h₂ => ?_
  simp [ofEdges]

end Entered

namespace DrawnBy

variable {nodes visit visit' : List α} {next : α → List α} {g g' : Digraph α} {u v : α}

omit [DecidableEq α] in
theorem nodup_visit (h : DrawnBy nodes next visit g) : visit.Nodup := h.visited.nodup_iff.2 h.nodup

omit [DecidableEq α] in
theorem ofEdges (hnodup : nodes.Nodup) (hstarts : ∀ u, u ∉ nodes → next u = []) (hends : ∀ u, next u ⊆ nodes)
    (hvisit : visit.Perm nodes) :
    DrawnBy nodes next visit (.ofEdges nodes (visit.flatMap fun u => (next u).map (u, ·))) :=
  ⟨hnodup, hstarts, hends, hvisit, rfl, map_entered_ofEdges .., nodup_numbers_ofEdges ..⟩

theorem successors_eq (h : DrawnBy nodes next visit g) : g.successors = next := by
  have hpairs : ∀ u, g.successors u = (visit.flatMap fun u => (next u).map (u, ·)).filterMap fun p =>
      if p.1 = u then some p.2 else none := by
    intro u
    rw [← h.entered, List.filterMap_map]
    rfl
  have hvisited : ∀ u, g.successors u = if u ∈ visit then next u else [] := by
    intro u
    rw [hpairs]
    have hnodup := h.nodup_visit
    clear hpairs h
    induction visit with
    | nil => rfl
    | cons w visit ih =>
      obtain ⟨hw, hnodup⟩ := List.nodup_cons.1 hnodup
      rw [List.flatMap_cons, List.filterMap_append, ih hnodup, List.filterMap_map]
      by_cases heq : w = u
      · subst heq
        simp [hw]
      · have hne : u ≠ w := fun h => heq h.symm
        simp [heq, hne]
  funext u
  rw [hvisited]
  split
  · rfl
  · rename_i hu
    exact (h.starts u fun hmem => hu (h.visited.mem_iff.2 hmem)).symm

theorem leads_iff (h : DrawnBy nodes next visit g) : g.Leads u v ↔ v ∈ next u := by rw [Leads, h.successors_eq]

theorem closed (h : DrawnBy nodes next visit g) : g.Closed := by
  intro u v hlead
  rw [h.nodes_eq]
  exact h.ends u (h.leads_iff.1 hlead)

/-- Of the edges to a node, that one has been entered first whose start was visited first. -/
theorem find?_predecessors (h : DrawnBy nodes next visit g) (u : α) (p : α → Bool) :
    (g.predecessors u).find? p = visit.find? fun v => (next v).contains u && p v := by
  have hpairs : g.predecessors u = (visit.flatMap fun u => (next u).map (u, ·)).filterMap fun q =>
      if q.2 = u then some q.1 else none := by
    rw [← h.entered, List.filterMap_map]
    rfl
  rw [hpairs]
  clear hpairs h
  induction visit with
  | nil => rfl
  | cons w visit ih =>
    -- what comes of one node are copies of it
    have hcopies : ((next w).map (w, ·)).filterMap (fun q : α × α => if q.2 = u then some q.1 else none) =
        List.replicate ((next w).count u) w := by
      generalize next w = targets
      induction targets with
      | nil => rfl
      | cons x targets ih =>
        rw [List.map_cons, List.filterMap_cons, ih]
        by_cases heq : x = u
        · simp [heq, List.replicate_succ]
        · simp [heq]
    rw [List.flatMap_cons, List.filterMap_append, List.find?_append, ih, hcopies, List.find?_cons, List.find?_replicate]
    by_cases hmem : u ∈ next w
    · have hcount : 0 < (next w).count u := List.count_pos_iff.2 hmem
      cases p w with
      | true => simp [hmem, Nat.ne_of_gt hcount]
      | false => simp
    · simp [hmem, List.count_eq_zero_of_not_mem]

theorem finishingOrder_eq (h : DrawnBy nodes next visit g) : g.finishingOrder = orderAlong nodes next := by
  rw [Digraph.finishingOrder_eq, h.nodes_eq, h.successors_eq]

/-! ## What is reported -/

theorem backward?_eq (h : DrawnBy nodes next visit g) (order earlier : List α) :
    g.backward? order earlier = visit.find? (backwardAlong nodes next order earlier).contains := by
  have hnone : visit.find? ([] : List α).contains = none := List.find?_eq_none.2 (by simp)
  induction order generalizing earlier with
  | nil => exact hnone.symm
  | cons u us ih =>
    rw [backward?, backwardAlong, h.find?_predecessors]
    -- whether a node is among those found is the same question for all that are visited
    have hfound : ∀ vs, (nodes.filter fun v => (next v).contains u && !(u :: earlier).contains v) = vs →
        (visit.find? fun v => (next v).contains u && !(u :: earlier).contains v) = visit.find? vs.contains := by
      rintro vs rfl
      refine List.find?_congr fun v hv => ?_
      rw [Bool.eq_iff_iff, List.contains_iff_mem, List.mem_filter, and_iff_right (h.visited.mem_iff.1 hv)]
    split
    · rename_i w hfind
      rw [← hfind]
      split
      · rename_i hnil
        rw [hfound _ hnil, hnone] at hfind
        cases hfind
      · rename_i v vs hcons
        exact hfound _ hcons
    · rename_i hfind
      split
      · exact ih _
      · rename_i v vs hcons
        rw [hfound _ hcons, List.find?_eq_none] at hfind
        have hv : v ∈ nodes := List.mem_of_mem_filter (hcons ▸ List.mem_cons_self)
        exact absurd (by simp) (hfind v (h.visited.mem_iff.2 hv))

/-- A search fails at a node with an edge to itself, which is visited at some time. -/
theorem orderAlong_eq_error (h : DrawnBy nodes next visit g) (hrun : orderAlong nodes next = .error v) : v ∈ next v :=
  h.leads_iff.1 (finishingOrder_eq_error (h.finishingOrder_eq.trans hrun))

theorem mem_of_mem_next (h : DrawnBy nodes next visit g) (hv : v ∈ next u) : u ∈ nodes := by
  by_contra hu
  rw [h.starts u hu] at hv
  cases hv

theorem topologicalOrder_eq_error_iff (h : DrawnBy nodes next visit g) :
    g.topologicalOrder = .error v ↔ visit.find? (reportable nodes next).contains = some v := by
  rw [topologicalOrder, h.finishingOrder_eq]
  cases horder : orderAlong nodes next with
  | error u =>
    have hreportable : reportable nodes next = [u] := by rw [reportable, horder]
    have hu : u ∈ visit := h.visited.mem_iff.2 (h.mem_of_mem_next (h.orderAlong_eq_error horder))
    have hfind : visit.find? (reportable nodes next).contains = some u := by
      obtain ⟨w, hw⟩ := Option.isSome_iff_exists.1 (List.find?_isSome.2 ⟨u, hu, by simp [hreportable]⟩ :
        (visit.find? (reportable nodes next).contains).isSome)
      have hmem := List.find?_some hw
      rw [hw]
      simpa [hreportable] using hmem
    rw [hfind]
    simp [bind, Except.bind]
  | ok order =>
    have hreportable : reportable nodes next = backwardAlong nodes next order [] := by rw [reportable, horder]
    rw [hreportable, ← h.backward?_eq]
    simp only [bind, Except.bind]
    cases g.backward? order [] with
    | some w => simp
    | none => simp [pure, Except.pure]

theorem topologicalOrder_eq_ok (h : DrawnBy nodes next visit g) {order : List α} (hrun : g.topologicalOrder = .ok order) :
    orderAlong nodes next = .ok order := by
  rw [topologicalOrder, h.finishingOrder_eq] at hrun
  cases horder : orderAlong nodes next with
  | error u =>
    rw [horder] at hrun
    cases hrun
  | ok order' =>
    simp only [horder, bind, Except.bind] at hrun
    split at hrun
    · cases hrun
    · exact hrun

/-- All nodes that may be reported have an edge to the same node, which comes before them. -/
theorem backwardAlong_spec (nodes : List α) (next : α → List α) (order earlier : List α)
    (hne : backwardAlong nodes next order earlier ≠ []) :
    ∃ before u after, order = before ++ u :: after ∧
      ∀ v ∈ backwardAlong nodes next order earlier, v ∈ nodes ∧ u ∈ next v ∧ v ≠ u ∧ v ∉ before ∧ v ∉ earlier := by
  induction order generalizing earlier with
  | nil => exact absurd rfl hne
  | cons u us ih =>
    rw [backwardAlong] at hne ⊢
    split
    · rename_i hnil
      rw [hnil] at hne
      obtain ⟨before, w, after, heq, hall⟩ := ih (u :: earlier) hne
      refine ⟨u :: before, w, after, by rw [heq, List.cons_append], fun v hv => ?_⟩
      obtain ⟨hnode, hnext, hw, hbefore, hearlier⟩ := hall v hv
      simp only [List.mem_cons, not_or] at hearlier ⊢
      exact ⟨hnode, hnext, hw, ⟨hearlier.1, hbefore⟩, hearlier.2⟩
    · rename_i w ws hcons
      refine ⟨[], u, us, rfl, fun v hv => ?_⟩
      rw [← hcons, List.mem_filter] at hv
      simpa [and_assoc] using hv

/-- The nodes that may be reported have an edge to one node, and can be reached from it. -/
theorem reportable_spec (h : DrawnBy nodes next visit g) (hne : reportable nodes next ≠ []) :
    ∃ u, ∀ v ∈ reportable nodes next, g.Leads v u ∧ Relation.ReflTransGen g.Leads u v := by
  rw [reportable] at hne ⊢
  split
  · rename_i u horder
    refine ⟨u, fun v hv => ?_⟩
    obtain rfl := List.mem_singleton.1 hv
    exact ⟨h.leads_iff.2 (h.orderAlong_eq_error horder), .refl⟩
  · rename_i order horder
    rw [horder] at hne
    obtain ⟨before, u, after, heq, hall⟩ := backwardAlong_spec nodes next order [] hne
    refine ⟨u, fun v hv => ?_⟩
    obtain ⟨hnode, hnext, hvu, hbefore, -⟩ := hall v hv
    have hlead := h.leads_iff.2 hnext
    refine ⟨hlead, reaches_of_backward h.closed (h.finishingOrder_eq.trans horder) heq hlead ?_ hbefore hvu⟩
    rwa [h.nodes_eq]

end DrawnBy

/-! ## Cycles without branches -/

/-- No node on a cycle has two outgoing edges. -/
def Unbranched (next : α → List α) : Prop :=
  ∀ u, Relation.TransGen (fun x y => y ∈ next x) u u → (next u).length ≤ 1

/-- Where the first edge from a node leads, if there is one. -/
def along (next : α → List α) (u : α) : α := (next u).headD u

namespace Unbranched

variable {next : α → List α} {u v w : α}

omit [DecidableEq α]

theorem along_eq (hlength : (next u).length ≤ 1) (hv : v ∈ next u) : along next u = v := by
  rw [along]
  cases hnext : next u with
  | nil =>
    rw [hnext] at hv
    cases hv
  | cons w ws =>
    rw [hnext] at hlength hv
    obtain rfl : ws = [] := List.length_eq_zero_iff.1 (by simpa using hlength)
    exact (List.mem_singleton.1 hv).symm

/-- Along nodes with one outgoing edge, whatever is reached is reached by going on. -/
theorem exists_iterate (h : ∀ x, Relation.ReflTransGen (fun x y => y ∈ next x) u x →
    Relation.ReflTransGen (fun x y => y ∈ next x) x v → (next x).length ≤ 1)
    (hreach : Relation.ReflTransGen (fun x y => y ∈ next x) u v) : ∃ n, (along next)^[n] u = v := by
  induction hreach using Relation.ReflTransGen.head_induction_on with
  | refl => exact ⟨0, rfl⟩
  | head hstep hrest ih =>
    obtain ⟨n, hn⟩ := ih fun z hz => h z (.head hstep hz)
    have hlength := h _ .refl (.head hstep hrest)
    exact ⟨n + 1, by rw [Function.iterate_succ_apply, along_eq hlength hstep, hn]⟩

/-- On a cycle without branches, one node at most comes before another. -/
theorem eq_of_mem_next (h : Unbranched next) (hv : u ∈ next v) (hw : u ∈ next w)
    (hreachv : Relation.ReflTransGen (fun x y => y ∈ next x) u v)
    (hreachw : Relation.ReflTransGen (fun x y => y ∈ next x) u w) : v = w := by
  have hround : ∀ {v}, u ∈ next v → Relation.ReflTransGen (fun x y => y ∈ next x) u v →
      along next v = u ∧ ∃ n, (along next)^[n] u = v := by
    intro v hv hreach
    have hcycle : ∀ x, Relation.ReflTransGen (fun x y => y ∈ next x) u x →
        Relation.ReflTransGen (fun x y => y ∈ next x) x v → (next x).length ≤ 1 :=
      fun x hux hxv => h x ((Relation.TransGen.tail' hxv hv).trans_left hux)
    exact ⟨along_eq (hcycle v hreach .refl) hv, exists_iterate hcycle hreach⟩
  obtain ⟨halongv, hexv⟩ := hround hv hreachv
  obtain ⟨halongw, hexw⟩ := hround hw hreachw
  classical
  -- after a whole round all is as before, so what comes first before `u` is not reached later than the other
  have hle : ∀ {v w} (hexv : ∃ n, (along next)^[n] u = v) (hexw : ∃ n, (along next)^[n] u = w), along next v = u →
      Nat.find hexw ≤ Nat.find hexv := by
    intro v w hexv hexw halong
    by_contra hlt
    have hback : (along next)^[Nat.find hexv + 1] u = u := by
      rw [Function.iterate_succ_apply', Nat.find_spec hexv, halong]
    have hshort : (along next)^[Nat.find hexw - (Nat.find hexv + 1)] u = w := by
      have hspec := Nat.find_spec hexw
      rw [← Nat.sub_add_cancel (show Nat.find hexv + 1 ≤ Nat.find hexw by omega), Function.iterate_add_apply, hback] at hspec
      exact hspec
    exact Nat.find_min hexw (by omega) hshort
  have heq : Nat.find hexv = Nat.find hexw := Nat.le_antisymm (hle hexw hexv halongw) (hle hexv hexw halongv)
  rw [← Nat.find_spec hexv, heq, Nat.find_spec hexw]

/-- A node without edges is on no cycle. -/
theorem update [DecidableEq α] (h : Unbranched next) (v : α) : Unbranched (Function.update next v []) := by
  have hsub : ∀ u, Function.update next v [] u ⊆ next u := by
    intro u
    rw [Function.update_apply]
    split
    · exact List.nil_subset _
    · exact List.Subset.refl _
  intro u hcycle
  have hlength := h u (Relation.TransGen.mono (fun x y hy => hsub x hy) u u hcycle)
  rw [Function.update_apply]
  split
  · simp
  · exact hlength

end Unbranched

namespace DrawnBy

variable {nodes visit visit' : List α} {next : α → List α} {g g' : Digraph α} {u v w : α}

theorem leads_eq (h : DrawnBy nodes next visit g) : g.Leads = fun x y => y ∈ next x := by
  funext x y
  exact propext h.leads_iff

theorem transGen_of_mem_reportable (h : DrawnBy nodes next visit g) (hv : v ∈ reportable nodes next) :
    Relation.TransGen (fun x y => y ∈ next x) v v := by
  obtain ⟨u, hall⟩ := h.reportable_spec (List.ne_nil_of_mem hv)
  obtain ⟨hlead, hreach⟩ := hall v hv
  rw [h.leads_eq] at hlead hreach
  exact .head' hlead hreach

theorem mem_of_mem_reportable (h : DrawnBy nodes next visit g) (hv : v ∈ reportable nodes next) : v ∈ nodes := by
  obtain ⟨u, hall⟩ := h.reportable_spec (List.ne_nil_of_mem hv)
  exact h.mem_of_mem_next (h.leads_iff.1 (hall v hv).1)

theorem eq_of_mem_reportable (h : DrawnBy nodes next visit g) (hnext : Unbranched next) (hv : v ∈ reportable nodes next)
    (hw : w ∈ reportable nodes next) : v = w := by
  obtain ⟨u, hall⟩ := h.reportable_spec (List.ne_nil_of_mem hv)
  obtain ⟨hleadv, hreachv⟩ := hall v hv
  obtain ⟨hleadw, hreachw⟩ := hall w hw
  rw [h.leads_eq] at hleadv hreachv hleadw hreachw
  exact hnext.eq_of_mem_next hleadv hleadw hreachv hreachw

/-- Where there is one node that may be reported, it does not matter when it is visited. -/
theorem topologicalOrder_eq (h : DrawnBy nodes next visit g) (h' : DrawnBy nodes next visit' g') (hnext : Unbranched next) :
    g.topologicalOrder = g'.topologicalOrder := by
  have hsame : ∀ {visit visit' : List α} {g g' : Digraph α}, DrawnBy nodes next visit g → DrawnBy nodes next visit' g' →
      ∀ v, g.topologicalOrder = .error v → g'.topologicalOrder = .error v := by
    intro visit visit' g g' h h' v hrun
    have hfind := h.topologicalOrder_eq_error_iff.1 hrun
    have hv : v ∈ reportable nodes next := List.contains_iff_mem.1 (List.find?_some hfind)
    have hvisit : v ∈ visit' := h'.visited.mem_iff.2 (h.visited.mem_iff.1 (List.mem_of_find?_eq_some hfind))
    obtain ⟨w, hw⟩ := Option.isSome_iff_exists.1 (List.find?_isSome.2 ⟨v, hvisit, List.contains_iff_mem.2 hv⟩)
    rw [h'.topologicalOrder_eq_error_iff, hw,
      h.eq_of_mem_reportable hnext (List.contains_iff_mem.1 (List.find?_some hw)) hv]
  cases hrun : g.topologicalOrder with
  | error v => exact (hsame h h' v hrun).symm
  | ok order =>
    cases hrun' : g'.topologicalOrder with
    | error v =>
      rw [hsame h' h v hrun'] at hrun
      cases hrun
    | ok order' =>
      have heq := (h.topologicalOrder_eq_ok hrun).symm.trans (h'.topologicalOrder_eq_ok hrun')
      exact heq

end DrawnBy

/-! ## Taking edges away -/

section Remove

variable {g : Digraph α} {u v : α}

omit [DecidableEq α] in
theorem nodes_removeAt (g : Digraph α) (i : Nat) : (g.removeAt i).nodes = g.nodes := by
  rw [removeAt]
  split
  · split <;> rfl
  · rfl

theorem nodes_removeOutgoing (g : Digraph α) (v : α) : (g.removeOutgoing v).nodes = g.nodes := by
  rw [removeOutgoing]
  generalize g.outgoing v = places
  induction places generalizing g with
  | nil => rfl
  | cons i places ih => rw [List.foldl_cons, ih, nodes_removeAt]

omit [DecidableEq α] in
/-- One edge is taken away, and the others change places. -/
theorem removeAt_perm {i : Nat} {e : Edge α} (h : g.edges[i]? = some e) : (e :: (g.removeAt i).edges).Perm g.edges := by
  obtain ⟨hi, -⟩ := List.getElem?_eq_some_iff.1 h
  have hne : g.edges ≠ [] := by
    intro hnil
    simp [hnil] at hi
  obtain ⟨init, last, hsplit⟩ : ∃ init last, g.edges = init ++ [last] :=
    ⟨_, _, (List.dropLast_append_getLast hne).symm⟩
  rw [removeAt, hsplit, List.getLast?_concat]
  simp only
  rw [if_pos (by rwa [hsplit] at hi)]
  rw [hsplit] at h
  by_cases hlast : i < init.length
  · -- the last edge fills the gap
    rw [List.getElem?_append_left hlast] at h
    obtain ⟨_, he⟩ := List.getElem?_eq_some_iff.1 h
    rw [List.set_append_left _ _ hlast, List.dropLast_concat, List.set_eq_take_append_cons_drop, if_pos hlast]
    have hinit : init = init.take i ++ e :: init.drop (i + 1) := by
      rw [← he, List.getElem_cons_drop, List.take_append_drop]
    have hmiddle : (e :: (init.take i ++ last :: init.drop (i + 1))).Perm (last :: (init.take i ++ e :: init.drop (i + 1))) :=
      ((List.perm_middle.cons e).trans (.swap ..)).trans (List.perm_middle.symm.cons last)
    rw [← hinit] at hmiddle
    exact hmiddle.trans (List.perm_append_singleton ..).symm
  · have hi' : i = init.length := by
      rw [hsplit, List.length_append, List.length_singleton] at hi
      omega
    subst hi'
    rw [List.getElem?_concat_length] at h
    cases h
    rw [List.set_append_right _ _ (Nat.le_refl _), Nat.sub_self]
    simp only [List.set_cons_zero, List.dropLast_concat]
    exact (List.perm_append_singleton ..).symm

/-- The edge from a node is taken away, if there is one at most. -/
theorem removeOutgoing_perm (h : (g.edges.filter fun e => e.source = v).length ≤ 1) :
    (g.removeOutgoing v).edges.Perm (g.edges.filter fun e => e.source ≠ v) := by
  have hsplit : ((g.edges.filter fun e => e.source = v) ++ g.edges.filter fun e => e.source ≠ v).Perm g.edges := by
    simpa using List.filter_append_perm (fun e : Edge α => decide (e.source = v)) g.edges
  have hown : ((g.edges.mapIdx fun i e => (i, e)).filter fun p => p.2.source = v).map (·.2) =
      g.edges.filter fun e => e.source = v := by
    have hall : (g.edges.mapIdx fun i e => (i, e)).map (·.2) = g.edges :=
      List.ext_getElem (by simp) fun i h₁ h₂ => by simp
    conv_rhs => rw [← hall, List.filter_map]
    rfl
  cases hplaces : (g.edges.mapIdx fun i e => (i, e)).filter fun p => p.2.source = v with
  | nil =>
    have houtgoing : g.outgoing v = [] := by
      simp [outgoing, hplaces]
    rw [hplaces] at hown
    rw [← hown, List.map_nil, List.nil_append] at hsplit
    rw [removeOutgoing, houtgoing]
    exact hsplit.symm
  | cons p ps =>
    obtain ⟨i, e⟩ := p
    rw [hplaces] at hown
    obtain rfl : ps = [] := by
      rw [← hown, List.length_map, List.length_cons] at h
      exact List.length_eq_zero_iff.1 (by omega)
    have houtgoing : g.outgoing v = [i] := by
      simp [outgoing, hplaces]
    have hplace : g.edges[i]? = some e := by
      have hmem : (i, e) ∈ g.edges.mapIdx fun i e => (i, e) := List.mem_of_mem_filter (hplaces ▸ List.mem_singleton_self _)
      obtain ⟨j, hj, heq⟩ := List.mem_mapIdx.1 hmem
      cases heq
      exact List.getElem?_eq_getElem hj
    rw [removeOutgoing, houtgoing]
    rw [← hown] at hsplit
    exact List.perm_cons _ |>.1 ((removeAt_perm hplace).trans hsplit.symm)

theorem breakCyclesWithin_of_eq_ok {order : List α} (h : g.topologicalOrder = .ok order) (n : Nat) :
    breakCyclesWithin n g = ([], order) := by
  cases n <;> simp [breakCyclesWithin, h]

theorem breakCyclesWithin_zero_of_eq_error (h : g.topologicalOrder = .error v) : breakCyclesWithin 0 g = ([], g.nodes) := by
  simp [breakCyclesWithin, h]

theorem breakCyclesWithin_succ_of_eq_error (h : g.topologicalOrder = .error v) (n : Nat) :
    breakCyclesWithin (n + 1) g =
      (v :: (breakCyclesWithin n (g.removeOutgoing v)).1, (breakCyclesWithin n (g.removeOutgoing v)).2) := by
  simp [breakCyclesWithin, h]

end Remove

namespace DrawnBy

variable {nodes visit visit' : List α} {next : α → List α} {g g' : Digraph α} {u v w : α}

theorem length_filter_source (h : DrawnBy nodes next visit g) (v : α) :
    (g.edges.filter fun e => e.source = v).length = (next v).length := by
  rw [← h.successors_eq, successors, List.length_filterMap_eq_countP, ← (g.entered_perm.filter _).length_eq,
    ← List.countP_eq_length_filter]
  refine List.countP_congr fun e _ => ?_
  by_cases heq : e.source = v <;> simp [heq]

/-- A node loses its edge. The others have been entered as before. -/
theorem removeOutgoing (h : DrawnBy nodes next visit g) (hlength : (next v).length ≤ 1) :
    DrawnBy nodes (Function.update next v []) visit (g.removeOutgoing v) := by
  have hedges := removeOutgoing_perm (h.length_filter_source v ▸ hlength)
  have hnumbers : ((g.removeOutgoing v).edges.map (·.number)).Nodup :=
    ((hedges.map _).nodup_iff).2 (h.numbers.sublist (List.filter_sublist.map _))
  have hentered : (g.removeOutgoing v).entered = g.entered.filter fun e => e.source ≠ v :=
    entered_eq hnumbers ((g.entered_perm.filter _).trans hedges.symm) (g.pairwise_entered.filter _)
  refine ⟨h.nodup, fun u hu => ?_, fun u => ?_, h.visited,
    (g.nodes_removeOutgoing v).trans h.nodes_eq, ?_, hnumbers⟩
  · rw [Function.update_apply, h.starts u hu, ite_self]
  · rw [Function.update_apply]
    split
    · exact List.nil_subset _
    · exact h.ends u
  · have hmap : (g.entered.filter fun e => e.source ≠ v).map (fun e => (e.source, e.target)) =
        (visit.flatMap fun u => (next u).map (u, ·)).filter fun p => p.1 ≠ v := by
      rw [← h.entered, List.filter_map]
      rfl
    rw [hentered, hmap, List.filter_flatMap]
    congr 1
    funext u
    rw [Function.update_apply]
    by_cases heq : u = v <;> simp [heq, List.filter_map, Function.comp_def]

/-- The nodes that lose their edges, and the order in the end, do not depend on the order of visits. -/
theorem breakCyclesWithin_eq (h : DrawnBy nodes next visit g) (h' : DrawnBy nodes next visit' g') (hnext : Unbranched next)
    (n : Nat) : breakCyclesWithin n g = breakCyclesWithin n g' := by
  induction n generalizing next g g' with
  | zero =>
    cases hrun : g'.topologicalOrder with
    | ok order =>
      rw [breakCyclesWithin_of_eq_ok ((h.topologicalOrder_eq h' hnext).trans hrun), breakCyclesWithin_of_eq_ok hrun]
    | error v =>
      rw [breakCyclesWithin_zero_of_eq_error ((h.topologicalOrder_eq h' hnext).trans hrun),
        breakCyclesWithin_zero_of_eq_error hrun, h.nodes_eq, h'.nodes_eq]
  | succ n ih =>
    cases hrun : g'.topologicalOrder with
    | ok order =>
      rw [breakCyclesWithin_of_eq_ok ((h.topologicalOrder_eq h' hnext).trans hrun), breakCyclesWithin_of_eq_ok hrun]
    | error v =>
      have hfind := h'.topologicalOrder_eq_error_iff.1 hrun
      have hv : v ∈ reportable nodes next := List.contains_iff_mem.1 (List.find?_some hfind)
      have hlength : (next v).length ≤ 1 := hnext v (h.transGen_of_mem_reportable hv)
      rw [breakCyclesWithin_succ_of_eq_error ((h.topologicalOrder_eq h' hnext).trans hrun),
        breakCyclesWithin_succ_of_eq_error hrun,
        ih (h.removeOutgoing hlength) (h'.removeOutgoing hlength) (hnext.update v)]

omit [DecidableEq α] in
theorem length_edges (h : DrawnBy nodes next visit g) : g.edges.length = (nodes.flatMap next).length := by
  have hlength := congrArg List.length h.entered
  rw [List.length_map, g.entered_perm.length_eq] at hlength
  rw [hlength, (h.visited.flatMap_right _).length_eq]
  simp [List.length_flatMap]

theorem breakCycles_eq (h : DrawnBy nodes next visit g) (h' : DrawnBy nodes next visit' g') (hnext : Unbranched next) :
    g.breakCycles = g'.breakCycles := by
  rw [breakCycles, breakCycles, h.length_edges, h'.length_edges, h.breakCyclesWithin_eq h' hnext]

/-- The first node to lose its edges is the one that is visited first, of those that may be reported. -/
theorem head?_breakCycles (h : DrawnBy nodes next visit g) :
    g.breakCycles.1.head? = visit.find? (reportable nodes next).contains := by
  cases hrun : g.topologicalOrder with
  | ok order =>
    rw [breakCycles, breakCyclesWithin_of_eq_ok hrun]
    cases hfind : visit.find? (reportable nodes next).contains with
    | none => rfl
    | some v =>
      rw [h.topologicalOrder_eq_error_iff.2 hfind] at hrun
      cases hrun
  | error v =>
    have hfind := h.topologicalOrder_eq_error_iff.1 hrun
    -- a node that is reported has an edge to lose
    have hedges : g.edges.length ≠ 0 := by
      have hv : v ∈ reportable nodes next := List.contains_iff_mem.1 (List.find?_some hfind)
      obtain ⟨u, hall⟩ := h.reportable_spec (List.ne_nil_of_mem hv)
      have hu := h.leads_iff.1 (hall v hv).1
      rw [h.length_edges]
      exact Nat.ne_of_gt (List.length_pos_of_mem (List.mem_flatMap.2 ⟨v, h.mem_of_mem_next hu, hu⟩))
    obtain ⟨n, hn⟩ := Nat.exists_eq_succ_of_ne_zero hedges
    rw [hfind, breakCycles, hn, breakCyclesWithin_succ_of_eq_error hrun]
    rfl

end DrawnBy

end UnusedMethods.Digraph
