import Mathlib.Data.List.Perm.Subperm
import Mathlib.Logic.Relation
import UnusedMethods.Graph

/-!
# Depth-first search and cycles

A depth-first search finishes a node when everything that can be reached from it has been found. An edge from a finished
node leads to a node that was finished before, or back to one that the search was still busy with, and then there is a
cycle. So where an edge points backward in the order in which nodes are finished, its end leads back to its start.
-/

namespace UnusedMethods.Digraph

variable {α : Type} [DecidableEq α] {g : Digraph α}

/-- An edge leads from one node to another. -/
def Leads (g : Digraph α) (u v : α) : Prop := v ∈ g.successors u

/-- All edges lead to nodes of the graph. -/
def Closed (g : Digraph α) : Prop := ∀ u v, g.Leads u v → v ∈ g.nodes

/-- Of nodes that are listed with the latest finished first: an edge from one of them leads to a node that was finished
before it, or to a node from which it can be reached. -/
def Settled (g : Digraph α) (finished : List α) : Prop :=
  ∀ later u before, finished = later ++ u :: before → ∀ v, g.Leads u v → v ∈ before ∨ Relation.ReflTransGen g.Leads v u

/-- Progress of a search that is busy with the nodes of a stack. -/
structure Busy (g : Digraph α) (stack : List α) (s : Search α) : Prop where
  seen : ∀ u, u ∈ s.seen ↔ u ∈ s.finished ∨ u ∈ stack
  seenNodup : s.seen.Nodup
  finishedNodup : s.finished.Nodup
  nodes : ∀ u ∈ s.seen, u ∈ g.nodes
  apart : ∀ u ∈ stack, u ∉ s.finished
  settled : g.Settled s.finished

namespace Busy

variable {stack : List α} {s s' : Search α} {u : α}

theorem start : g.Busy [] { seen := [], finished := [] } := by
  refine ⟨by simp, .nil, .nil, by simp, by simp, ?_⟩
  intro later u before heq
  simp at heq

theorem length_seen_le (h : g.Busy stack s) : s.seen.length ≤ g.nodes.length :=
  (List.subperm_of_subset h.seenNodup h.nodes).length_le

theorem push (h : g.Busy stack s) (hu : u ∈ g.nodes) (hnew : u ∉ s.seen) :
    g.Busy (u :: stack) { s with seen := u :: s.seen } := by
  have hfinished : u ∉ s.finished := fun hmem => hnew ((h.seen u).2 (.inl hmem))
  refine ⟨fun v => ?_, List.nodup_cons.2 ⟨hnew, h.seenNodup⟩, h.finishedNodup, ?_, ?_, h.settled⟩
  · have hv := h.seen v
    simp only [List.mem_cons]
    tauto
  · exact List.forall_mem_cons.2 ⟨hu, h.nodes⟩
  · exact List.forall_mem_cons.2 ⟨hfinished, h.apart⟩

/-- A node is finished, when all nodes to which edges lead from it have been found. -/
theorem pop (h : g.Busy (u :: stack) s) (hstack : u ∉ stack) (hreach : ∀ w ∈ stack, Relation.ReflTransGen g.Leads w u)
    (hfound : ∀ v, g.Leads u v → v ∈ s.seen) : g.Busy stack { s with finished := u :: s.finished } := by
  have hfinished : u ∉ s.finished := h.apart u List.mem_cons_self
  refine ⟨fun v => ?_, h.seenNodup, List.nodup_cons.2 ⟨hfinished, h.finishedNodup⟩, h.nodes, ?_, ?_⟩
  · have hv := h.seen v
    simp only [List.mem_cons] at hv ⊢
    tauto
  · intro w hw hmem
    rcases List.mem_cons.1 hmem with rfl | hmem
    · exact hstack hw
    · exact h.apart w (List.mem_cons_of_mem _ hw) hmem
  · intro later x before heq v hv
    cases later with
    | nil =>
      obtain ⟨rfl, rfl⟩ := List.cons.inj heq
      rcases (h.seen v).1 (hfound v hv) with hmem | hmem
      · exact .inl hmem
      · rcases List.mem_cons.1 hmem with rfl | hmem
        · exact .inr .refl
        · exact .inr (hreach v hmem)
    | cons y later =>
      obtain ⟨-, heq⟩ := List.cons.inj heq
      exact h.settled later x before heq v hv

end Busy

/-- What a search leads to, if it goes on from a node. -/
def Finds (g : Digraph α) (stack : List α) (us : List α) (s s' : Search α) : Prop :=
  g.Busy stack s' ∧ s.seen ⊆ s'.seen ∧ ∀ u ∈ us, u ∈ s'.seen

theorem finds_foldlM {stack us : List α} {n : Nat} {s s' : Search α} (h : g.Busy stack s)
    (hn : g.nodes.length + 1 ≤ n + s.seen.length)
    (hstep : ∀ u ∈ us, ∀ s₁ s₂, g.Busy stack s₁ → g.nodes.length + 1 ≤ n + s₁.seen.length →
      g.searchFrom n s₁ u = .ok s₂ → g.Finds stack [u] s₁ s₂)
    (hrun : us.foldlM (g.searchFrom n) s = .ok s') : g.Finds stack us s s' := by
  induction us generalizing s with
  | nil =>
    cases hrun
    exact ⟨h, List.Subset.refl _, by simp⟩
  | cons u us ih =>
    rw [List.foldlM_cons] at hrun
    cases hfirst : g.searchFrom n s u with
    | error v =>
      rw [hfirst] at hrun
      cases hrun
    | ok s₁ =>
      rw [hfirst] at hrun
      obtain ⟨hbusy₁, hsub₁, hu⟩ := hstep u List.mem_cons_self s s₁ h hn hfirst
      have hlength : s.seen.length ≤ s₁.seen.length := (List.subperm_of_subset h.seenNodup hsub₁).length_le
      have hrest := ih hbusy₁ (by omega) (fun v hv => hstep v (List.mem_cons_of_mem _ hv)) hrun
      obtain ⟨hbusy, hsub, hus⟩ := hrest
      refine ⟨hbusy, List.Subset.trans hsub₁ hsub, List.forall_mem_cons.2 ⟨hsub (hu u (by simp)), hus⟩⟩

/-- A search from a node finds all that is to be found. The levels that it is given suffice, as every level finds a node. -/
theorem finds_searchFrom (hclosed : g.Closed) {n : Nat} {stack : List α} {s s' : Search α} {u : α} (h : g.Busy stack s)
    (hu : u ∈ g.nodes) (hreach : ∀ w ∈ stack, Relation.ReflTransGen g.Leads w u)
    (hn : g.nodes.length + 1 ≤ n + s.seen.length) (hrun : g.searchFrom n s u = .ok s') : g.Finds stack [u] s s' := by
  induction n generalizing stack s s' u with
  | zero =>
    have hlength := h.length_seen_le
    omega
  | succ n ih =>
    rw [searchFrom] at hrun
    split at hrun
    · rename_i hseen
      cases hrun
      exact ⟨h, List.Subset.refl _, by simpa using hseen⟩
    · rename_i hnew
      have hnew : u ∉ s.seen := by simpa using hnew
      split at hrun
      · cases hrun
      · cases hfold : (g.successors u).foldlM (g.searchFrom n) { s with seen := u :: s.seen } with
        | error v =>
          rw [hfold] at hrun
          cases hrun
        | ok s₁ =>
          rw [hfold] at hrun
          cases hrun
          have hpush := h.push hu hnew
          have hn' : g.nodes.length + 1 ≤ n + (u :: s.seen).length := by
            rw [List.length_cons]
            omega
          have hfinds : g.Finds (u :: stack) (g.successors u) { s with seen := u :: s.seen } s₁ := by
            refine finds_foldlM hpush hn' (fun v hv s₂ s₃ hbusy hn₂ hrun₂ => ?_) hfold
            refine ih hbusy (hclosed u v hv) (List.forall_mem_cons.2 ⟨.single hv, fun w hw => ?_⟩) hn₂ hrun₂
            exact (hreach w hw).tail hv
          obtain ⟨hbusy, hsub, hfound⟩ := hfinds
          have hstack : u ∉ stack := fun hmem => hnew ((h.seen u).2 (.inr hmem))
          refine ⟨hbusy.pop hstack hreach hfound, fun v hv => hsub (List.mem_cons_of_mem _ hv), ?_⟩
          intro v hv
          obtain rfl := List.mem_singleton.1 hv
          exact hsub List.mem_cons_self

theorem leads_of_foldlM_eq_error {n : Nat} {us : List α} {s : Search α} {v : α}
    (hstep : ∀ s u, g.searchFrom n s u = .error v → g.Leads v v) (h : us.foldlM (g.searchFrom n) s = .error v) :
    g.Leads v v := by
  induction us generalizing s with
  | nil => cases h
  | cons u us ih =>
    rw [List.foldlM_cons] at h
    cases hfirst : g.searchFrom n s u with
    | error w =>
      rw [hfirst] at h
      cases h
      exact hstep s u hfirst
    | ok s₁ =>
      rw [hfirst] at h
      exact ih h

theorem leads_of_searchFrom_eq_error {n : Nat} {s : Search α} {u v : α} (h : g.searchFrom n s u = .error v) : g.Leads v v := by
  induction n generalizing s u with
  | zero => cases h
  | succ n ih =>
    rw [searchFrom] at h
    split at h
    · cases h
    · split at h
      · rename_i hself
        cases h
        exact List.contains_iff_mem.1 hself
      · cases hfold : (g.successors u).foldlM (g.searchFrom n) { s with seen := u :: s.seen } with
        | ok s₁ =>
          rw [hfold] at h
          cases h
        | error w =>
          rw [hfold] at h
          cases h
          exact leads_of_foldlM_eq_error (fun s u => ih) hfold

/-! ## The order in which nodes are finished -/

/-- Every node is finished once, and edges lead to nodes that were finished before, or back. -/
theorem finishingOrder_eq_ok (hclosed : g.Closed) {order : List α} (h : g.finishingOrder = .ok order) :
    order.Nodup ∧ (∀ u, u ∈ order ↔ u ∈ g.nodes) ∧ g.Settled order := by
  unfold finishingOrder at h
  cases hfold : g.nodes.foldlM (g.searchFrom (g.nodes.length + 1)) { seen := [], finished := [] } with
  | error v =>
    rw [hfold] at h
    cases h
  | ok s =>
    rw [hfold] at h
    cases h
    have hfinds : g.Finds [] g.nodes { seen := [], finished := [] } s :=
      finds_foldlM .start (by simp) (fun u hu s₁ s₂ hbusy hn hrun =>
        finds_searchFrom hclosed hbusy hu (by simp) hn hrun) hfold
    obtain ⟨hbusy, -, hall⟩ := hfinds
    have hseen : ∀ u, u ∈ s.seen ↔ u ∈ s.finished := by simpa using hbusy.seen
    refine ⟨hbusy.finishedNodup, fun u => ⟨fun hu => hbusy.nodes u ((hseen u).2 hu), fun hu => (hseen u).1 (hall u hu)⟩,
      hbusy.settled⟩

theorem finishingOrder_eq_error {v : α} (h : g.finishingOrder = .error v) : g.Leads v v := by
  unfold finishingOrder at h
  cases hfold : g.nodes.foldlM (g.searchFrom (g.nodes.length + 1)) { seen := [], finished := [] } with
  | ok s =>
    rw [hfold] at h
    cases h
  | error w =>
    rw [hfold] at h
    cases h
    exact leads_of_foldlM_eq_error (fun s u => leads_of_searchFrom_eq_error) hfold

/-- From the end of an edge that points backward in the order, its start can be reached. -/
theorem reaches_of_backward (hclosed : g.Closed) {order before after : List α} {u v : α} (h : g.finishingOrder = .ok order)
    (horder : order = before ++ u :: after) (hlead : g.Leads v u) (hv : v ∈ g.nodes) (hbefore : v ∉ before) (hne : v ≠ u) :
    Relation.ReflTransGen g.Leads u v := by
  obtain ⟨hnodup, hnodes, hsettled⟩ := finishingOrder_eq_ok hclosed h
  have hafter : v ∈ after := by
    have hmem : v ∈ before ++ u :: after := horder ▸ (hnodes v).2 hv
    simpa [hbefore, hne] using hmem
  obtain ⟨between, rest, rfl⟩ := List.append_of_mem hafter
  have hsplit : order = (before ++ u :: between) ++ v :: rest := by simp [horder]
  rcases hsettled _ v rest hsplit u hlead with hmem | hreach
  · -- the end of the edge stands before its start, and not behind it too
    rw [horder] at hnodup
    have hdisjoint := (List.nodup_cons.1 (List.nodup_append.1 hnodup).2.1).1
    exact absurd (by simp [hmem]) hdisjoint
  · exact hreach

end UnusedMethods.Digraph
