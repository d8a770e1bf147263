/-!
# Directed graphs and topological order

A graph whose edges are numbered in the order in which they were entered. `topologicalOrder` gives
an order in which every edge points forward, or a node on a cycle; `breakCycles` takes away the
outgoing edges of such nodes until there is an order.
-/

namespace UnusedMethods

/-- An edge and its number in the order of entry. -/
structure Edge (α : Type) where
  number : Nat
  source : α
  target : α

/-- A directed graph. The places in the list of edges are not the order of entry once edges have
been removed. -/
structure Digraph (α : Type) where
  nodes : List α
  edges : List (Edge α)

namespace Digraph

variable {α : Type} [DecidableEq α]

def ofEdges (nodes : List α) (edges : List (α × α)) : Digraph α where
  nodes := nodes
  edges := edges.mapIdx fun number (source, target) => { number, source, target }

def entered (g : Digraph α) : List (Edge α) := g.edges.mergeSort fun e f => e.number ≤ f.number

/-- Where the edges from a node lead, in the order of entry. -/
def successors (g : Digraph α) (u : α) : List α :=
  g.entered.filterMap fun e => if e.source = u then some e.target else none

/-- Where the edges to a node come from, in the order of entry. -/
def predecessors (g : Digraph α) (u : α) : List α :=
  g.entered.filterMap fun e => if e.target = u then some e.source else none

/-- Progress of a depth-first search: the nodes found and, the latest first, those finished. -/
structure Search (α : Type) where
  seen : List α
  finished : List α

/-- Searches on from a node, nested at most `n` levels. A node with an edge to itself is an error. -/
def searchFrom (g : Digraph α) : Nat → Search α → α → Except α (Search α)
  | 0, s, _ => .ok s
  | n + 1, s, u =>
    if s.seen.contains u then .ok s
    else if (g.successors u).contains u then .error u
    else do
      let s ← (g.successors u).foldlM (g.searchFrom n) { s with seen := u :: s.seen }
      return { s with finished := u :: s.finished }

def finishingOrder (g : Digraph α) : Except α (List α) := do
  let s ← g.nodes.foldlM (g.searchFrom (g.nodes.length + 1)) { seen := [], finished := [] }
  return s.finished

/-- A node with an edge to an earlier node of a list: of the edges to the first node that has such
edges, the one entered first counts. The second list holds the nodes already passed. -/
def backward? (g : Digraph α) : List α → List α → Option α
  | [], _ => none
  | u :: us, earlier =>
    match (g.predecessors u).find? fun v => !(u :: earlier).contains v with
    | some v => some v
    | none => g.backward? us (u :: earlier)

/-- The nodes in an order in which every edge points forward, or a node on a cycle. -/
def topologicalOrder (g : Digraph α) : Except α (List α) := do
  let order ← g.finishingOrder
  match g.backward? order [] with
  | some v => .error v
  | none => return order

/-- Removes the edge at a place; the last edge takes its place. -/
def removeAt (g : Digraph α) (i : Nat) : Digraph α :=
  match g.edges.getLast? with
  | some last => if i < g.edges.length then { g with edges := (g.edges.set i last).dropLast } else g
  | none => g

/-- The places of the edges from a node, the latest entered first. -/
def outgoing (g : Digraph α) (u : α) : List Nat :=
  let places := g.edges.mapIdx fun i e => (i, e)
  let own := places.filter fun (_, e) => e.source = u
  (own.mergeSort fun (_, e) (_, f) => f.number ≤ e.number).map (·.1)

def removeOutgoing (g : Digraph α) (u : α) : Digraph α := (g.outgoing u).foldl removeAt g

/-- Takes away the outgoing edges of nodes on cycles, of at most `n` nodes, until there is an order.
Gives the nodes that lost their edges, and the order. -/
def breakCyclesWithin : Nat → Digraph α → List α × List α
  | n, g =>
    match g.topologicalOrder, n with
    | .ok order, _ => ([], order)
    | .error _, 0 => ([], g.nodes)
    | .error u, n + 1 =>
      let (cut, order) := breakCyclesWithin n (g.removeOutgoing u)
      (u :: cut, order)

/-- Takes away the outgoing edges of nodes on cycles until there is an order. Each node on a cycle has
an edge to lose, so the number of edges bounds the number of steps. -/
def breakCycles (g : Digraph α) : List α × List α := breakCyclesWithin g.edges.length g

end Digraph

end UnusedMethods
