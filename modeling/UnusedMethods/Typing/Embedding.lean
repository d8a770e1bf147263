import UnusedMethods.Graph
import UnusedMethods.Types.Generics

/-!
# The order in which interfaces are completed

An interface takes over the methods of the interfaces that it embeds, so these are completed first.
An interface that embeds itself, directly or through others, loses its embeddings.
-/

namespace UnusedMethods.Typing

open UnusedMethods.Types

def interfaceBody? (t : Table) (named : TypeId) : Option Interface :=
  match (t.named? named).map fun d => t.get d.rhs with
  | some (.interface i) => some i
  | _ => none

/-- The declared interfaces among `nodes` that a declared interface embeds, directly or as an
instance. -/
def embeddedDeclarations (t : Table) (nodes : List TypeId) (named : TypeId) : List TypeId :=
  let embedded := (interfaceBody? t named).elim [] (·.embedded)
  let declarations := embedded.map fun id => ((t.named? id).bind (·.origin)).getD id
  declarations.filter nodes.contains

/-- Which of the declared interfaces embeds which. The edges are entered in the order of `visit`. -/
def embeddingGraph (t : Table) (nodes visit : List TypeId) : Digraph TypeId :=
  Digraph.ofEdges nodes (visit.flatMap fun u => (embeddedDeclarations t nodes u).map (u, ·))

/-- The declared interfaces, those that are embedded before those that embed them. Interfaces on an
embedding cycle lose their embeddings. -/
def orderInterfaces (declared : List TypeId) : Build (List TypeId) := do
  let t ← get
  let nodes := declared.filter fun u => (interfaceBody? t u).isSome
  let (cut, order) := (embeddingGraph t nodes nodes).breakCycles
  let body (u : TypeId) : Option TypeId := (t.named? u).map (·.rhs)
  modify fun t => (cut.filterMap body).foldl Table.clearEmbedded t
  return order.reverse.filterMap body

end UnusedMethods.Typing
