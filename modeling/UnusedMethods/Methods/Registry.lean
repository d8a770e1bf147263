import UnusedMethods.Path
import UnusedMethods.Types.Basic

/-!
# The registry of declared methods

Every method that an interface of a package declares itself, by the function that it is. The entries
are ordered by place.
-/

namespace UnusedMethods.Methods

open Syntax UnusedMethods.Types

structure MethodDeclaration where
  /-- Name of the interface; unique only within a package. -/
  interfaceName : String
  interface : TypeId
  method : FuncId
  name : String
  path : String
  pos : Pos
  /-- The interface has type parameters. -/
  generic : Bool
  used : Bool

/-- Declarations in the order of their places: by path, then by line and column. -/
def MethodDeclaration.comparePlace (a b : MethodDeclaration) : Ordering :=
  (Path.compare a.path b.path).then (a.pos.compare b.pos)

/-- A set of methods. Each stands in the list once, so that the length of the list counts them. -/
structure UsedSet where
  methods : List FuncId
  nodup : methods.Nodup

namespace UsedSet

def empty : UsedSet := ⟨[], List.nodup_nil⟩

def contains (u : UsedSet) (m : FuncId) : Bool := u.methods.contains m

def insert (u : UsedSet) (m : FuncId) : UsedSet :=
  if h : m ∈ u.methods then u else ⟨m :: u.methods, List.nodup_cons.2 ⟨h, u.nodup⟩⟩

def size (u : UsedSet) : Nat := u.methods.length

/-- Adding a method adds that method and nothing else. -/
theorem mem_insert {u : UsedSet} {m n : FuncId} :
    n ∈ (u.insert m).methods ↔ n ∈ u.methods ∨ n = m := by
  unfold insert
  split
  · rename_i h
    constructor
    · exact .inl
    · rintro (hn | rfl)
      · exact hn
      · exact h
  · rw [List.mem_cons, or_comm]

end UsedSet

def MethodDeclaration.marked (used : UsedSet) (d : MethodDeclaration) : MethodDeclaration :=
  if used.contains d.method then { d with used := true } else d

/-- A mark does not change which method is declared. -/
theorem MethodDeclaration.method_marked (used : UsedSet) (d : MethodDeclaration) :
    (d.marked used).method = d.method := by
  unfold marked
  split <;> rfl

/-- The declared methods of a package, each once. -/
structure Registry where
  entries : List MethodDeclaration
  distinct : (entries.map (·.method)).Nodup

namespace Registry

def empty : Registry := ⟨[], List.nodup_nil⟩

def add (r : Registry) (d : MethodDeclaration) : Registry :=
  if h : d.method ∈ r.entries.map (·.method) then r
  else
    { entries := r.entries ++ [d]
      distinct := by
        rw [List.map_append, List.nodup_append]
        refine ⟨r.distinct, by simp, ?_⟩
        intro m hm n hn hmn
        simp only [List.map_cons, List.map_nil, List.mem_singleton] at hn
        exact h (hn ▸ hmn ▸ hm) }

/-- The registry of some declarations. They are put in order; of several declarations of one method
the first counts. -/
def ofDeclarations (decls : List MethodDeclaration) : Registry :=
  (decls.mergeSort fun a b => (a.comparePlace b).isLE).foldl add empty

def size (r : Registry) : Nat := r.entries.length

def get? (r : Registry) (m : FuncId) : Option MethodDeclaration := r.entries.find? (·.method = m)

def contains (r : Registry) (m : FuncId) : Bool := (r.get? m).isSome

def candidates (r : Registry) (name : String) : List MethodDeclaration :=
  r.entries.filter (·.name = name)

def names (r : Registry) : List String :=
  ((r.entries.map (·.name)).eraseDups).mergeSort fun a b => a ≤ b

def declaredBy (r : Registry) (interfaceName : String) : Nat :=
  r.entries.countP (·.interfaceName = interfaceName)

def apply (r : Registry) (used : UsedSet) : Registry where
  entries := r.entries.map (·.marked used)
  distinct := by
    have hsame : (fun d => d.method) ∘ (·.marked used) = fun d : MethodDeclaration => d.method :=
      funext (MethodDeclaration.method_marked used)
    rw [List.map_map, hsame]
    exact r.distinct

end Registry

end UnusedMethods.Methods
