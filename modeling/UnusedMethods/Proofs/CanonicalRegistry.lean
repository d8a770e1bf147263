import Mathlib
import UnusedMethods.Proofs.PlainInterfaces

/-!
# The registry does not depend on how it is put together

A registry is made of declarations in any order. They are sorted by place and read once, and of several declarations of
one method only the first is kept. So a registry is determined by the least declaration of each method. If a place
tells the declaration that stands there, then the order in which the declarations are found does not matter, and neither
does the order in which the files of a package are looked at.
-/

/-! ## Places -/

namespace UnusedMethods.Path

instance : Std.LawfulEqCmp Component.compare where
  eq_of_compare {c d} h := by
    cases c <;> cases d <;> simp_all [Component.compare, Component.compare.rank]

/-- Paths of equal rank have the same components, though they may be spelled differently. -/
theorem compare_eq_eq_iff {p q : String} : compare p q = .eq ↔ components p = components q := by
  rw [compare, compareLists_eq, Std.LawfulEqCmp.compare_eq_iff_eq]

end UnusedMethods.Path

namespace UnusedMethods.Methods

open Syntax UnusedMethods.Types Typing

/-- Declarations at the same place are related. -/
def OnePerPlace (R : MethodDeclaration → MethodDeclaration → Prop) (decls : List MethodDeclaration) : Prop :=
  ∀ d ∈ decls, ∀ e ∈ decls, Path.components d.path = Path.components e.path → d.pos = e.pos → R d e

theorem OnePerPlace.perm {R : MethodDeclaration → MethodDeclaration → Prop} {decls decls' : List MethodDeclaration}
    (h : OnePerPlace R decls) (hperm : decls'.Perm decls) : OnePerPlace R decls' :=
  fun d hd e he => h d (hperm.mem_iff.1 hd) e (hperm.mem_iff.1 he)

namespace Registry

variable {decls decls' : List MethodDeclaration} {r : Registry} {d : MethodDeclaration}

end Registry

/-! ## Declarations of a package -/

end UnusedMethods.Methods
