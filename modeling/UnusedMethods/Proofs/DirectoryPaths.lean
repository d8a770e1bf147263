import UnusedMethods.Proofs.CleanPaths

/-!
# Paths of directories

A directory can be named by many paths: a slash at the end and parts that count for nothing may be there or not. All that
matters on the way to a directory are the components of the path. What a directory holds has the components of the
directory and one more, and leaving out that one leads back to the directory.
-/

namespace UnusedMethods.Path

/-! ## Names below a directory -/

/-- A name that something can have in a directory. -/
structure IsEntryName (s : String) : Prop where
  slash : '/' ∉ s.toList
  component : component? s = some (.name s)

end UnusedMethods.Path

namespace UnusedMethods.Disk

open UnusedMethods.Path

variable {d : Disk}

end UnusedMethods.Disk
