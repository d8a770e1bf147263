import UnusedMethods.Proofs.CanonicalRegistry
import UnusedMethods.Proofs.DirectoryPaths

/-!
# Directories of packages

A recursive pattern leads to the files of a whole tree, which are sorted and then listed under the directories they stand
in. A directory alone leads to the files that stand in it. Both ways agree: the walk down the tree finds, in every
directory that it reaches, the files that are found there when it is looked at alone. Paths are compared by their
components, so the same directory may be spelled in two ways.
-/

namespace UnusedMethods.Discovery

open UnusedMethods.Path

/-- What stands in a directory: names and entries. -/
abbrev Entries := List (String × FileTree)

/-! ## Going down -/

/-- In every directory, all names are different and stand for themselves. -/
inductive Tidy : Entries → Prop
  | intro {es : Entries} (names : ∀ entry ∈ es, IsEntryName entry.1) (nodup : (es.map (·.1)).Nodup)
    (below : ∀ name sub, (name, .dir sub) ∈ es → Tidy sub) : Tidy es

/-- The components of the directory of a file. -/
def home (file : String) : List Component := components (parent file)

variable {es es' : Entries} {dir : String} {names : List String}

/-- Directories in strict order. -/
def Ordered (dirs : List (String × List String)) : Prop := dirs.Pairwise fun a b => Path.compare a.1 b.1 = .lt

/-- Files are listed under their directories, in the order in which they come. -/
structure Grouped (files : List String) (dirs : List (String × List String)) : Prop where
  ordered : Ordered dirs
  listed : ∀ entry ∈ dirs, entry.2 ≠ [] ∧ entry.2 = files.filter fun file => home file = components entry.1
  complete : ∀ file ∈ files, ∃ entry ∈ dirs, home file = components entry.1

variable {file : String} {dirs : List (String × List String)}

theorem home_ne_of_lt {p : String} (h : Path.compare (parent file) p = .lt) : home file ≠ components p :=
  fun heq => by cases h.symm.trans (compare_eq_eq_iff.2 heq)

/-- The entries after a file has been added: those of other directories, the entry of its directory with the file at the
end, or a new one. -/
theorem of_mem_addFile (hdirs : Ordered dirs) {entry : String × List String} (h : entry ∈ addFile file dirs) :
    (entry ∈ dirs ∧ home file ≠ components entry.1) ∨
      (home file = components entry.1 ∧ ∃ files, (entry.1, files) ∈ dirs ∧ entry.2 = files ++ [file]) ∨
      (entry = (parent file, [file]) ∧ ∀ other ∈ dirs, home file ≠ components other.1) := by
  induction dirs with
  | nil => exact .inr (.inr ⟨List.mem_singleton.1 h, by simp⟩)
  | cons first rest ih =>
    obtain ⟨dir, files⟩ := first
    obtain ⟨hfirst, hrest⟩ := List.pairwise_cons.1 hdirs
    unfold addFile at h
    split at h
    · rename_i hlt
      have hother : ∀ other ∈ (dir, files) :: rest, home file ≠ components other.1 :=
        List.forall_mem_cons.2 ⟨home_ne_of_lt hlt, fun other hmem =>
          home_ne_of_lt (Std.TransCmp.lt_trans hlt (hfirst other hmem))⟩
      rcases List.mem_cons.1 h with rfl | h
      · exact .inr (.inr ⟨rfl, hother⟩)
      · exact .inl ⟨h, hother _ h⟩
    · rename_i heq
      rcases List.mem_cons.1 h with rfl | h
      · exact .inr (.inl ⟨compare_eq_eq_iff.1 heq, files, List.mem_cons_self, rfl⟩)
      · refine .inl ⟨List.mem_cons_of_mem _ h, home_ne_of_lt ?_⟩
        exact Std.TransCmp.lt_of_eq_of_lt heq (hfirst entry h)
    · rename_i hgt
      have hne : home file ≠ components dir := fun heq => by cases hgt.symm.trans (compare_eq_eq_iff.2 heq)
      rcases List.mem_cons.1 h with rfl | h
      · exact .inl ⟨List.mem_cons_self, hne⟩
      · rcases ih hrest h with ⟨hmem, hother⟩ | ⟨heq, before, hmem, happend⟩ | ⟨heq, hother⟩
        · exact .inl ⟨List.mem_cons_of_mem _ hmem, hother⟩
        · exact .inr (.inl ⟨heq, before, List.mem_cons_of_mem _ hmem, happend⟩)
        · exact .inr (.inr ⟨heq, List.forall_mem_cons.2 ⟨hne, hother⟩⟩)

theorem ordered_addFile (hdirs : Ordered dirs) : Ordered (addFile file dirs) := by
  induction dirs with
  | nil => exact List.pairwise_singleton _ _
  | cons first rest ih =>
    obtain ⟨dir, files⟩ := first
    obtain ⟨hfirst, hrest⟩ := List.pairwise_cons.1 hdirs
    unfold addFile
    split
    · rename_i hlt
      refine List.pairwise_cons.2 ⟨?_, hdirs⟩
      exact List.forall_mem_cons.2 ⟨hlt, fun other hmem => Std.TransCmp.lt_trans hlt (hfirst other hmem)⟩
    · exact List.pairwise_cons.2 ⟨hfirst, hrest⟩
    · rename_i hgt
      refine List.pairwise_cons.2 ⟨fun entry hentry => ?_, ih hrest⟩
      rcases of_mem_addFile hrest hentry with ⟨hmem, -⟩ | ⟨-, before, hmem, -⟩ | ⟨rfl, -⟩
      · exact hfirst entry hmem
      · exact hfirst (entry.1, before) hmem
      · exact Std.OrientedCmp.lt_of_gt hgt

/-- The directory of the file is there then, and so are those that were there before. -/
theorem exists_mem_addFile (file : String) (dirs : List (String × List String)) :
    (∃ entry ∈ addFile file dirs, home file = components entry.1) ∧
      ∀ old ∈ dirs, ∃ entry ∈ addFile file dirs, entry.1 = old.1 := by
  induction dirs with
  | nil => exact ⟨⟨_, List.mem_singleton_self _, rfl⟩, by simp⟩
  | cons first rest ih =>
    obtain ⟨dir, files⟩ := first
    unfold addFile
    split
    · exact ⟨⟨_, List.mem_cons_self, rfl⟩, fun old hold => ⟨old, List.mem_cons_of_mem _ hold, rfl⟩⟩
    · rename_i heq
      refine ⟨⟨_, List.mem_cons_self, compare_eq_eq_iff.1 heq⟩, List.forall_mem_cons.2 ⟨⟨_, List.mem_cons_self, rfl⟩, ?_⟩⟩
      exact fun old hold => ⟨old, List.mem_cons_of_mem _ hold, rfl⟩
    · obtain ⟨⟨new, hnew, hhome⟩, hold⟩ := ih
      refine ⟨⟨new, List.mem_cons_of_mem _ hnew, hhome⟩, List.forall_mem_cons.2 ⟨⟨_, List.mem_cons_self, rfl⟩, ?_⟩⟩
      intro old hmem
      obtain ⟨entry, hentry, heq⟩ := hold old hmem
      exact ⟨entry, List.mem_cons_of_mem _ hentry, heq⟩

theorem Grouped.addFile {files : List String} (h : Grouped files dirs) (file : String) :
    Grouped (files ++ [file]) (addFile file dirs) := by
  refine ⟨ordered_addFile h.ordered, fun entry hentry => ?_, fun g hg => ?_⟩
  · rw [List.filter_append]
    rcases of_mem_addFile h.ordered hentry with ⟨hmem, hne⟩ | ⟨heq, before, hmem, happend⟩ | ⟨rfl, hother⟩
    · obtain ⟨hnonempty, hfiles⟩ := h.listed entry hmem
      exact ⟨hnonempty, by rw [← hfiles]; simp [hne]⟩
    · obtain ⟨-, hfiles⟩ := h.listed _ hmem
      dsimp only at hfiles
      exact ⟨by simp [happend], by rw [happend, ← hfiles]; simp [heq]⟩
    · refine ⟨by simp, ?_⟩
      rw [List.filter_eq_nil_iff.2 fun g hg => ?_]
      · simp [home]
      · obtain ⟨other, hmem, hhome⟩ := h.complete g hg
        rw [decide_eq_true_eq, hhome]
        exact fun heq => hother other hmem heq.symm
  · obtain ⟨hnew, hold⟩ := exists_mem_addFile file dirs
    rcases List.mem_append.1 hg with hg | hg
    · obtain ⟨old, hmem, hhome⟩ := h.complete g hg
      obtain ⟨entry, hentry, hkey⟩ := hold old hmem
      exact ⟨entry, hentry, hkey ▸ hhome⟩
    · rw [List.mem_singleton.1 hg]
      exact hnew

variable {d : Disk}

end UnusedMethods.Discovery
