import Mathlib.Data.List.Nodup
import UnusedMethods.Methods.Collect
import UnusedMethods.Proofs.Packages

/-!
# What is registered

Where the entries of the registry of a package come from. The name of an entry is that of the method which it
registers: both are found by the place of the same identifier, as no two methods are declared at one place.
-/

namespace UnusedMethods.Methods

open Syntax UnusedMethods.Types Typing

/-! ## Registries -/

namespace Registry

variable {r : Registry} {d : MethodDeclaration}

theorem mem_add {e : MethodDeclaration} (h : e ∈ (r.add d).entries) : e ∈ r.entries ∨ e = d := by
  unfold add at h
  split at h
  · exact .inl h
  · simpa using h

theorem mem_of_mem_foldl_add {decls : List MethodDeclaration} (h : d ∈ (decls.foldl add r).entries) :
    d ∈ r.entries ∨ d ∈ decls := by
  induction decls generalizing r with
  | nil => exact .inl h
  | cons e decls ih =>
    rcases ih h with h | h
    · rcases mem_add h with h | rfl
      · exact .inl h
      · exact .inr (by simp)
    · exact .inr (List.mem_cons_of_mem _ h)

theorem mem_of_mem_ofDeclarations {decls : List MethodDeclaration} (h : d ∈ (ofDeclarations decls).entries) : d ∈ decls := by
  rcases mem_of_mem_foldl_add h with h | h
  · cases h
  · exact List.mem_mergeSort.1 h

theorem contains_iff {m : FuncId} : r.contains m = true ↔ ∃ d ∈ r.entries, d.method = m := by
  simp [contains, get?]

end Registry

/-! ## Declarations that are found -/

theorem flatMapHalves_eq {α β : Type} (f : α → List β) (n : Nat) (as : List α) :
    flatMapHalves f n as = as.flatMap f := by
  induction n generalizing as with
  | zero => rfl
  | succ n ih =>
    unfold flatMapHalves
    dsimp only
    rw [ih, ih, ← List.flatMap_append, List.take_append_drop]

/-- A declaration is that of a method of an interface in the file, which was recorded at the place of its name. -/
theorem exists_name_of_mem_collectFile {t : Table} {options : Options} {file : File} {info : FileInfo}
    {d : MethodDeclaration} (h : d ∈ collectFile t options file info) :
    ∃ x ∈ file.tree.funcNames, d.name = x.name ∧ info.def? x.pos = some (.func d.method) := by
  obtain ⟨decl, hdecl, hd⟩ := List.mem_flatMap.1 h
  split at hd
  · rename_i specs
    obtain ⟨spec, hspec, hd⟩ := List.mem_flatMap.1 hd
    unfold collectSpec at hd
    dsimp only at hd
    split at hd
    · rename_i methods embeds named htype hdef
      split at hd
      · cases hd
      · obtain ⟨m, hm, hmethod⟩ := List.mem_filterMap.1 hd
        split at hmethod
        · rename_i method hfunc
          cases hmethod
          refine ⟨m.name, List.mem_flatMap.2 ⟨_, hdecl, List.mem_flatMap.2 ⟨spec, hspec, ?_⟩⟩, rfl, hfunc⟩
          refine List.mem_append_right _ ?_
          rw [htype]
          exact List.mem_append_left _ (MethodSpec.name_mem_funcNamesAll hm)
        · cases hmethod
    · cases hd
  · cases hd

namespace CheckedPackage

variable {u : CheckedPackage} {filter : PathFilter}

/-- A file that is looked at is one of the package, and what is known about it is what was recorded. -/
theorem getElem?_of_mem_files {file : File} {info : FileInfo} (h : (file, info) ∈ u.files filter) :
    ∃ i : Nat, u.package.files[i]? = some file ∧ u.package.infos[i]? = some info := by
  obtain ⟨i, hi, heq⟩ := List.mem_iff_getElem.1 (List.mem_filter.1 h).1
  rw [List.getElem_zip] at heq
  obtain ⟨hfile, hinfo⟩ := Prod.mk.inj heq
  exact ⟨i, List.getElem?_eq_some_iff.2 ⟨_, hfile⟩, List.getElem?_eq_some_iff.2 ⟨_, hinfo⟩⟩

theorem exists_file_of_mem_collect {options : Options} {d : MethodDeclaration} (h : d ∈ (collect u filter options).entries) :
    ∃ file info, (file, info) ∈ u.files filter ∧ d ∈ collectFile u.table options file info := by
  have hfound := Registry.mem_of_mem_ofDeclarations h
  rw [flatMapHalves_eq, ite_self] at hfound
  obtain ⟨⟨file, info⟩, hmem, hd⟩ := List.mem_flatMap.1 hfound
  exact ⟨file, info, hmem, hd⟩

theorem name_of_mem_collect (hwf : u.package.WF u.table) (hapart : ∀ file ∈ u.package.files, file.tree.FuncNamesApart)
    {options : Options} {d : MethodDeclaration} (h : d ∈ (collect u filter options).entries) :
    d.name = (u.table.func d.method).name := by
  obtain ⟨file, info, hmem, hd⟩ := exists_file_of_mem_collect h
  obtain ⟨i, hfile, hinfo⟩ := getElem?_of_mem_files hmem
  obtain ⟨x, hx, hname, hdef⟩ := exists_name_of_mem_collectFile hd
  obtain ⟨l₁, l₂, hdefs, -⟩ := List.lookup_eq_some_iff.1 hdef
  obtain ⟨y, ⟨file', hfile', hy⟩, hpos, hfunc⟩ := (hwf.infos i info hinfo).funcs x.pos d.method (by rw [hdefs]; simp)
  -- the recorded identifier is the one of the declaration, as they stand at the same place
  cases hfile.symm.trans hfile'
  have hxy : y = x := List.inj_on_of_nodup_map (hapart file (List.mem_of_getElem? hfile)) hy hx hpos
  rw [hname, ← hfunc, hxy]

end CheckedPackage

end UnusedMethods.Methods
