import UnusedMethods.Filter
import UnusedMethods.Proofs.Locations

/-!
# Clean paths

Cleaning goes through the parts of a path and keeps a stack of those that count so far, the last one on top. At every
moment the stack holds names, with `..` below them only, and no `..` at all if the path is absolute (`IsStack`). A clean
path lists such a stack, and going through its parts leads to the same stack again. So cleaning a clean path changes
nothing, and a path may be cleaned before something is added to it.
-/

namespace UnusedMethods.Path

/-! ## The stack of parts -/

/-- The parts that count, from the last to the first. -/
inductive IsStack (absolute : Bool) : List String → Prop
  | ups (k : Nat) (h : absolute = true → k = 0) : IsStack absolute (List.replicate k "..")
  | push {name : String} {stack : List String} (hname : IsName name) (hstack : IsStack absolute stack) :
    IsStack absolute (name :: stack)

variable {absolute : Bool} {stack : List String}

theorem IsName.cleanStep {name : String} (h : IsName name) (absolute : Bool) (stack : List String) :
    cleanStep absolute stack name = name :: stack := by
  unfold Path.cleanStep
  rw [if_neg (by simp [h.ne_empty, h.ne_dot]), if_neg h.ne_dots]

theorem cleanStep_up_replicate (k : Nat) :
    cleanStep false (List.replicate k "..") ".." = List.replicate (k + 1) ".." := by
  cases k with
  | zero => rfl
  | succ k => simp [cleanStep, List.replicate_succ]

/-- A part is put on the stack, takes the last name off it, or counts for nothing. -/
theorem IsStack.cleanStep {part : String} (h : IsStack absolute stack) (hslash : '/' ∉ part.toList)
    (hback : '\\' ∉ part.toList) : IsStack absolute (cleanStep absolute stack part) := by
  by_cases hnothing : part = "" ∨ part = "."
  · unfold Path.cleanStep
    rw [if_pos hnothing]
    exact h
  · by_cases hup : part = ".."
    · subst hup
      cases h with
      | ups k hk =>
        cases absolute with
        | true =>
          rw [hk rfl]
          exact .ups 0 fun _ => rfl
        | false =>
          rw [cleanStep_up_replicate]
          exact .ups (k + 1) (by simp)
      | push hname hstack =>
        unfold Path.cleanStep
        rw [if_neg (by decide), if_pos rfl]
        dsimp only
        rw [if_neg hname.ne_dots]
        exact hstack
    · obtain ⟨hempty, hdot⟩ := not_or.1 hnothing
      have hname : IsName part := ⟨hslash, hback, hempty, hdot, hup⟩
      rw [hname.cleanStep]
      exact .push hname h

theorem isStack_foldl {parts : List String} (hparts : ∀ part ∈ parts, '/' ∉ part.toList ∧ '\\' ∉ part.toList)
    (h : IsStack absolute stack) : IsStack absolute (parts.foldl (cleanStep absolute) stack) := by
  induction parts generalizing stack with
  | nil => exact h
  | cons part parts ih =>
    obtain ⟨⟨hslash, hback⟩, hparts⟩ := List.forall_mem_cons.1 hparts
    exact ih hparts (h.cleanStep hslash hback)

theorem IsStack.foldl_reverse (h : IsStack absolute stack) : stack.reverse.foldl (Path.cleanStep absolute) [] = stack := by
  induction h with
  | ups k hk =>
    rw [List.reverse_replicate]
    induction k with
    | zero => rfl
    | succ k ih =>
      have habsolute : absolute = false := by
        cases absolute with
        | true => exact absurd (hk rfl) (by simp)
        | false => rfl
      subst habsolute
      rw [List.replicate_succ', List.foldl_append, ih (by simp), ← List.replicate_succ']
      exact cleanStep_up_replicate k
  | push hname _ ih =>
    rw [List.reverse_cons, List.foldl_append, ih]
    exact hname.cleanStep _ _

theorem IsStack.part (h : IsStack absolute stack) {part : String} (hpart : part ∈ stack) :
    '/' ∉ part.toList ∧ '\\' ∉ part.toList ∧ part ≠ "" ∧ part ≠ "." := by
  induction h with
  | ups k =>
    rw [List.eq_of_mem_replicate hpart]
    decide
  | push hname _ ih =>
    rcases List.mem_cons.1 hpart with rfl | hpart
    · exact ⟨hname.slash, hname.backslash, hname.ne_empty, hname.ne_dot⟩
    · exact ih hpart

/-! ## The text of a clean path -/

/-- The path with the given parts. -/
def written (absolute : Bool) (parts : List String) : String :=
  if absolute then "/" ++ "/".intercalate parts
  else if parts = [] then "."
  else "/".intercalate parts

/-- A path that starts with a slash or a backslash. -/
def isAbsolute (path : String) : Bool := path.startsWith "/" || path.startsWith "\\"

theorem startsWith_iff_head? {s pat : String} {c : Char} (hpat : pat.toList = [c]) :
    s.startsWith pat = true ↔ s.toList.head? = some c := by
  rw [String.startsWith_string_iff, hpat]
  cases s.toList <;> simp [eq_comm]

theorem isAbsolute_iff (path : String) :
    isAbsolute path = true ↔ path.toList.head? = some '/' ∨ path.toList.head? = some '\\' := by
  rw [isAbsolute, Bool.or_eq_true, startsWith_iff_head? (c := '/') rfl, startsWith_iff_head? (c := '\\') rfl]

theorem startsWith_slashed (path : String) : (slashed path).startsWith "/" = isAbsolute path := by
  rw [Bool.eq_iff_iff, isAbsolute_iff, startsWith_iff_head? (c := '/') rfl, slashed, String.toList_map, List.head?_map]
  cases path.toList.head? with
  | none => simp
  | some c => by_cases hc : c = '\\' <;> simp [hc]

theorem slashed_append (s t : String) : slashed (s ++ t) = slashed s ++ slashed t := by
  refine String.toList_injective ?_
  simp [slashed]

theorem backslash_not_mem_slashed (path : String) : '\\' ∉ (slashed path).toList := by
  rw [slashed, String.toList_map, List.mem_map]
  rintro ⟨c, -, hc⟩
  split at hc
  · exact absurd hc (by decide)
  · exact absurd hc ‹_›

theorem of_mem_splitOn_list {cs part : List Char} (h : part ∈ cs.splitOn '/') : ∀ c ∈ part, c ≠ '/' ∧ c ∈ cs := by
  induction cs generalizing part with
  | nil =>
    rw [List.splitOn_nil, List.mem_singleton] at h
    simp [h]
  | cons d cs ih =>
    rw [List.splitOn_cons_eq_if_modifyHead] at h
    by_cases hd : d = '/'
    · rw [if_pos (by simp [hd])] at h
      rcases List.mem_cons.1 h with rfl | h
      · simp
      · exact fun c hc => (ih h c hc).imp_right (List.mem_cons_of_mem _)
    · rw [if_neg (by simpa using hd)] at h
      -- the character is put in front of the first part
      cases hsplit : cs.splitOn '/' with
      | nil => exact absurd hsplit (List.splitOn_ne_nil _ _)
      | cons first rest =>
        rw [hsplit] at h ih
        rcases List.mem_cons.1 h with rfl | h
        · refine List.forall_mem_cons.2 ⟨⟨hd, List.mem_cons_self⟩, fun c hc => ?_⟩
          exact (ih List.mem_cons_self c hc).imp_right (List.mem_cons_of_mem _)
        · exact fun c hc => (ih (List.mem_cons_of_mem _ h) c hc).imp_right (List.mem_cons_of_mem _)

theorem of_mem_splitOn {path part : String} (h : part ∈ path.splitOn "/") :
    '/' ∉ part.toList ∧ ∀ c ∈ part.toList, c ∈ path.toList := by
  rw [splitOn_slash, List.mem_map] at h
  obtain ⟨cs, hcs, rfl⟩ := h
  rw [String.toList_ofList]
  exact ⟨fun hc => (of_mem_splitOn_list hcs _ hc).1 rfl, fun c hc => (of_mem_splitOn_list hcs c hc).2⟩

/-- What is left of a path when all its parts have been gone through. -/
def stackOf (absolute : Bool) (path : String) : List String := (path.splitOn "/").foldl (cleanStep absolute) []

theorem isStack_stackOf_slashed (absolute : Bool) (path : String) : IsStack absolute (stackOf absolute (slashed path)) :=
  isStack_foldl (fun _ hpart => (of_mem_splitOn hpart).imp_right fun h hc => backslash_not_mem_slashed path (h _ hc))
    (.ups 0 fun _ => rfl)

theorem clean_eq (path : String) :
    clean path = written (isAbsolute path) (stackOf (isAbsolute path) (slashed path)).reverse := by
  have hempty := isEmpty_intercalate (r := (stackOf (isAbsolute path) (slashed path)).reverse) fun part hpart =>
    ((isStack_stackOf_slashed _ path).part (List.mem_reverse.1 hpart)).2.2.1
  unfold clean written
  simp only [startsWith_slashed, ← hempty]
  rfl

section Written

variable (h : IsStack absolute stack)
include h

theorem IsStack.splitOn_intercalate (hstack : stack.reverse ≠ []) :
    ("/".intercalate stack.reverse).splitOn "/" = stack.reverse :=
  Path.splitOn_intercalate (fun _ hpart => (h.part (List.mem_reverse.1 hpart)).1) hstack

theorem IsStack.startsWith_written : (written absolute stack.reverse).startsWith "/" = absolute := by
  unfold written
  cases absolute with
  | true => exact startsWith_iff.2 ⟨_, rfl⟩
  | false =>
    rw [if_neg (by simp)]
    split
    · exact startsWith_eq_false (by rw [splitOn_eq_singleton (by decide)]; decide)
    · refine startsWith_eq_false ?_
      rw [h.splitOn_intercalate ‹_›]
      exact fun hempty => (h.part (List.mem_reverse.1 hempty)).2.2.1 rfl

theorem IsStack.backslash_not_mem_written : '\\' ∉ (written absolute stack.reverse).toList := by
  have hparts := backslash_not_mem_intercalate (r := stack.reverse) fun part hpart =>
    (h.part (List.mem_reverse.1 hpart)).2.1
  unfold written
  split
  · simpa [-String.toList_intercalate] using hparts
  · split
    · decide
    · exact hparts

theorem IsStack.stackOf_written : stackOf absolute (written absolute stack.reverse) = stack := by
  have hjoined : stackOf absolute ("/".intercalate stack.reverse) = stack := by
    unfold stackOf
    by_cases hstack : stack.reverse = []
    · rw [hstack, List.reverse_eq_nil_iff.1 hstack, String.intercalate_nil, splitOn_eq_singleton (by simp)]
      rfl
    · rw [h.splitOn_intercalate hstack]
      exact h.foldl_reverse
  unfold written
  split
  · have hsplit := splitOn_append "" ("/".intercalate stack.reverse)
    rw [String.empty_append, splitOn_eq_singleton (s := "") (by simp)] at hsplit
    unfold stackOf at hjoined ⊢
    rw [hsplit]
    exact hjoined
  · split
    · rename_i hstack
      rw [List.reverse_eq_nil_iff.1 hstack]
      unfold stackOf
      rw [splitOn_eq_singleton (by decide)]
      rfl
    · exact hjoined

end Written

/-! ## Cleaning twice -/

theorem stackOf_append (absolute : Bool) (s t : String) :
    stackOf absolute (s ++ "/" ++ t) = (t.splitOn "/").foldl (cleanStep absolute) (stackOf absolute s) := by
  unfold stackOf
  rw [splitOn_append, List.foldl_append]

theorem slashed_clean (path : String) : slashed (clean path) = clean path := by
  rw [clean_eq]
  exact slashed_eq (isStack_stackOf_slashed _ path).backslash_not_mem_written

theorem isAbsolute_clean (path : String) : isAbsolute (clean path) = isAbsolute path := by
  rw [← startsWith_slashed, slashed_clean, clean_eq]
  exact (isStack_stackOf_slashed _ path).startsWith_written

theorem stackOf_clean (path : String) :
    stackOf (isAbsolute path) (clean path) = stackOf (isAbsolute path) (slashed path) := by
  rw [clean_eq]
  exact (isStack_stackOf_slashed _ path).stackOf_written

theorem clean_ne_empty (path : String) : clean path ≠ "" := by
  intro hempty
  have hstack := stackOf_clean path
  rw [hempty, stackOf, splitOn_eq_singleton (by simp)] at hstack
  rw [clean_eq, ← hstack] at hempty
  cases habsolute : isAbsolute path <;> rw [habsolute] at hempty <;> exact absurd hempty (by decide)

theorem clean_append {path : String} (hpath : path ≠ "") (rest : String) :
    clean (path ++ "/" ++ rest) = written (isAbsolute path)
      (((slashed rest).splitOn "/").foldl (cleanStep (isAbsolute path)) (stackOf (isAbsolute path) (slashed path))).reverse := by
  have habsolute : isAbsolute (path ++ "/" ++ rest) = isAbsolute path := by
    have hhead : (path ++ "/" ++ rest).toList.head? = path.toList.head? := by
      cases hlist : path.toList with
      | nil => exact absurd (String.toList_injective hlist) hpath
      | cons c cs => simp [hlist]
    rw [Bool.eq_iff_iff, isAbsolute_iff, isAbsolute_iff, hhead]
  have hslash : slashed "/" = "/" := slashed_eq (by decide)
  rw [clean_eq, habsolute, slashed_append, slashed_append, hslash, stackOf_append]

theorem IsStack.exists_names (h : IsStack absolute stack) : ∃ ups names, (absolute = true → ups = 0) ∧
    (∀ name ∈ names, IsName name) ∧ stack.reverse = List.replicate ups ".." ++ names := by
  induction h with
  | ups k hk => exact ⟨k, [], hk, by simp, by simp⟩
  | @push name _ hname _ ih =>
    obtain ⟨ups, names, hups, hnames, heq⟩ := ih
    refine ⟨ups, names ++ [name], hups, List.forall_mem_append.2 ⟨hnames, by simpa using hname⟩, ?_⟩
    rw [List.reverse_cons, heq, List.append_assoc]

end UnusedMethods.Path

namespace UnusedMethods.PathFilter

/-! ## Remembered paths -/

/-- What is remembered after some questions. -/
def knownAfter (f : PathFilter) (asked : List String) : Cleaned := asked.foldl (fun known path => (f.ask known path).2) []

/-- What is remembered is right. -/
def Truthful (known : Cleaned) : Prop := ∀ entry ∈ known, entry.2 = Path.clean entry.1

theorem truthful_normalize {known : Cleaned} (h : Truthful known) (path : String) :
    (normalize known path).1 = Path.clean path ∧ Truthful (normalize known path).2 := by
  unfold normalize
  split
  · rename_i hit hlookup
    obtain ⟨_, _, hknown, -⟩ := List.lookup_eq_some_iff.1 hlookup
    exact ⟨h (path, hit) (by simp [hknown]), h⟩
  · exact ⟨rfl, List.forall_mem_cons.2 ⟨rfl, h⟩⟩

theorem truthful_knownAfter (f : PathFilter) (asked : List String) : Truthful (f.knownAfter asked) := by
  have hrun (known : Cleaned) (h : Truthful known) : Truthful (asked.foldl (fun known path => (f.ask known path).2) known) := by
    induction asked generalizing known with
    | nil => exact h
    | cons path asked ih => exact ih _ (truthful_normalize h path).2
  exact hrun [] (by simp [Truthful])

/-- Cleaning gives a normal form: `..` only in front of a relative path, then names that stand for themselves, and `.` for
no parts at all. A clean path stays as it is, a path can be cleaned before something is added to it, and a filter looks at
the clean path, whatever it was asked before. -/
theorem clean_isNormal :
    (∀ path, '\\' ∉ (Path.clean path).toList ∧
      ((Path.clean path).startsWith "/" = true ↔ path.startsWith "/" = true ∨ path.startsWith "\\" = true) ∧
      ∃ ups names, (Path.isAbsolute path = true → ups = 0) ∧ (∀ name ∈ names, Path.IsName name) ∧
        Path.clean path = Path.written (Path.isAbsolute path) (List.replicate ups ".." ++ names)) ∧
    (∀ path, Path.clean (Path.clean path) = Path.clean path) ∧
    (∀ path rest, path ≠ "" → Path.clean (path ++ "/" ++ rest) = Path.clean (Path.clean path ++ "/" ++ rest)) ∧
    ∀ (f : PathFilter) asked path,
      (f.ask (f.knownAfter asked) path).1 = (f.globs.find? fun glob => Glob.isMatch glob.2 (Path.clean path)).isSome ∧
      (f.ask (f.knownAfter asked) path).1 = f.ignores path := by
  refine ⟨fun path => ?_, fun path => ?_, fun path rest hpath => ?_, fun f asked path => ?_⟩
  · have hstack := Path.isStack_stackOf_slashed (Path.isAbsolute path) path
    rw [Path.clean_eq]
    refine ⟨hstack.backslash_not_mem_written, ?_, ?_⟩
    · rw [hstack.startsWith_written, Path.isAbsolute, Bool.or_eq_true]
    · obtain ⟨ups, names, hups, hnames, heq⟩ := hstack.exists_names
      exact ⟨ups, names, hups, hnames, by rw [heq]⟩
  · rw [Path.clean_eq (Path.clean path), Path.isAbsolute_clean, Path.slashed_clean, Path.stackOf_clean, ← Path.clean_eq]
  · rw [Path.clean_append hpath, Path.clean_append (Path.clean_ne_empty path), Path.isAbsolute_clean, Path.slashed_clean,
      Path.stackOf_clean]
  · have hpath := (truthful_normalize (f.truthful_knownAfter asked) path).1
    have hask : (f.ask (f.knownAfter asked) path).1 =
        (f.globs.find? fun glob => Glob.isMatch glob.2 (Path.clean path)).isSome := by
      rw [← hpath]
      rfl
    refine ⟨hask, hask.trans ?_⟩
    rw [Bool.eq_iff_iff, List.find?_isSome, ignores, List.any_eq_true]

/-- A directory is left more often than it is entered, and something is added. -/
theorem clean_outside : "a\\..\\.." ≠ "" ∧
    Path.clean ("a\\..\\.." ++ "/" ++ "b") = Path.clean (Path.clean "a\\..\\.." ++ "/" ++ "b") :=
  ⟨by decide, clean_isNormal.2.2.1 _ _ (by decide)⟩

end UnusedMethods.PathFilter
