import Mathlib.Data.String.Basic
import Mathlib.Tactic.ByContra
import UnusedMethods.Program.Load

/-!
# Places and import paths

A place on the disk is given by the names on the way to it, and its path has a slash in front of each of them. The import
path of a directory of a module has the same names after the path of the module, so directories and import paths can be
translated into each other. All names have to be names that stand for themselves: an empty part, `.` or `..` of a path
means something else, and a backslash is taken for a slash.
-/

namespace UnusedMethods.Path

/-! ## Parts of a path -/

theorem extract_middle (pre l r : List Char) :
    String.Pos.Raw.extract (String.ofList (pre ++ l ++ r)) ⟨String.utf8Len pre⟩ ⟨String.utf8Len (pre ++ l)⟩ =
      String.ofList l := by
  rw [String.utf8Len_append]
  exact String.extract_of_valid pre l r

/-- Splitting goes through the text: `pre` is done, `l` is the part that has been begun, and `r` is to come. -/
theorem splitOnAux_slash (pre l r : List Char) (acc : List String) :
    (String.ofList (pre ++ l ++ r)).splitOnAux "/" ⟨String.utf8Len pre⟩ ⟨String.utf8Len (pre ++ l)⟩ 0 acc =
      acc.reverse ++ (List.splitOnPPrepend (· == '/') r l.reverse).map String.ofList := by
  induction r generalizing pre l acc with
  | nil =>
    have hend : String.Pos.Raw.atEnd (String.ofList (pre ++ l ++ [])) ⟨String.utf8Len (pre ++ l)⟩ = true :=
      (String.atEnd_of_valid (pre ++ l) []).2 rfl
    rw [String.splitOnAux, if_pos hend, extract_middle]
    simp
  | cons c r ih =>
    have hend : ¬ String.Pos.Raw.atEnd (String.ofList (pre ++ l ++ c :: r)) ⟨String.utf8Len (pre ++ l)⟩ = true := by
      rw [String.atEnd_of_valid]
      exact List.cons_ne_nil c r
    have hget : String.Pos.Raw.get (String.ofList (pre ++ l ++ c :: r)) ⟨String.utf8Len (pre ++ l)⟩ = c := by
      rw [String.get_of_valid]
      rfl
    have hnext : String.Pos.Raw.next (String.ofList (pre ++ l ++ c :: r)) ⟨String.utf8Len (pre ++ l)⟩ =
        ⟨String.utf8Len (pre ++ l ++ [c])⟩ := by
      rw [String.next_of_valid, String.utf8Len_append _ [c]]
      simp
    have hslash : String.Pos.Raw.get "/" 0 = '/' := by decide
    rw [String.splitOnAux, if_neg hend, hget, hslash, List.splitOnPPrepend_cons_eq_if]
    by_cases hc : c = '/'
    · subst hc
      have hdone : String.Pos.Raw.atEnd "/" (String.Pos.Raw.next "/" 0) = true := by decide
      have hback : String.Pos.Raw.unoffsetBy ⟨String.utf8Len (pre ++ l ++ ['/'])⟩ (String.Pos.Raw.next "/" 0) =
          ⟨String.utf8Len (pre ++ l)⟩ := by
        rw [String.utf8Len_append]
        rfl
      rw [if_pos (by rfl), hnext, if_pos hdone, hback, extract_middle, if_pos (by rfl)]
      have hrest := ih (pre ++ l ++ ['/']) [] (String.ofList l :: acc)
      simpa [-String.ofList_append] using hrest
    · have hback : String.Pos.Raw.unoffsetBy ⟨String.utf8Len (pre ++ l)⟩ 0 =
          (⟨String.utf8Len (pre ++ l)⟩ : String.Pos.Raw) := rfl
      rw [if_neg (by simpa using hc), if_neg (by simpa using hc), hback, hnext]
      have hrest := ih pre (l ++ [c]) acc
      simpa [-String.ofList_append] using hrest

theorem splitOn_slash (s : String) : s.splitOn "/" = (s.toList.splitOn '/').map String.ofList := by
  have h := splitOnAux_slash [] [] s.toList []
  simpa [String.splitOn, List.splitOn] using h

theorem intercalate_splitOn (s : String) : "/".intercalate (s.splitOn "/") = s := by
  refine String.toList_injective ?_
  rw [String.toList_intercalate, splitOn_slash, List.map_map]
  have hmap : (s.toList.splitOn '/').map (String.toList ∘ String.ofList) = s.toList.splitOn '/' := by
    simp
  rw [hmap]
  exact List.intercalate_splitOn '/'

theorem splitOn_intercalate {l : List String} (h : ∀ name ∈ l, '/' ∉ name.toList) (hl : l ≠ []) :
    ("/".intercalate l).splitOn "/" = l := by
  rw [splitOn_slash, String.toList_intercalate]
  have hsplit : (List.intercalate ['/'] (l.map String.toList)).splitOn '/' = l.map String.toList := by
    refine List.splitOn_intercalate '/' (fun part hpart => ?_) (by simpa using hl)
    obtain ⟨name, hname, rfl⟩ := List.mem_map.1 hpart
    exact h name hname
  show ((List.intercalate ['/'] (l.map String.toList)).splitOn '/').map String.ofList = l
  rw [hsplit]
  simp

theorem splitOn_eq_singleton {s : String} (h : '/' ∉ s.toList) : s.splitOn "/" = [s] := by
  simpa using splitOn_intercalate (l := [s]) (by simpa using h) (by simp)

theorem splitOn_append (s t : String) : (s ++ "/" ++ t).splitOn "/" = s.splitOn "/" ++ t.splitOn "/" := by
  have hlist : (s ++ "/" ++ t).toList = s.toList ++ '/' :: t.toList := by simp
  rw [splitOn_slash, splitOn_slash, splitOn_slash, hlist, List.splitOn_append_cons_self, List.map_append]

theorem endsWith_iff {s pat : String} : s.endsWith pat = true ↔ ∃ t, s = t ++ pat := by
  rw [← String.endsWith_toSlice, String.Slice.Pattern.Model.endsWith_iff,
    String.Slice.Pattern.Model.ForwardStringSearcher.revMatchesAt_iff_splits]
  simp [eq_comm]

theorem startsWith_iff {s pat : String} : s.startsWith pat = true ↔ ∃ t, s = pat ++ t := by
  rw [String.startsWith_string_iff]
  constructor
  · rintro ⟨cs, hcs⟩
    exact ⟨String.ofList cs, String.toList_injective (by simp [hcs])⟩
  · rintro ⟨t, rfl⟩
    exact ⟨t.toList, by simp⟩

theorem slashed_eq {s : String} (h : '\\' ∉ s.toList) : Path.slashed s = s := by
  unfold Path.slashed
  refine String.toList_injective ?_
  rw [String.toList_map]
  refine (List.map_congr_left fun c hc => ?_).trans (List.map_id _)
  have hne : c ≠ '\\' := fun heq => h (heq ▸ hc)
  rw [if_neg hne, id]

/-! ## Names that stand for themselves -/

/-- A name that can stand between slashes and stands for itself there. -/
structure IsName (s : String) : Prop where
  slash : '/' ∉ s.toList
  backslash : '\\' ∉ s.toList
  ne_empty : s ≠ ""
  ne_dot : s ≠ "."
  ne_dots : s ≠ ".."

/-- All parts of the path stand for themselves. -/
def IsClean (path : String) : Prop := ∀ name ∈ path.splitOn "/", IsName name

theorem IsName.component? {s : String} (h : IsName s) : component? s = some (.name s) := by
  unfold Path.component?
  split
  · exact absurd rfl h.ne_empty
  · exact absurd rfl h.ne_dot
  · exact absurd rfl h.ne_dots
  · rfl

/-- The part of a path that a name is. -/
def namePart (name : String) : Option Component × String := (some (.name name), name)

variable {l home r : Location}

theorem path_eq_intercalate (l : Location) (hl : l ≠ []) : l.path = "/".intercalate ("" :: l) := by
  cases l with
  | nil => exact absurd rfl hl
  | cons name l => rw [Location.path, String.intercalate_cons_cons, String.empty_append]

theorem splitOn_path (h : ∀ name ∈ l, IsName name) (hl : l ≠ []) : l.path.splitOn "/" = "" :: l := by
  rw [path_eq_intercalate l hl]
  exact splitOn_intercalate (List.forall_mem_cons.2 ⟨by decide, fun name hname => (h name hname).slash⟩) (by simp)

theorem parts_path (h : ∀ name ∈ l, IsName name) (hl : l ≠ []) :
    parts l.path = (some .root, "") :: l.map namePart := by
  unfold parts
  rw [splitOn_path h hl]
  have hnonempty : l.isEmpty = false := by simpa using hl
  simp only [hnonempty, List.cons.injEq, Prod.mk.injEq, and_true]
  refine ⟨by simp, List.map_congr_left fun name hname => ?_⟩
  rw [(h name hname).component?, namePart]

theorem parts_root : parts (Location.path []) = [(some .root, ""), (none, "")] := by
  have hsplit : (Location.path []).splitOn "/" = ["", ""] := by
    exact splitOn_intercalate (l := ["", ""]) (by simp) (by simp)
  unfold parts
  rw [hsplit]
  rfl

theorem components_path (h : ∀ name ∈ l, IsName name) : components l.path = .root :: l.map .name := by
  unfold components
  by_cases hl : l = []
  · subst hl
    rw [parts_root]
    rfl
  · rw [parts_path h hl]
    simp [List.filterMap_map, Function.comp_def, namePart]

theorem path_injective {l l' : Location} (h : ∀ name ∈ l, IsName name) (h' : ∀ name ∈ l', IsName name)
    (heq : components l.path = components l'.path) : l = l' := by
  rw [components_path h, components_path h'] at heq
  exact List.map_injective_iff.2 (fun a b hab => Component.name.inj hab) (List.cons.inj heq).2

theorem partsAfter?_names (home r : List String) :
    partsAfter? (home.map .name) ((home ++ r).map namePart) =
      some (r.map namePart) := by
  induction home with
  | nil =>
    cases r with
    | nil => rfl
    | cons name r => rfl
  | cons name home ih =>
    show partsAfter? (.name name :: home.map .name) ((some (.name name), name) :: (home ++ r).map namePart) = _
    rw [partsAfter?, if_pos rfl]
    exact ih

theorem trimParts_names (r : List String) :
    trimParts (r.map namePart) = r.map namePart := by
  unfold trimParts
  rw [← List.map_reverse]
  have hkeep : (r.reverse.map namePart).dropWhile (·.1.isNone) = r.reverse.map namePart := by
    cases r.reverse with
    | nil => rfl
    | cons name rest => exact List.dropWhile_cons_of_neg (by simp [namePart])
  rw [hkeep, List.map_reverse, List.reverse_reverse]

theorem ofParts_names (r : List String) : ofParts (r.map namePart) = "/".intercalate r := by
  unfold ofParts
  split
  · rename_i heq
    cases r with
    | nil => cases heq
    | cons name r => cases heq
  · rw [List.map_map]
    simp [Function.comp_def, namePart]

/-- A place below another, as seen from there. -/
theorem relativeTo?_path (h : ∀ name ∈ home ++ r, IsName name) :
    relativeTo? home.path (Location.path (home ++ r)) = some ("/".intercalate r) := by
  have hhome : ∀ name ∈ home, IsName name := fun name hname => h name (List.mem_append_left _ hname)
  unfold relativeTo?
  rw [components_path hhome]
  by_cases hl : home ++ r = []
  · obtain ⟨rfl, rfl⟩ := List.append_eq_nil_iff.1 hl
    rw [List.append_nil, parts_root]
    rfl
  · rw [parts_path h hl, partsAfter?, if_pos rfl, partsAfter?_names, Option.map_some, trimParts_names, ofParts_names]

/-! ## Going down -/

theorem startsWith_eq_false {rest : String} (h : "" ∉ rest.splitOn "/") : rest.startsWith "/" = false := by
  rw [← Bool.not_eq_true, startsWith_iff]
  rintro ⟨t, rfl⟩
  -- the first part would be empty
  refine h ?_
  have hsplit := splitOn_append "" t
  rw [String.empty_append] at hsplit
  rw [hsplit, splitOn_eq_singleton (by simp)]
  exact List.mem_cons_self

theorem endsWith_path (h : ∀ name ∈ l, IsName name) : l.path.endsWith "/" = true ↔ l = [] := by
  constructor
  · intro hends
    by_contra hl
    obtain ⟨t, ht⟩ := endsWith_iff.1 hends
    -- the last name would be empty
    have hsplit := splitOn_append t ""
    rw [String.append_empty, ← ht, path_eq_intercalate l hl, splitOn_intercalate,
      splitOn_eq_singleton (s := "") (by simp)] at hsplit
    · have hlast := congrArg List.getLast? hsplit
      rw [List.getLast?_cons_of_ne_nil hl, List.getLast?_append] at hlast
      exact (h "" (List.mem_of_getLast? hlast)).ne_empty rfl
    · exact List.forall_mem_cons.2 ⟨by decide, fun name hname => (h name hname).slash⟩
    · simp
  · rintro rfl
    exact endsWith_iff.2 ⟨"", rfl⟩

theorem join_path {rest : String} (hhome : ∀ name ∈ home, IsName name) (hrest : IsClean rest) :
    join home.path rest = Location.path (home ++ rest.splitOn "/") := by
  have hnonempty : home.path.isEmpty = false := by
    rw [Location.path]
    simp
  unfold join
  have hstarts : rest.startsWith "/" = false := startsWith_eq_false fun hempty => (hrest _ hempty).ne_empty rfl
  rw [if_neg (by simp [hstarts, hnonempty])]
  by_cases hl : home = []
  · rw [if_pos ((endsWith_path hhome).2 hl), hl, List.nil_append, Location.path, Location.path, intercalate_splitOn]
    rfl
  · rw [if_neg (mt (endsWith_path hhome).1 hl), path_eq_intercalate home hl, path_eq_intercalate _ (by simp [hl])]
    have hsplit : rest.splitOn "/" ≠ [] := by
      rw [splitOn_slash]
      simp
    rw [← List.cons_append, String.intercalate_append_of_ne_nil (by simp) hsplit, intercalate_splitOn]

/-! ## Names one after the other -/

theorem isClean_intercalate (hr : r ≠ []) (h : ∀ name ∈ r, IsName name) : IsClean ("/".intercalate r) := by
  unfold IsClean
  rw [splitOn_intercalate (fun name hname => (h name hname).slash) hr]
  exact h

theorem backslash_not_mem_intercalate (h : ∀ name ∈ r, '\\' ∉ name.toList) : '\\' ∉ ("/".intercalate r).toList := by
  induction r with
  | nil => simp
  | cons name r ih =>
    obtain ⟨hname, hr⟩ := List.forall_mem_cons.1 h
    by_cases hempty : r = []
    · rw [hempty, String.intercalate_singleton]
      exact hname
    · rw [String.intercalate_cons_of_ne_nil hempty]
      simpa [-String.toList_intercalate] using ⟨hname, ih hr⟩

theorem isEmpty_intercalate (h : ∀ name ∈ r, name ≠ "") : ("/".intercalate r).isEmpty = true ↔ r = [] := by
  cases r with
  | nil => simp
  | cons name r =>
    have hname := h name List.mem_cons_self
    by_cases hempty : r = []
    · rw [hempty, String.intercalate_singleton]
      simpa using hname
    · rw [String.intercalate_cons_of_ne_nil hempty]
      simp

end UnusedMethods.Path

namespace UnusedMethods.Text

theorem after?_eq_some {mark text rest : List Char} : after? mark text = some rest ↔ text = mark ++ rest := by
  induction mark generalizing text with
  | nil => simp [after?, eq_comm]
  | cons c mark ih =>
    cases text with
    | nil => simp [after?]
    | cons d text =>
      rw [after?, List.cons_append, List.cons.injEq]
      split
      · rename_i heq
        rw [ih, eq_comm (a := d)]
        simp [heq]
      · rename_i hne
        simp [Ne.symm hne]

end UnusedMethods.Text

namespace UnusedMethods

/-! ## What stands at a place -/

theorem FileTree.descend?_append (e : FileTree) (l l' : List String) :
    e.descend? (l ++ l') = (e.descend? l).bind fun below => below.descend? l' := by
  induction l generalizing e with
  | nil => rfl
  | cons name l ih =>
    show (e.child? name).bind _ = ((e.child? name).bind _).bind _
    rw [Option.bind_assoc]
    exact congrArg _ (funext ih)

namespace Disk

variable {d : Disk} {l : Location}

theorem step_of_isName {e : FileTree} (he : d.root.descend? l = some e) {name : String} (hname : Path.IsName name) :
    d.step l name = (e.child? name).map fun _ => l ++ [name] := by
  unfold Disk.step
  rw [he]
  simp only [Option.bind_eq_bind, Option.bind_some, hname.ne_empty, hname.ne_dot, hname.ne_dots, or_self, if_false]
  cases e with
  | file content => rfl
  | dir es => cases (FileTree.dir es).child? name <;> rfl

theorem foldlM_step {names : List String} (hnames : ∀ name ∈ names, Path.IsName name) {e : FileTree}
    (he : d.root.descend? l = some e) : names.foldlM d.step l = (e.descend? names).map fun _ => l ++ names := by
  induction names generalizing l e with
  | nil => simp [FileTree.descend?]
  | cons name names ih =>
    obtain ⟨hname, hnames⟩ := List.forall_mem_cons.1 hnames
    rw [List.foldlM_cons, step_of_isName he hname]
    cases hchild : e.child? name with
    | none => simp [FileTree.descend?, hchild]
    | some child =>
      have hbelow : d.root.descend? (l ++ [name]) = some child := by
        rw [FileTree.descend?_append, he]
        simp [FileTree.descend?, hchild]
      simp [FileTree.descend?, hchild, ih hnames hbelow]

theorem entry?_path (hroot : d.root.isDir = true) (hl : ∀ name ∈ l, Path.IsName name) : d.entry? l.path = d.root.descend? l := by
  have hstart : d.step [] "" = some [] := by
    unfold Disk.step
    simp [FileTree.descend?, hroot]
  have hslash : l.path.startsWith "/" = true := Path.startsWith_iff.2 ⟨_, rfl⟩
  have hempty : l.path.isEmpty = false := by simp [Location.path]
  have hlocate : d.locate? l.path = (d.root.descend? l).map fun _ => l := by
    unfold Disk.locate?
    rw [hempty, if_neg (by simp), hslash, if_pos rfl]
    by_cases hnil : l = []
    · subst hnil
      rw [show (Location.path []).splitOn "/" = ["", ""] from Path.splitOn_intercalate (l := ["", ""]) (by simp) (by simp)]
      simp [hstart, FileTree.descend?]
    · rw [Path.splitOn_path hl hnil, List.foldlM_cons, hstart]
      exact foldlM_step hl rfl
  unfold Disk.entry?
  rw [hlocate]
  cases hentry : d.root.descend? l with
  | none => rfl
  | some e => exact hentry

theorem fromUTF8?_toByteArray (text : String) : String.fromUTF8? text.toByteArray = some text := by
  unfold String.fromUTF8?
  rw [dif_pos text.isValidUTF8]
  rfl

theorem source_path (hroot : d.root.isDir = true) (hl : ∀ name ∈ l, Path.IsName name) {text : String}
    (h : d.root.descend? l = some (.file text.toUTF8)) : d.source l.path = .ok text := by
  have hread : d.readText l.path = .ok text := by
    unfold Disk.readText
    rw [entry?_path hroot hl, h]
    simp [fromUTF8?_toByteArray]
  unfold Disk.source
  rw [hread]

end Disk

end UnusedMethods

namespace UnusedMethods.Program.Setting

open Path

variable {s : Setting} {m : GoModule} {home r : Location}

theorem importPathOf_path (hm : s.module = some m) (hdir : m.dir = home.path) (h : ∀ name ∈ home ++ r, IsName name) :
    s.importPathOf (Location.path (home ++ r)) = "/".intercalate (m.path :: r) := by
  have hr : ∀ name ∈ r, IsName name := fun name hname => h name (List.mem_append_right _ hname)
  have hbelow := relativeTo?_path h
  unfold importPathOf
  rw [hm]
  simp only [Option.bind_eq_bind, Option.bind_some, hdir, hbelow,
    slashed_eq (backslash_not_mem_intercalate fun _ hname => (hr _ hname).backslash), Option.getD_some]
  have hnil := isEmpty_intercalate fun _ hname => (hr _ hname).ne_empty
  by_cases hempty : r = []
  · rw [if_pos (hnil.2 hempty), hempty, String.intercalate_singleton]
  · rw [if_neg (mt hnil.1 hempty), String.intercalate_cons_of_ne_nil hempty]

theorem dirOfImport?_intercalate (hm : s.module = some m) (hdir : m.dir = home.path) (h : ∀ name ∈ home ++ r, IsName name)
    (hexists : s.disk.isDir (Location.path (home ++ r)) = true) :
    s.dirOfImport? ("/".intercalate (m.path :: r)) = some (Location.path (home ++ r)) := by
  have hhome : ∀ name ∈ home, IsName name := fun name hname => h name (List.mem_append_left _ hname)
  have hr : ∀ name ∈ r, IsName name := fun name hname => h name (List.mem_append_right _ hname)
  unfold dirOfImport?
  rw [hm]
  simp only [Option.bind_eq_bind, Option.bind_some]
  by_cases hempty : r = []
  · rw [hempty, String.intercalate_singleton, if_pos rfl, List.append_nil, hdir]
  · have hlong : "/".intercalate (m.path :: r) ≠ m.path := by
      rw [String.intercalate_cons_of_ne_nil hempty]
      intro heq
      have := congrArg (fun s : String => s.toList.length) heq
      simp at this
    have hrest : Text.after? (m.path ++ "/").toList ("/".intercalate (m.path :: r)).toList =
        some ("/".intercalate r).toList := by
      rw [Text.after?_eq_some, String.intercalate_cons_of_ne_nil hempty]
      simp
    rw [if_neg hlong, hrest]
    simp only [Option.bind_some, String.ofList_toList, hdir]
    rw [join_path hhome (isClean_intercalate hempty hr), splitOn_intercalate (fun name hname => (hr name hname).slash) hempty,
      if_pos hexists]

theorem eq_of_dirOfImport?_eq_some (hm : s.module = some m) (hdir : m.dir = home.path) (hhome : ∀ name ∈ home, IsName name)
    {path dir : String} (hpath : IsClean path) (h : s.dirOfImport? path = some dir) :
    ∃ r, (∀ name ∈ r, IsName name) ∧ path = "/".intercalate (m.path :: r) ∧ dir = Location.path (home ++ r) ∧
      (r = [] ∨ s.disk.isDir dir = true) := by
  unfold dirOfImport? at h
  rw [hm] at h
  simp only [Option.bind_eq_bind, Option.bind_some] at h
  split at h
  · rename_i heq
    cases h
    exact ⟨[], by simp, by rw [heq, String.intercalate_singleton], by rw [hdir, List.append_nil], .inl rfl⟩
  · obtain ⟨rest, hrest, hdir'⟩ := Option.bind_eq_some_iff.1 h
    split at hdir'
    · rename_i hexists
      cases hdir'
      have hpath' : path = m.path ++ "/" ++ String.ofList rest := by
        refine String.toList_injective ?_
        rw [Text.after?_eq_some.1 hrest]
        simp
      have hclean : IsClean (String.ofList rest) := by
        intro name hname
        refine hpath name ?_
        rw [hpath', splitOn_append]
        exact List.mem_append_right _ hname
      have hsplit : (String.ofList rest).splitOn "/" ≠ [] := by
        rw [splitOn_slash]
        simp
      refine ⟨(String.ofList rest).splitOn "/", hclean, ?_, ?_, .inr hexists⟩
      · rw [String.intercalate_cons_of_ne_nil hsplit, intercalate_splitOn, hpath']
      · rw [hdir, join_path hhome hclean]
    · cases hdir'

end UnusedMethods.Program.Setting
