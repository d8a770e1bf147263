import Mathlib.Data.List.Nodup
import Mathlib.Data.List.Pairwise
import UnusedMethods.Proofs.Declarations

/-!
# What package-level names denote

When the declarations of a package have been entered, every later step of the check lets package-level names denote
only what the declarations say: a variable for a variable, the entered type for a declared type, and so on. In the end
every declared name denotes something.
-/

namespace UnusedMethods.Typing

open Syntax UnusedMethods.Types

variable {name : String} {p : CurrentFile × Entry}

/-! ## Checks under way -/

/-- The plan when declarations have been entered: names denote what the declarations say. -/
def Plan.ofEntries (declares : Nat → Ident → Prop) (es : List (CurrentFile × Entry)) : Plan where
  declares := declares
  denotes name obj := ∃ p ∈ es, name ∈ p.2.declaration.names ∧ p.2.Denotes obj
  settled _ := False
  steady := False

/-- The check of a package is under way, and these declarations have been entered. -/
structure Underway (declares : Nat → Ident → Prop) (es : List (CurrentFile × Entry)) (c : Context) (n : Notes) (t : Table) :
    Prop extends Checking.Ready (.ofEntries declares es) c n t where
  entries : EntriesWF (.ofEntries declares es) t es

variable {declares : Nat → Ident → Prop} {es : List (CurrentFile × Entry)} {c : Context} {n : Notes} {t : Table}

/-- After a sound step the check is still under way, and names that denoted something still do. -/
theorem Underway.step {α : Type} (h : Underway declares es c n t) {x : Checking α} {Q : α → Table → Prop}
    (hx : Checking.Sound (.ofEntries declares es) c t x Q) :
    Underway declares es c (x.eval c n t).1.2 (x.eval c n t).2 ∧ t.Grows (x.eval c n t).2 ∧
      ∀ name, (n.scope.find? name).isSome → ((x.eval c n t).1.2.scope.find? name).isSome := by
  obtain ⟨hready, hstep, hnotes, -⟩ := h.toReady.step hx
  exact ⟨⟨hready, h.entries.of_grows hstep.grows⟩, hstep.grows, hnotes.keeps⟩

theorem Underway.beginDeclarations (h : Underway declares es c n t) : Underway declares es c n { t with deferring := true } :=
  (h.step (sound_beginDeclarations id)).1

/-! ## Entering -/

theorem denotes_of_mem_bindings {e : Entry} {obj : Object} (h : (name, obj) ∈ e.bindings) :
    name ∈ e.declaration.names ∧ e.Denotes obj := by
  cases e with
  | «alias» spec => cases h
  | method f recv => cases h
  | type spec id =>
    obtain ⟨name', hname, heq⟩ := List.mem_map.1 h
    cases heq
    exact ⟨hname, rfl⟩
  | func f id =>
    obtain ⟨name', hname, heq⟩ := List.mem_map.1 h
    cases heq
    exact ⟨hname, rfl⟩
  | var spec =>
    obtain ⟨name', hname, heq⟩ := List.mem_map.1 h
    cases heq
    exact ⟨hname, _, rfl⟩
  | consts specs =>
    obtain ⟨name', hname, heq⟩ := List.mem_map.1 h
    cases heq
    exact ⟨hname, _, rfl⟩

theorem map_declaration_entriesFrom (path : String) (type func : Nat) (ds : List (CurrentFile × Declaration)) :
    (entriesFrom path type func ds).map (fun p => (p.1, p.2.declaration)) = ds := by
  induction ds generalizing type func with
  | nil => rfl
  | cons p ds ih => rw [entriesFrom, List.map_cons, ih, Declaration.declaration_entry]

theorem flatMap_names_entriesFrom (path : String) (type func : Nat) (ds : List (CurrentFile × Declaration)) :
    (entriesFrom path type func ds).flatMap (·.2.declaration.names) = namesIn ds := by
  rw [namesIn, ← map_declaration_entriesFrom path type func ds, List.flatMap_map, map_declaration_entriesFrom]

theorem underway_enterAll {plan : Plan} (hopen : ∀ name obj, plan.denotes name obj) (hwf : t.WF) (hc : c.WF t)
    (hn : n.WF plan t) (hscope : n.scope = .empty) {ds : List (CurrentFile × Declaration)} (hds : DeclarationsWF plan t ds)
    (hnodup : (namesIn ds).Nodup) :
    Underway plan.declares ((enterAll ds).eval c n t).1.1 c ((enterAll ds).eval c n t).1.2 ((enterAll ds).eval c n t).2 := by
  obtain ⟨⟨hstep, ⟨hnotes, -, -⟩, hes⟩, -⟩ := sound_enterAll (c := c) hopen hds n t (.refl t) hwf hc hn
  obtain ⟨n', heval, hdefines⟩ := eval_enterAll ds c n t
  rw [heval] at hstep hnotes hes ⊢
  refine ⟨⟨hstep.wf, hc.of_grows hstep.grows, hnotes.scope, fun name obj hobj => ?_, hnotes.locals, hnotes.infos, nofun⟩,
    fun p hp => ⟨(hes p hp).1, (hes p hp).2.inTable, (hes p hp).2.funcNames, fun name hname obj hobj => ?_⟩⟩
  · rw [hdefines.scope, hscope, find?_define _ ((names_bindingsOf ..).nodup hnodup)] at hobj
    rcases hobj with hmem | ⟨-, hnone⟩
    · obtain ⟨p, hp, hmem⟩ := List.mem_flatMap.1 hmem
      exact ⟨p, hp, denotes_of_mem_bindings hmem⟩
    · cases hnone
  · exact ⟨p, hp, hname, hobj⟩

theorem isSome_find?_define {bs : List (String × Object)} (h : name ∈ bs.map (·.1)) (s : Scope) :
    ((s.define bs).find? name).isSome := by
  -- what is defined stays defined
  have hkeep : ∀ (bs : List (String × Object)) (s : Scope), (s.find? name).isSome → ((s.define bs).find? name).isSome := by
    intro bs
    induction bs with
    | nil => exact fun _ => id
    | cons b bs ih =>
      intro s hs
      refine ih (s.insert b.1 b.2) ?_
      rw [Checking.Sound.find?_insert]
      split
      · rfl
      · exact hs
  induction bs generalizing s with
  | nil => cases h
  | cons b bs ih =>
    rcases List.mem_cons.1 h with rfl | h
    · refine hkeep bs (s.insert b.1 b.2) ?_
      rw [Checking.Sound.find?_insert, if_pos rfl]
      rfl
    · exact ih h (s.insert b.1 b.2)

/-- Every name that is not that of an alias denotes something as soon as the declarations have been entered. -/
theorem isSome_find?_enterAll {ds : List (CurrentFile × Declaration)} (hp : p ∈ ((enterAll ds).eval c n t).1.1)
    (halias : p.2.declaration.kind ≠ .alias) (hname : name ∈ p.2.declaration.names) :
    (((enterAll ds).eval c n t).1.2.scope.find? name).isSome := by
  obtain ⟨n', heval, hdefines⟩ := eval_enterAll ds c n t
  rw [heval] at hp ⊢
  rw [hdefines.scope]
  refine isSome_find?_define (List.mem_map.2 ⟨(name, p.2.object), List.mem_flatMap.2 ⟨p, hp, ?_⟩, rfl⟩) _
  unfold Entry.bindings
  split
  · rename_i spec heq
    rw [heq] at halias
    exact absurd rfl halias
  · exact List.mem_map.2 ⟨name, hname, rfl⟩

/-! ## Aliases -/

theorem isSome_find?_resolveAlias (spec : TypeSpec) (c : Context) (n : Notes) (t : Table)
    (hname : name ∈ namesOf [spec.name]) : (((resolveAlias spec).eval c n t).1.2.scope.find? name).isSome := by
  unfold resolveAlias
  rw [Checking.eval_bind]
  obtain ⟨n', heval, hdefines⟩ := eval_declare spec.name (.typeName ((resolveType spec.type).eval c n t).1.1) c
    ((resolveType spec.type).eval c n t).1.2 ((resolveType spec.type).eval c n t).2
  rw [heval, hdefines.scope]
  exact isSome_find?_define (by simpa using hname) _

theorem isSome_find?_of_alias (h : Underway declares es c n t) {file : CurrentFile} {spec : TypeSpec}
    (hp : (file, .alias spec) ∈ es) (hname : name ∈ namesOf [spec.name]) :
    (((resolveAliases es).eval c n t).1.2.scope.find? name).isSome := by
  obtain ⟨before, after, hes⟩ := List.append_of_mem hp
  have hbefore : EntriesWF (.ofEntries declares es) t before := fun p hp => h.entries p (by simp [hes, hp])
  have hafter : EntriesWF (.ofEntries declares es) t after := fun p hp => h.entries p (by simp [hes, hp])
  have hthis : EntriesWF (.ofEntries declares es) t [(file, .alias spec)] :=
    fun p hp => h.entries p (by simp [hes, List.mem_singleton.1 hp])
  have hsplit : resolveAliases es = resolveAliases before >>= fun _ =>
      resolveAliases [(file, .alias spec)] >>= fun _ => resolveAliases after := by
    conv_lhs => rw [hes]
    rw [← List.singleton_append, resolveAliases, forEach_append, forEach_append]
    rfl
  rw [hsplit, Checking.eval_bind, Checking.eval_bind]
  obtain ⟨h₁, hgrows₁, -⟩ := h.step (sound_resolveAliases hbefore)
  obtain ⟨h₂, hgrows₂, -⟩ := h₁.step ((sound_resolveAliases hthis).weaken hgrows₁)
  obtain ⟨-, -, hkeeps⟩ := h₂.step ((sound_resolveAliases hafter).weaken (hgrows₁.trans hgrows₂))
  exact hkeeps name (isSome_find?_resolveAlias spec { c with file } _ _ hname)

/-- Every declared name denotes something as soon as the aliases have been resolved. -/
theorem isSome_find?_resolveAliases (h : Underway declares es c n t)
    (hentered : ∀ p ∈ es, p.2.declaration.kind ≠ .alias → ∀ name ∈ p.2.declaration.names, (n.scope.find? name).isSome)
    (hp : p ∈ es) (hname : name ∈ p.2.declaration.names) :
    (((resolveAliases es).eval c n t).1.2.scope.find? name).isSome := by
  by_cases halias : p.2.declaration.kind = .alias
  · obtain ⟨file, e⟩ := p
    cases e with
    | «alias» spec => exact isSome_find?_of_alias h hp hname
    | _ => cases halias
  · obtain ⟨-, -, hkeeps⟩ := h.step (sound_resolveAliases h.entries)
    exact hkeeps name (hentered p hp halias name hname)

/-! ## The whole check -/

theorem eq_of_mem_names (hnodup : (es.flatMap (·.2.declaration.names)).Nodup) {q : CurrentFile × Entry} (hp : p ∈ es)
    (hq : q ∈ es) (hname : name ∈ p.2.declaration.names) (hname' : name ∈ q.2.declaration.names) : p = q := by
  by_contra hne
  have : Std.Symm (Function.onFun List.Disjoint fun p : CurrentFile × Entry => p.2.declaration.names) :=
    ⟨fun _ _ h _ hp hq => h hq hp⟩
  have hdisjoint := (List.nodup_flatMap.1 hnodup).2.forall hp hq hne
  exact hdisjoint hname hname'

theorem exists_object_of_mem (h : Underway declares es c n t) (hnodup : (es.flatMap (·.2.declaration.names)).Nodup)
    (hentered : ∀ p ∈ es, p.2.declaration.kind ≠ .alias → ∀ name ∈ p.2.declaration.names, (n.scope.find? name).isSome)
    (hp : p ∈ es) (hname : name ∈ p.2.declaration.names) :
    ∃ obj, ((checkEntries es).eval c n t).1.2.scope.find? name = some obj ∧ p.2.Denotes obj := by
  have h₁ := h.beginDeclarations
  obtain ⟨h₂, -, -⟩ := h₁.step (sound_resolveAliases h₁.entries)
  obtain ⟨h₃, -, hkeeps₃⟩ := h₂.step (sound_resolveDeclaredTypes h₂.entries fun _ _ => id)
  obtain ⟨h₄, -, hkeeps₄⟩ := h₃.step (sound_checkMembers id h₃.entries)
  -- the name is there when the aliases have been resolved, and stays
  have hsome := hkeeps₄ name (hkeeps₃ name (isSome_find?_resolveAliases h₁ hentered hp hname))
  have heval : (checkEntries es).eval c n t = Checking.eval (checkMembers es) c _ _ := rfl
  rw [heval]
  obtain ⟨obj, hobj⟩ := Option.isSome_iff_exists.1 hsome
  obtain ⟨q, hq, hname', hdenotes⟩ := h₄.notes.denotes name obj hobj
  obtain rfl := eq_of_mem_names hnodup hp hq hname hname'
  exact ⟨obj, hobj, hdenotes⟩

end UnusedMethods.Typing
