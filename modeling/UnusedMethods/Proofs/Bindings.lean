import Mathlib.Data.List.Induction
import UnusedMethods.Methods.Binding
import UnusedMethods.Syntax.Traversal

/-!
# What the bindings of a walk are

A variable is bound to what its own declarations say: it copies what the last of them copies, and it
points to whatever one of them points to. Both are said here about the list of what a walk has met,
without the bindings, and proved to be what the bindings hold.
-/

namespace UnusedMethods.Methods

open Syntax UnusedMethods.Types Typing

variable {spec : ValueSpec} {var var' source target : String} {value : Expr} {e : Met}

/-- What a walk meets: an item, and what is known about the file in which it stands. -/
abbrev Met := FileInfo × Item

/-! ## Declarations of variables -/

/-- The spec declares one variable, of an interface type, with one value. -/
def Gives (t : Table) (info : FileInfo) (spec : ValueSpec) (var : String) (value : Expr) : Prop :=
  ∃ name type, spec.names = [name] ∧ spec.values = [value] ∧ name.name = var ∧
    info.def? name.pos = some (.var type) ∧ t.isInterface type = true

/-- The expression is a variable or constant of a declared type that has the name `source`. -/
def IsCopy (t : Table) (info : FileInfo) (value : Expr) (source : String) : Prop :=
  ∃ node x type d, value = .ident node x ∧
    (info.use? node.id = some (.var type) ∨ info.use? node.id = some (.const type)) ∧
    t.named? type = some d ∧ d.name = source

/-- The expression is the address of something of a declared type that has the name `target`. -/
def IsAddress (t : Table) (info : FileInfo) (value : Expr) (target : String) : Prop :=
  ∃ node operand type elem d, value = .unary node "&" operand ∧ info.type? node.id = some type ∧
    t.deref type = (elem, true) ∧ t.named? elem = some d ∧ d.name = target

/-- What is met declares `var` as a copy of a variable whose declared type has the name `source`. -/
def Copies (t : Table) (e : Met) (var source : String) : Prop :=
  ∃ spec value, e.2 = .varSpec spec ∧ Gives t e.1 spec var value ∧ IsCopy t e.1 value source

/-- What is met declares `var` with the address of something whose declared type has the name
`target`. -/
def TakesAddress (t : Table) (e : Met) (var target : String) : Prop :=
  ∃ spec value, e.2 = .varSpec spec ∧ Gives t e.1 spec var value ∧ IsAddress t e.1 value target

/-- The last declaration that makes `var` a copy makes it a copy of something of type `source`. -/
def LastCopy (t : Table) (before : List Met) (var source : String) : Prop :=
  ∃ earlier e later, before = earlier ++ e :: later ∧ Copies t e var source ∧
    ∀ e' ∈ later, ∀ source', ¬ Copies t e' var source'

/-- Some declaration of `var` takes the address of something of type `target`. -/
def PointsTo (t : Table) (before : List Met) (var target : String) : Prop :=
  ∃ e ∈ before, TakesAddress t e var target

/-! ## The bindings of a walk -/

/-- Notes what is met. -/
def Bindings.note (t : Table) (b : Bindings) (e : Met) : Bindings :=
  match e.2 with
  | .varSpec spec => b.record t e.1 spec
  | .expr _ => b

/-- The bindings that a walk has made. -/
def bindingsAfter (t : Table) (before : List Met) : Bindings := before.foldl (Bindings.note t) .empty

theorem bindingsAfter_concat (t : Table) (before : List Met) (e : Met) :
    bindingsAfter t (before ++ [e]) = (bindingsAfter t before).note t e := by
  simp [bindingsAfter]

variable {t : Table} {info : FileInfo} {b : Bindings}

/-! ### One value -/

theorem Gives.unique {value' : Expr} (h : Gives t info spec var value) (h' : Gives t info spec var' value') :
    var = var' ∧ value = value' := by
  obtain ⟨name, type, hnames, hvalues, rfl, -⟩ := h
  obtain ⟨name', type', hnames', hvalues', rfl, -⟩ := h'
  rw [hnames] at hnames'
  rw [hvalues] at hvalues'
  simp_all

theorem IsCopy.unique {source' : String} (h : IsCopy t info value source) (h' : IsCopy t info value source') :
    source = source' := by
  obtain ⟨node, x, type, d, rfl, huse, hd, rfl⟩ := h
  obtain ⟨node', x', type', d', heq, huse', hd', rfl⟩ := h'
  cases heq
  rcases huse with huse | huse <;> rcases huse' with huse' | huse' <;> simp_all

theorem IsCopy.not_isAddress (h : IsCopy t info value source) : ¬ IsAddress t info value target := by
  obtain ⟨node, x, type, d, rfl, -⟩ := h
  rintro ⟨node', operand, type', elem, d', heq, -⟩
  cases heq

theorem IsAddress.unique {target' : String} (h : IsAddress t info value target) (h' : IsAddress t info value target') :
    target = target' := by
  obtain ⟨node, x, type, elem, d, rfl, htype, helem, hd, rfl⟩ := h
  obtain ⟨node', x', type', elem', d', heq, htype', helem', hd', rfl⟩ := h'
  cases heq
  simp_all

theorem bind_cases (b : Bindings) (t : Table) (info : FileInfo) (var : String) (value : Expr) :
    (∃ source, IsCopy t info value source ∧
      b.bind t info var value = { b with copies := (var, source) :: b.copies }) ∨
    (∃ target, IsAddress t info value target ∧
      b.bind t info var value = { b with pointees := (var, target) :: b.pointees }) ∨
    ((∀ source, ¬ IsCopy t info value source) ∧ (∀ target, ¬ IsAddress t info value target) ∧
      b.bind t info var value = b) := by
  unfold Bindings.bind
  split
  · rename_i node x
    -- an identifier is no address, so only the copy is in question
    have haddr : ∀ target, ¬ IsAddress t info (.ident node x) target := by
      rintro target ⟨_, _, _, _, _, heq, -⟩
      cases heq
    have hcopy : ∀ type, (info.use? node.id = some (.var type) ∨ info.use? node.id = some (.const type)) →
        t.named? type = none → ∀ source, ¬ IsCopy t info (.ident node x) source := by
      rintro type huse hnone source ⟨_, _, type', d, heq, huse', hd, -⟩
      cases heq
      rcases huse with huse | huse <;> rcases huse' with huse' | huse' <;> simp_all
    split
    · rename_i type huse
      split
      · rename_i d hd
        exact .inl ⟨d.name, ⟨node, x, type, d, rfl, .inl huse, hd, rfl⟩, rfl⟩
      · rename_i hnone
        exact .inr (.inr ⟨hcopy type (.inl huse) hnone, haddr, rfl⟩)
    · rename_i type huse
      split
      · rename_i d hd
        exact .inl ⟨d.name, ⟨node, x, type, d, rfl, .inr huse, hd, rfl⟩, rfl⟩
      · rename_i hnone
        exact .inr (.inr ⟨hcopy type (.inr huse) hnone, haddr, rfl⟩)
    · rename_i hvar hconst
      refine .inr (.inr ⟨?_, haddr, rfl⟩)
      rintro source ⟨_, _, type, d, heq, huse | huse, -⟩
      · cases heq
        exact hvar type huse
      · cases heq
        exact hconst type huse
  · rename_i node operand
    have hcopy : ∀ source, ¬ IsCopy t info (.unary node "&" operand) source := by
      rintro source ⟨_, _, _, _, heq, -⟩
      cases heq
    split
    · rename_i elem helem
      obtain ⟨type, htype, hderef⟩ := Option.map_eq_some_iff.1 helem
      split
      · rename_i d hd
        exact .inr (.inl ⟨d.name, ⟨node, operand, type, elem, d, rfl, htype, hderef, hd, rfl⟩, rfl⟩)
      · rename_i hnone
        refine .inr (.inr ⟨hcopy, ?_, rfl⟩)
        rintro target ⟨_, _, type', elem', d, heq, htype', hderef', hd, -⟩
        cases heq
        simp_all
    · rename_i hno
      refine .inr (.inr ⟨hcopy, ?_, rfl⟩)
      rintro target ⟨_, _, type, elem, d, heq, htype, hderef, -⟩
      cases heq
      exact hno elem (by rw [htype, Option.map_some, hderef])
  · rename_i hident haddr
    refine .inr (.inr ⟨?_, ?_, rfl⟩)
    · rintro source ⟨node, x, _, _, heq, -⟩
      exact hident node x heq
    · rintro target ⟨node, operand, _, _, _, heq, -⟩
      exact haddr node operand heq

/-! ### One declaration -/

theorem record_of_gives (h : Gives t info spec var value) : b.record t info spec = b.bind t info var value := by
  obtain ⟨name, type, hnames, hvalues, rfl, hdef, hiface⟩ := h
  simp [Bindings.record, hnames, hvalues, hdef, hiface]

theorem record_of_not_gives (h : ∀ var value, ¬ Gives t info spec var value) : b.record t info spec = b := by
  unfold Bindings.record
  split
  · rename_i name value hnames hvalues
    split
    · rename_i type hdef
      split
      · rename_i hiface
        exact absurd ⟨name, type, hnames, hvalues, rfl, hdef, hiface⟩ (h name.name value)
      · rfl
    · rfl
  · rfl

theorem note_cases (b : Bindings) (t : Table) (e : Met) :
    (∃ var source, Copies t e var source ∧ b.note t e = { b with copies := (var, source) :: b.copies }) ∨
    (∃ var target, TakesAddress t e var target ∧
      b.note t e = { b with pointees := (var, target) :: b.pointees }) ∨
    ((∀ var source, ¬ Copies t e var source) ∧ (∀ var target, ¬ TakesAddress t e var target) ∧
      b.note t e = b) := by
  obtain ⟨info, item⟩ := e
  cases item with
  | expr _ =>
    refine .inr (.inr ⟨?_, ?_, rfl⟩) <;>
    · rintro _ _ ⟨_, _, h, -⟩
      cases h
  | varSpec spec =>
    by_cases hgives : ∃ var value, Gives t info spec var value
    · obtain ⟨var, value, hgives⟩ := hgives
      have hnote : b.note t (info, .varSpec spec) = b.bind t info var value := record_of_gives hgives
      rw [hnote]
      rcases bind_cases b t info var value with ⟨source, h, heq⟩ | ⟨target, h, heq⟩ | ⟨hcopy, haddr, heq⟩
      · exact .inl ⟨var, source, ⟨spec, value, rfl, hgives, h⟩, heq⟩
      · exact .inr (.inl ⟨var, target, ⟨spec, value, rfl, hgives, h⟩, heq⟩)
      · refine .inr (.inr ⟨?_, ?_, heq⟩)
        · rintro _ source ⟨_, _, h, hgives', hcopy'⟩
          cases h
          exact hcopy source ((hgives.unique hgives').2 ▸ hcopy')
        · rintro _ target ⟨_, _, h, hgives', haddr'⟩
          cases h
          exact haddr target ((hgives.unique hgives').2 ▸ haddr')
    · refine .inr (.inr ⟨?_, ?_, record_of_not_gives fun var value h => hgives ⟨var, value, h⟩⟩)
      · rintro var _ ⟨_, value, h, hgives', -⟩
        cases h
        exact hgives ⟨var, value, hgives'⟩
      · rintro var _ ⟨_, value, h, hgives', -⟩
        cases h
        exact hgives ⟨var, value, hgives'⟩

theorem Copies.unique {source' : String} (h : Copies t e var source) (h' : Copies t e var' source') :
    var = var' ∧ source = source' := by
  obtain ⟨spec, value, heq, hgives, hcopy⟩ := h
  obtain ⟨spec', value', heq', hgives', hcopy'⟩ := h'
  cases heq.symm.trans heq'
  obtain ⟨hvar, rfl⟩ := hgives.unique hgives'
  exact ⟨hvar, hcopy.unique hcopy'⟩

theorem Copies.not_takesAddress (h : Copies t e var source) : ¬ TakesAddress t e var' target := by
  obtain ⟨spec, value, heq, hgives, hcopy⟩ := h
  rintro ⟨spec', value', heq', hgives', haddr⟩
  cases heq.symm.trans heq'
  obtain ⟨-, rfl⟩ := hgives.unique hgives'
  exact hcopy.not_isAddress haddr

theorem TakesAddress.unique {target' : String} (h : TakesAddress t e var target) (h' : TakesAddress t e var' target') :
    var = var' ∧ target = target' := by
  obtain ⟨spec, value, heq, hgives, haddr⟩ := h
  obtain ⟨spec', value', heq', hgives', haddr'⟩ := h'
  cases heq.symm.trans heq'
  obtain ⟨hvar, rfl⟩ := hgives.unique hgives'
  exact ⟨hvar, haddr.unique haddr'⟩

theorem copied?_note_iff (b : Bindings) (e : Met) (var source : String) :
    (b.note t e).copied? var = some source ↔
      Copies t e var source ∨ ((∀ source', ¬ Copies t e var source') ∧ b.copied? var = some source) := by
  rcases note_cases b t e with ⟨var', source', hcopy, heq⟩ | ⟨var', target, haddr, heq⟩ | ⟨hcopy, -, heq⟩
  · rw [heq]
    by_cases hvar : var = var'
    · subst hvar
      have hlookup : (Bindings.mk ((var, source') :: b.copies) b.pointees).copied? var = some source' := by
        simp [Bindings.copied?]
      rw [hlookup, Option.some.injEq]
      constructor
      · rintro rfl
        exact .inl hcopy
      · rintro (h | ⟨h, -⟩)
        · exact (hcopy.unique h).2
        · exact absurd hcopy (h source')
    · have hlookup : (Bindings.mk ((var', source') :: b.copies) b.pointees).copied? var = b.copied? var := by
        simp [Bindings.copied?, List.lookup_cons, beq_false_of_ne hvar]
      rw [hlookup]
      have hno : ∀ s, ¬ Copies t e var s := fun s h => hvar (h.unique hcopy).1
      exact ⟨fun h => .inr ⟨hno, h⟩, fun h => h.elim (fun h => absurd h (hno source)) (·.2)⟩
  · have hno : ∀ s, ¬ Copies t e var s := fun s h => h.not_takesAddress haddr
    rw [heq]
    exact ⟨fun h => .inr ⟨hno, h⟩, fun h => h.elim (fun h => absurd h (hno source)) (·.2)⟩
  · rw [heq]
    exact ⟨fun h => .inr ⟨hcopy var, h⟩, fun h => h.elim (fun h => absurd h (hcopy var source)) (·.2)⟩

theorem mem_pointeesOf_note_iff (b : Bindings) (e : Met) (var target : String) :
    target ∈ (b.note t e).pointeesOf var ↔ TakesAddress t e var target ∨ target ∈ b.pointeesOf var := by
  rcases note_cases b t e with ⟨var', source', hcopy, heq⟩ | ⟨var', target', haddr, heq⟩ | ⟨-, haddr, heq⟩
  · rw [heq]
    exact ⟨.inr, fun h => h.elim (fun h => absurd h hcopy.not_takesAddress) id⟩
  · have hmem : target ∈ (Bindings.mk b.copies ((var', target') :: b.pointees)).pointeesOf var ↔
        (var' = var ∧ target' = target) ∨ target ∈ b.pointeesOf var := by
      simp only [Bindings.pointeesOf, List.mem_reverse, List.mem_map, List.mem_filter, List.mem_cons,
        decide_eq_true_eq, and_assoc, or_and_right, exists_or, exists_eq_left]
    have haddr_iff : (var' = var ∧ target' = target) ↔ TakesAddress t e var target := by
      constructor
      · rintro ⟨rfl, rfl⟩
        exact haddr
      · exact haddr.unique
    rw [heq, hmem, haddr_iff]
  · rw [heq]
    exact ⟨.inr, fun h => h.elim (fun h => absurd h (haddr var target)) id⟩

/-! ### A whole walk -/

theorem lastCopy_concat_iff (before : List Met) (e : Met) (var source : String) :
    LastCopy t (before ++ [e]) var source ↔
      Copies t e var source ∨ ((∀ source', ¬ Copies t e var source') ∧ LastCopy t before var source) := by
  constructor
  · rintro ⟨earlier, e', later, heq, hcopy, hlast⟩
    rcases List.eq_nil_or_concat later with rfl | ⟨later, e'', rfl⟩
    · obtain ⟨-, rfl⟩ := List.append_singleton_inj.1 heq
      exact .inl hcopy
    · rw [List.concat_eq_append] at heq hlast
      rw [← List.cons_append, ← List.append_assoc] at heq
      obtain ⟨rfl, rfl⟩ := List.append_singleton_inj.1 heq
      exact .inr ⟨hlast e (by simp), earlier, e', later, rfl, hcopy, fun e' he' => hlast e' (by simp [he'])⟩
  · rintro (hcopy | ⟨hno, earlier, e', later, rfl, hcopy, hlast⟩)
    · exact ⟨before, e, [], rfl, hcopy, by simp⟩
    · refine ⟨earlier, e', later ++ [e], by simp, hcopy, ?_⟩
      intro e'' he''
      rcases List.mem_append.1 he'' with he'' | he''
      · exact hlast e'' he''
      · rw [List.mem_singleton.1 he'']
        exact hno

/-- The type that a variable copies, as the bindings have it, is the one of its last declaration. -/
theorem copied?_bindingsAfter_iff (t : Table) (before : List Met) (var source : String) :
    (bindingsAfter t before).copied? var = some source ↔ LastCopy t before var source := by
  induction before using List.reverseRecOn with
  | nil =>
    constructor
    · intro h
      cases h
    · rintro ⟨earlier, e, later, heq, -⟩
      simp at heq
  | append_singleton before e ih =>
    rw [bindingsAfter_concat, copied?_note_iff, lastCopy_concat_iff, ih]

/-- A variable points to what one of its declarations takes the address of. -/
theorem mem_pointeesOf_bindingsAfter_iff (t : Table) (before : List Met) (var target : String) :
    target ∈ (bindingsAfter t before).pointeesOf var ↔ PointsTo t before var target := by
  induction before using List.reverseRecOn with
  | nil => simp [bindingsAfter, Bindings.pointeesOf, Bindings.empty, PointsTo]
  | append_singleton before e ih =>
    rw [bindingsAfter_concat, mem_pointeesOf_note_iff, ih]
    simp only [PointsTo, List.mem_append, List.mem_singleton, or_and_right, exists_or, exists_eq_left]
    exact or_comm

end UnusedMethods.Methods
