import UnusedMethods.Proofs.Registration
import UnusedMethods.Proofs.Usage

/-!
# Called methods are used

A selector that picks a registered method makes it used, whatever the receiver is. A selector may also pick a copy
of a registered method, made for an instance of a generic interface. Whether that counts for the registered method
goes by the receiver's own type: `CountsFor` says when. So a copy that is reached through an interface which only
embeds the instance does not count.
-/

namespace UnusedMethods.Methods

open Syntax UnusedMethods.Types Typing

variable {t : Table} {called : FuncId} {d : MethodDeclaration} {recv : TypeId}

/-! ## Selected methods -/

/-- The method that an item picks, and from what type, if it is a selector of a method. -/
def selectedMethod? (met : Met) : Option (FuncId × TypeId) :=
  match met.2 with
  | .expr (.selector node _ _) =>
    (met.1.selection? node.id).bind fun sel => sel.method.map fun m => (m, sel.recv)
  | _ => none

/-- The methods that selectors in the files of a package pick, each with the type of its receiver. -/
def CheckedPackage.selected (u : CheckedPackage) (filter : PathFilter) : List (FuncId × TypeId) :=
  (u.walk filter).filterMap selectedMethod?

/-! ## Copies of declared methods -/

/-- The receiver's own type is an instance of a generic type that stands for the interface of a declaration. If
matching goes by names, the generic type must be called like the interface. -/
def IsInstanceFor (t : Table) (mode : GenericMatch) (recv : TypeId) (d : MethodDeclaration) : Prop :=
  d.generic = true ∧ ∃ inst origin, t.named? recv = some inst ∧ inst.origin = some origin ∧
    (mode = .heuristic → ∃ generic, t.named? origin = some generic ∧ generic.name = d.interfaceName)

/-- The receiver is the interface of a declaration or, if it is no interface, has all its methods. -/
def HasInterface (t : Table) (recv : TypeId) (d : MethodDeclaration) : Prop :=
  if t.isInterface recv then t.identical recv d.interface = true else t.satisfies recv d.interface = true

/-- Selecting a copy of the method of `d` counts for `d`: the receiver is an instance, or the copy has the signature
of the method and the receiver, if anything is known about it, has the interface. -/
def CountsFor (t : Table) (mode : GenericMatch) (called : FuncId) (recv : TypeId) (d : MethodDeclaration) : Prop :=
  IsInstanceFor t mode recv d ∨
    t.identical (t.func called).sig (t.func d.method).sig = true ∧ (t.isInvalid recv = false → HasInterface t recv d)

theorem copy_of_origin (hwf : t.WF) {f o : FuncId} (h : (t.func f).origin = some o) :
    (t.func f).name = (t.func o).name ∧ f ≠ o := by
  obtain ⟨-, hname, horigin⟩ := (hwf.func f).origin o h
  refine ⟨hname.symm, ?_⟩
  rintro rfl
  rw [h] at horigin
  cases horigin

theorem isOrigin_iff (hwf : t.WF) {mode : GenericMatch} (h : (t.func called).origin = some d.method) :
    isOrigin t mode called d recv = true ↔ IsInstanceFor t mode recv d := by
  unfold isOrigin IsInstanceFor
  cases hnamed : t.named? recv with
  | none => simp
  | some inst =>
    cases horigin : inst.origin with
    | none => simp [horigin]
    | some origin =>
      -- an instance is entered after the generic type
      have hne : origin ≠ recv := by
        rintro rfl
        have hlt := (hwf.get origin).parts origin (by simp [Expansion.named?_eq_some hnamed, Ty.parts, horigin])
        exact Nat.lt_irrefl _ hlt
      cases mode with
      | strict => simp [horigin, hne, h]
      | heuristic =>
        cases hgeneric : t.named? origin with
        | none => simp [horigin, hgeneric]
        | some generic => simp [horigin, hne, hgeneric]

theorem ofSelection_copy_iff (hwf : t.WF) (mode : GenericMatch) (recv : TypeId) (h : (t.func called).origin = some d.method) :
    Decision.ofSelection t mode called d (some recv) ≠ .rejected ↔ CountsFor t mode called recv d := by
  obtain ⟨hname, hne⟩ := copy_of_origin hwf h
  have hsame : sameName t called d = true := by simpa [sameName] using hname
  rw [Decision.ofSelection_eq]
  unfold Decision.ofReceiver? CountsFor
  cases hinvalid : t.isInvalid recv with
  | true =>
    have hnot : ¬ IsInstanceFor t mode recv d := by
      rintro ⟨-, inst, origin, hnamed, -⟩
      simp [Table.isInvalid, Expansion.named?_eq_some hnamed] at hinvalid
    simp [Option.filter, hinvalid, hsame, sameShape, hnot]
  | false =>
    simp only [Option.filter, hinvalid, Bool.not_false, if_true, Decision.ofReceiver, if_neg hne, hsame, Bool.not_true,
      Bool.false_eq_true, if_false, forall_const, sameShape]
    by_cases hinstance : IsInstanceFor t mode recv d
    · simp [(isOrigin_iff hwf h).2 hinstance, hinstance]
    · have horigin : isOrigin t mode called d recv = false := by
        simpa using fun hor => hinstance ((isOrigin_iff hwf h).1 hor)
      unfold HasInterface
      by_cases hshape : t.identical (t.func called).sig (t.func d.method).sig = true
      · by_cases hiface : t.isInterface recv = true
        · simp [horigin, hinstance, hshape, hiface]
        · simp [horigin, hinstance, hshape, hiface]
      · simp [horigin, hinstance, hshape]

theorem ofSelection_self (t : Table) (mode : GenericMatch) (d : MethodDeclaration) (recv : TypeId) :
    Decision.ofSelection t mode d.method d (some recv) ≠ .rejected := by
  rw [Decision.ofSelection_eq]
  unfold Decision.ofReceiver?
  split
  · simp [sameName, sameShape, Table.identical_self]
  · simp [Decision.ofReceiver]

/-! ## Uses -/

theorem exists_selects_of_mem_selected {u : CheckedPackage} (hwf : u.package.WF u.table) {filter : PathFilter}
    (h : (called, recv) ∈ u.selected filter) :
    ∃ info node operand field, (info, .expr (.selector node operand field)) ∈ u.walk filter ∧
      Selects info node called recv := by
  obtain ⟨⟨info, item⟩, hmet, hpick⟩ := List.mem_filterMap.1 h
  unfold selectedMethod? at hpick
  dsimp only at hpick
  split at hpick
  · rename_i node operand field
    obtain ⟨sel, hsel, hmethod⟩ := Option.bind_eq_some_iff.1 hpick
    obtain ⟨m, hm, heq⟩ := Option.map_eq_some_iff.1 hmethod
    obtain ⟨rfl, rfl⟩ := Prod.mk.inj heq
    refine ⟨info, node, operand, field, hmet, sel, hsel, ?_, rfl, hm⟩
    -- a selection with a method is not that of a field
    obtain ⟨⟨file, info'⟩, hfile, hitem⟩ := List.mem_flatMap.1 hmet
    obtain ⟨item, -, heq⟩ := List.mem_map.1 hitem
    obtain ⟨rfl, -⟩ := Prod.mk.inj heq
    obtain ⟨i, -, hinfo⟩ := CheckedPackage.getElem?_of_mem_files hfile
    obtain ⟨l₁, l₂, hselections, -⟩ := List.lookup_eq_some_iff.1 hsel
    have hkind := (((hwf.infos i info' hinfo).selections (node.id, sel) (by rw [hselections]; simp)).method m hm).2
    cases hsk : sel.kind with
    | fieldVal => exact absurd hsk hkind
    | methodVal => exact .inl rfl
    | methodExpr => exact .inr rfl
  · cases hpick

/-- A selection that is not rejected for a declaration of its name makes the declared method used. -/
theorem mem_track_of_selected {u : CheckedPackage} (hwf : u.package.WF u.table) {registry : Registry} {filter : PathFilter}
    {options : Options} (hselected : (called, recv) ∈ u.selected filter) (hd : d ∈ registry.entries)
    (hname : d.name = (u.table.func called).name)
    (hmatch : Decision.ofSelection u.table options.genericMatch called d (some recv) ≠ .rejected) :
    (track u registry filter options).contains d.method = true := by
  obtain ⟨info, node, operand, field, hmet, hsel⟩ := exists_selects_of_mem_selected hwf hselected
  obtain ⟨before, after, hwalk⟩ := List.append_of_mem hmet
  rw [UsedSet.contains, List.contains_iff_mem, mem_methods_track_iff]
  exact ⟨d, hd, rfl, before, info, _, after, hwalk, .selected hsel hname hmatch⟩

/-- In a package of any stage, a selected method that is registered is used. If a copy of a registered method is
selected, it is decided by `CountsFor` whether that counts, and if it does the registered method is used. -/
theorem contains_track_of_selected {t : Table} {packages : Array Package} (hstage : Stage t packages) {p : Package}
    (hp : p ∈ packages) (hapart : ∀ file ∈ p.files, file.tree.FuncNamesApart) (filter : PathFilter) (options : Options)
    {called : FuncId} {recv : TypeId} (hselected : (called, recv) ∈ CheckedPackage.selected ⟨t, p⟩ filter) :
    ((collect ⟨t, p⟩ filter options).contains called = true →
      (track ⟨t, p⟩ (collect ⟨t, p⟩ filter options) filter options).contains called = true) ∧
    ∀ d ∈ (collect ⟨t, p⟩ filter options).entries, (t.func called).origin = some d.method →
      (Decision.ofSelection t options.genericMatch called d (some recv) ≠ .rejected ↔
        CountsFor t options.genericMatch called recv d) ∧
      (CountsFor t options.genericMatch called recv d →
        (track ⟨t, p⟩ (collect ⟨t, p⟩ filter options) filter options).contains d.method = true) := by
  obtain ⟨hwf, hpackages⟩ := hstage.wf
  have hpackage := hpackages p hp
  have hname : ∀ d ∈ (collect ⟨t, p⟩ filter options).entries, d.name = (t.func d.method).name :=
    fun d hd => CheckedPackage.name_of_mem_collect (u := ⟨t, p⟩) hpackage hapart hd
  constructor
  · intro hregistered
    obtain ⟨d, hd, rfl⟩ := Registry.contains_iff.1 hregistered
    exact mem_track_of_selected hpackage hselected hd (hname d hd) (ofSelection_self t _ d recv)
  · intro d hd horigin
    have hiff := ofSelection_copy_iff hwf options.genericMatch recv horigin
    refine ⟨hiff, fun hcounts => mem_track_of_selected hpackage hselected hd ?_ (hiff.2 hcounts)⟩
    rw [hname d hd]
    exact (copy_of_origin hwf horigin).1.symm

/-! ## Two packages -/

/-- A text as a package of its own. -/
def CheckedPackage.ofText (text : String) : CheckedPackage := ⟨(checkText text).2, (checkText text).1⟩

/-- The usual options, with a way to match. -/
def Options.matching (mode : GenericMatch) : Options := { Options.default with genericMatch := mode }

/-- What is found to be used in a package, if nothing is left out. -/
def CheckedPackage.used (u : CheckedPackage) (mode : GenericMatch) : UsedSet :=
  track u (collect u .allowAll (.matching mode)) .allowAll (.matching mode)

/-- A method is called on an instance of the interface that declares it. -/
def calledOnInstance : String :=
  "package app

type Repo[T any] interface \x7b
	Get(id string) T
\x7d

func use(r Repo[int]) \x7b
	r.Get(\"a\")
\x7d
"

/-- However instances are matched, the method of `calledOnInstance` is used. -/
theorem instance_call_used :
    (∃ d ∈ (collect (.ofText calledOnInstance) .allowAll (.matching .heuristic)).entries,
      ((CheckedPackage.ofText calledOnInstance).used .heuristic).contains d.method = true) ∧
    ∃ d ∈ (collect (.ofText calledOnInstance) .allowAll (.matching .strict)).entries,
      ((CheckedPackage.ofText calledOnInstance).used .strict).contains d.method = true := by
  have h : (∀ file ∈ (checkText calledOnInstance).1.files, file.tree.FuncNamesApart) ∧
      ∀ mode ∈ [GenericMatch.heuristic, .strict],
        ∃ s ∈ (CheckedPackage.ofText calledOnInstance).selected .allowAll,
        ∃ d ∈ (collect (.ofText calledOnInstance) .allowAll (.matching mode)).entries,
          ((checkText calledOnInstance).2.func s.1).origin = some d.method ∧
          Decision.ofSelection (checkText calledOnInstance).2 mode s.1 d (some s.2) ≠ .rejected := by
    decide +kernel
  obtain ⟨hapart, hcall⟩ := h
  have hused : ∀ mode ∈ [GenericMatch.heuristic, .strict],
      ∃ d ∈ (collect (.ofText calledOnInstance) .allowAll (.matching mode)).entries,
        ((CheckedPackage.ofText calledOnInstance).used mode).contains d.method = true := by
    intro mode hmode
    obtain ⟨s, hs, d, hd, horigin, hmatch⟩ := hcall mode hmode
    obtain ⟨hiff, hused⟩ := (contains_track_of_selected (stage_checkText calledOnInstance) (by simp)
      hapart .allowAll (.matching mode) hs).2 d hd horigin
    exact ⟨d, hd, hused (hiff.1 hmatch)⟩
  exact ⟨hused .heuristic (by simp), hused .strict (by simp)⟩

/-- A method is called on an interface that embeds an instance of the interface which declares it. -/
def calledOnEmbedding : String :=
  "package app

type Repo[T any] interface \x7b
	Get(id string) T
\x7d

type Outer interface \x7b
	Repo[int]
\x7d

func use(o Outer) \x7b
	o.Get(\"a\")
\x7d
"

/-- However instances are matched, a copy of the method of `calledOnEmbedding` is selected, and the method is not found
to be used. -/
theorem embedded_copy_not_used :
    (∃ s ∈ (CheckedPackage.ofText calledOnEmbedding).selected .allowAll,
    ∃ d ∈ (collect (.ofText calledOnEmbedding) .allowAll (.matching .heuristic)).entries,
      ((checkText calledOnEmbedding).2.func s.1).origin = some d.method ∧
      ((CheckedPackage.ofText calledOnEmbedding).used .heuristic).contains d.method = false) ∧
    ∃ s ∈ (CheckedPackage.ofText calledOnEmbedding).selected .allowAll,
    ∃ d ∈ (collect (.ofText calledOnEmbedding) .allowAll (.matching .strict)).entries,
      ((checkText calledOnEmbedding).2.func s.1).origin = some d.method ∧
      ((CheckedPackage.ofText calledOnEmbedding).used .strict).contains d.method = false := by
  decide +kernel

end UnusedMethods.Methods
