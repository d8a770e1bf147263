import Mathlib.Data.List.Nodup
import Mathlib.Data.List.Perm.Subperm
import UnusedMethods.Methods.Usage
import UnusedMethods.Proofs.Bindings
import UnusedMethods.Proofs.Matching

/-!
# What a walk marks as used

The walk looks only at methods that are not known to be used, remembers answers, and ends when as many
methods are used as there are. None of this changes its result: a method is marked if and only if
something that the walk meets justifies it, where `Justifies` says what a use is without the walk.
-/

namespace UnusedMethods.Methods

open Syntax UnusedMethods.Types Typing

/-- All that a walk through the files of a package can meet, in order. -/
def CheckedPackage.walk (u : CheckedPackage) (filter : PathFilter) : List Met :=
  (u.files filter).flatMap fun file => file.1.tree.items.map fun item => (file.2, item)

/-! ## Uses -/

/-- The node is that of a selector which picks the method `called` of a value or type `recv`. -/
def Selects (info : FileInfo) (node : Node) (called : FuncId) (recv : TypeId) : Prop :=
  ∃ sel, info.selection? node.id = some sel ∧ (sel.kind = .methodVal ∨ sel.kind = .methodExpr) ∧
    sel.recv = recv ∧ sel.method = some called

theorem Selects.unique {info : FileInfo} {node : Node} {called called' : FuncId} {recv recv' : TypeId}
    (h : Selects info node called recv) (h' : Selects info node called' recv') :
    called = called' ∧ recv = recv' := by
  obtain ⟨sel, hsel, -, rfl, hmethod⟩ := h
  obtain ⟨sel', hsel', -, rfl, hmethod'⟩ := h'
  simp_all

/-- The expression is a name or a selector that denotes a function of the package `fmt`. -/
def IsFmtFunction (t : Table) (info : FileInfo) (func : Expr) : Prop :=
  ((∃ node name, func = .ident node name) ∨ ∃ node operand field, func = .selector node operand field) ∧
    ∃ f, info.use? func.id = some (.func f) ∧ (t.func f).package = some "fmt"

/-- The item, met after `before` in a file of which `info` is known, makes the method of `d` used. -/
inductive Justifies (s : Search) (before : List Met) (info : FileInfo) (d : MethodDeclaration) : Item → Prop
  /-- A selected method of that name matches the declaration. -/
  | selected {node operand field called recv} (hsel : Selects info node called recv)
      (hname : d.name = (s.table.func called).name)
      (hmatch : Decision.ofSelection s.table s.mode called d (some recv) ≠ .rejected) :
      Justifies s before info d (.expr (.selector node operand field))
  /-- A method of that name and signature is selected from a variable that copies one of the
  interface. -/
  | copied {node inner var field called recv} (hsel : Selects info node called recv)
      (hname : d.name = (s.table.func called).name)
      (hsig : s.table.identical (s.table.func d.method).sig (s.table.func called).sig = true)
      (hcopy : LastCopy s.table before var d.interfaceName) :
      Justifies s before info d (.expr (.selector node (.ident inner var) field))
  /-- A method of that name and signature is selected from a variable that points to a type which
  satisfies the interface. -/
  | pointed {node inner var field called recv target id} (hsel : Selects info node called recv)
      (hname : d.name = (s.table.func called).name)
      (hsig : s.table.identical (s.table.func d.method).sig (s.table.func called).sig = true)
      (hpoints : PointsTo s.table before var target)
      (hid : id ∈ declaredTypesNamed s.table s.unit.package target)
      (hsat : s.table.satisfies id d.interface = true) :
      Justifies s before info d (.expr (.selector node (.ident inner var) field))
  /-- The method is `String() string`, no other is registered under the name of its interface, and
  something that implements the interface is passed to a function of `fmt`. -/
  | formatted {node func typeArgs args spread arg id} (hfunc : IsFmtFunction s.table info func)
      (harg : arg ∈ args) (htype : info.type? arg.id = some id)
      (himpl : s.table.implements id d.interface = true) (hname : d.name = "String")
      (hsig : s.table.isStringerSignature (s.table.func d.method).sig = true)
      (hsole : ∀ e ∈ s.registry.entries, e.interfaceName = d.interfaceName → e = d) :
      Justifies s before info d (.expr (.call node func typeArgs args spread))

/-- Something met on a walk makes the method of `d` used. -/
def Justified (s : Search) (before : List Met) (d : MethodDeclaration) : Prop :=
  ∃ earlier info item later, before = earlier ++ (info, item) :: later ∧ Justifies s earlier info d item

theorem justified_concat_iff (s : Search) (before : List Met) (info : FileInfo) (item : Item)
    (d : MethodDeclaration) :
    Justified s (before ++ [(info, item)]) d ↔ Justified s before d ∨ Justifies s before info d item := by
  constructor
  · rintro ⟨earlier, info', item', later, heq, h⟩
    rcases List.eq_nil_or_concat later with rfl | ⟨later, e, rfl⟩
    · obtain ⟨rfl, hlast⟩ := List.append_singleton_inj.1 heq
      cases hlast
      exact .inr h
    · rw [List.concat_eq_append, ← List.cons_append, ← List.append_assoc] at heq
      obtain ⟨rfl, -⟩ := List.append_singleton_inj.1 heq
      exact .inl ⟨earlier, info', item', later, rfl, h⟩
  · rintro (⟨earlier, info', item', later, rfl, h⟩ | h)
    · exact ⟨earlier, info', item', later ++ [(info, item)], by simp, h⟩
    · exact ⟨before, info, item, [], rfl, h⟩

/-! ## Marking -/

namespace Progress

variable {t : Table}

theorem bindings_mark (p : Progress t) (ds : List MethodDeclaration)
    (test : MethodDeclaration → Remembering t Bool) : (p.mark ds test).bindings = p.bindings := by
  unfold mark
  induction ds generalizing p with
  | nil => rfl
  | cons d ds ih =>
    rw [List.foldl_cons, ih]
    rfl

theorem mem_used_mark_iff (p : Progress t) (ds : List MethodDeclaration)
    {test : MethodDeclaration → Remembering t Bool} {passes : MethodDeclaration → Bool}
    (htest : ∀ d, (test d).Gives (passes d)) (m : FuncId) :
    m ∈ (p.mark ds test).used.methods ↔
      m ∈ p.used.methods ∨ ∃ d ∈ ds, d.method = m ∧ passes d = true := by
  unfold mark
  induction ds generalizing p with
  | nil => simp
  | cons d ds ih =>
    have hone : m ∈ (markOne test p d).used.methods ↔
        m ∈ p.used.methods ∨ (d.method = m ∧ passes d = true) := by
      have hused : (markOne test p d).used = if passes d then p.used.insert d.method else p.used := by
        rw [← htest d p.memo]
        rfl
      rw [hused]
      split
      · rename_i hpass
        rw [UsedSet.mem_insert, eq_comm, hpass]
        simp
      · rename_i hfail
        simp [hfail]
    rw [List.foldl_cons, ih, hone, or_assoc]
    simp only [List.mem_cons, or_and_right, exists_or, exists_eq_left]

end Progress

namespace Search

variable {s : Search} {p p' p'' : Progress s.table} {P Q : MethodDeclaration → Prop}

variable {d : MethodDeclaration} {info : FileInfo} {node : Node}

/-- From `p` to `p'` exactly the registered methods are marked whose declarations have the property. -/
structure Marks (s : Search) (p p' : Progress s.table) (P : MethodDeclaration → Prop) : Prop where
  bindings : p'.bindings = p.bindings
  used : ∀ m, m ∈ p'.used.methods ↔
    m ∈ p.used.methods ∨ ∃ d ∈ s.registry.entries, d.method = m ∧ P d

namespace Marks

theorem of_none (h : ∀ d ∈ s.registry.entries, ¬ P d) : Marks s p p P where
  bindings := rfl
  used m := by
    constructor
    · exact .inl
    · rintro (hm | ⟨d, hd, -, hP⟩)
      · exact hm
      · exact absurd hP (h d hd)

theorem trans (h : Marks s p p' P) (h' : Marks s p' p'' Q) : Marks s p p'' fun d => P d ∨ Q d where
  bindings := h'.bindings.trans h.bindings
  used m := by
    rw [h'.used, h.used, or_assoc]
    simp only [and_or_left, exists_or]

theorem congr (h : Marks s p p' P) (hPQ : ∀ d ∈ s.registry.entries, P d ↔ Q d) : Marks s p p' Q where
  bindings := h.bindings
  used m := by
    have hex : (∃ d ∈ s.registry.entries, d.method = m ∧ P d) ↔
        ∃ d ∈ s.registry.entries, d.method = m ∧ Q d :=
      exists_congr fun d => and_congr_right fun hd => and_congr_right fun _ => hPQ d hd
    rw [h.used, hex]

theorem of_unused {name : String} {keep : MethodDeclaration → Bool} (hbindings : p'.bindings = p.bindings)
    (hused : ∀ m, m ∈ p'.used.methods ↔
      m ∈ p.used.methods ∨ ∃ d ∈ (s.unused p name).filter keep, d.method = m ∧ P d) :
    Marks s p p' fun d => d.name = name ∧ keep d = true ∧ P d where
  bindings := hbindings
  used m := by
    rw [hused]
    constructor
    · rintro (hm | ⟨d, hd, hdm, hP⟩)
      · exact .inl hm
      · simp only [unused, Registry.candidates, List.mem_filter, decide_eq_true_eq] at hd
        exact .inr ⟨d, hd.1.1.1, hdm, hd.1.1.2, hd.2, hP⟩
    · rintro (hm | ⟨d, hd, rfl, hname, hkeep, hP⟩)
      · exact .inl hm
      · by_cases hmarked : d.method ∈ p.used.methods
        · exact .inl hmarked
        · refine .inr ⟨d, ?_, rfl, hP⟩
          simp only [unused, Registry.candidates, List.mem_filter, decide_eq_true_eq]
          exact ⟨⟨⟨hd, hname⟩, by simp [UsedSet.contains, hmarked]⟩, hkeep⟩

theorem mark_unused (p : Progress s.table) (name : String)
    {test : MethodDeclaration → Remembering s.table Bool} {passes : MethodDeclaration → Bool}
    (htest : ∀ d, (test d).Gives (passes d)) :
    Marks s p (p.mark (s.unused p name) test) fun d => d.name = name ∧ passes d = true := by
  have hmarks : Marks s p (p.mark (s.unused p name) test) fun d =>
      d.name = name ∧ (fun _ => true) d = true ∧ passes d = true := by
    refine of_unused (p.bindings_mark _ _) fun m => ?_
    rw [p.mem_used_mark_iff _ htest, List.filter_true]
  exact hmarks.congr fun d _ => by simp only [true_and]

end Marks

/-! ## The end of the walk -/

/-- Only registered methods are marked. -/
def Registered (s : Search) (p : Progress s.table) : Prop :=
  ∀ m ∈ p.used.methods, ∃ d ∈ s.registry.entries, d.method = m

/-- If as many methods are marked as are registered, all of them are. Here it matters that only
registered methods are marked, and each once. -/
theorem Registered.mem_of_allUsed (h : s.Registered p) (hall : s.allUsed p = true) (hd : d ∈ s.registry.entries) :
    d.method ∈ p.used.methods := by
  have hsub : p.used.methods ⊆ s.registry.entries.map (·.method) := by
    intro m hm
    obtain ⟨d, hd, rfl⟩ := h m hm
    exact List.mem_map_of_mem hd
  have hlen : (s.registry.entries.map (·.method)).length ≤ p.used.methods.length := by
    rw [List.length_map]
    exact Nat.le_of_eq (beq_iff_eq.1 hall).symm
  have hperm := (List.subperm_of_subset p.used.nodup hsub).perm_of_length_le hlen
  exact hperm.mem_iff.2 (List.mem_map_of_mem hd)

theorem Registered.marks_of_allUsed (h : s.Registered p) (hall : s.allUsed p = true) :
    Marks s p p P where
  bindings := rfl
  used m := by
    constructor
    · exact .inl
    · rintro (hm | ⟨d, hd, rfl, -⟩)
      · exact hm
      · exact h.mem_of_allUsed hall hd

/-! ## Selected methods -/

/-- The bindings say that the variable copies one of the interface of a declaration. -/
def BoundByCopy (b : Bindings) (var : String) (d : MethodDeclaration) : Prop :=
  b.copied? var = some d.interfaceName

/-- The bindings say that the variable points to a type which satisfies the interface of a
declaration. -/
def BoundByAddress (s : Search) (b : Bindings) (var : String) (d : MethodDeclaration) : Prop :=
  ∃ target ∈ b.pointeesOf var, ∃ id ∈ declaredTypesNamed s.table s.unit.package target,
    s.table.satisfies id d.interface = true

theorem copiedVariable_marks (p : Progress s.table) (var : String) (called : FuncId) :
    Marks s p (s.copiedVariable p var called) fun d => d.name = (s.table.func called).name ∧
      s.sameSignature called d = true ∧ BoundByCopy p.bindings var d := by
  unfold copiedVariable BoundByCopy
  cases hsource : p.bindings.copied? var with
  | none =>
    refine .of_none ?_
    rintro d - ⟨-, -, h⟩
    cases h
  | some source =>
    have htest : ∀ d : MethodDeclaration, Remembering.Gives (t := s.table)
        (return d.interfaceName = source && s.sameSignature called d)
        (d.interfaceName = source && s.sameSignature called d) := fun d => .pure _
    refine (Marks.mark_unused p (s.table.func called).name htest).congr fun d _ => ?_
    simp only [Bool.and_eq_true, decide_eq_true_eq, Option.some.injEq]
    rw [and_comm (a := d.interfaceName = source), eq_comm (a := source)]

theorem any_pointedTypes_iff (s : Search) (b : Bindings) (var : String) (d : MethodDeclaration) :
    ((s.pointedTypes b var).any fun id => s.table.satisfies id d.interface) = true ↔
      s.BoundByAddress b var d := by
  simp only [List.any_eq_true, pointedTypes, List.mem_flatMap, BoundByAddress]
  constructor
  · rintro ⟨id, ⟨target, htarget, hid⟩, hsat⟩
    exact ⟨target, htarget, id, hid, hsat⟩
  · rintro ⟨target, htarget, id, hid, hsat⟩
    exact ⟨id, ⟨target, htarget, hid⟩, hsat⟩

theorem pointingVariable_marks (p : Progress s.table) (var : String) (called : FuncId) :
    Marks s p (s.pointingVariable p var called) fun d => d.name = (s.table.func called).name ∧
      s.sameSignature called d = true ∧ s.BoundByAddress p.bindings var d := by
  unfold pointingVariable
  split
  · rename_i hempty
    refine .of_none ?_
    rintro d - ⟨-, -, target, htarget, -⟩
    rw [List.isEmpty_iff.1 hempty] at htarget
    cases htarget
  · have htest : ∀ d, Remembering.Gives (t := s.table)
        (if s.sameSignature called d then
          (s.pointedTypes p.bindings var).anyM fun id => Memo.satisfies id d.interface
        else return false)
        (s.sameSignature called d &&
          (s.pointedTypes p.bindings var).any fun id => s.table.satisfies id d.interface) := by
      intro d
      cases s.sameSignature called d with
      | false => exact .pure false
      | true => exact .anyM (fun id => Memo.satisfies_gives id d.interface) _
    refine (Marks.mark_unused p (s.table.func called).name htest).congr fun d _ => ?_
    rw [Bool.and_eq_true, any_pointedTypes_iff]

/-- What a selected method marks: the declarations that match it, and those to which the variable is
bound from which it is selected. -/
theorem selection_marks (h : s.Registered p) (operand : Expr) (called : FuncId) (recv : TypeId) :
    Marks s p (s.selection p operand called recv) fun d => d.name = (s.table.func called).name ∧
      (Decision.ofSelection s.table s.mode called d (some recv) ≠ .rejected ∨
        ∃ inner var, operand = .ident inner var ∧ s.sameSignature called d = true ∧
          (BoundByCopy p.bindings var d ∨ s.BoundByAddress p.bindings var d)) := by
  unfold selection
  split
  · rename_i hall
    exact h.marks_of_allUsed hall
  · have htest : ∀ d, Remembering.Gives
        (do return (← Decision.resolve s.table s.mode called d (some recv)).isMatch)
        (Decision.ofSelection s.table s.mode called d (some recv)).isMatch :=
      fun d => (Decision.resolve_gives s.table s.mode called d (some recv)).bind (.pure _)
    have hmatch := Marks.mark_unused p (s.table.func called).name htest
    dsimp only
    generalize p.mark (s.unused p (s.table.func called).name) _ = q at hmatch ⊢
    split
    · rename_i inner var
      have hcopy := copiedVariable_marks q var called
      have haddr := pointingVariable_marks (s.copiedVariable q var called) var called
      rw [hcopy.bindings] at haddr
      rw [hmatch.bindings] at hcopy haddr
      refine ((hmatch.trans hcopy).trans haddr).congr fun d _ => ?_
      simp only [Decision.isMatch_iff, Expr.ident.injEq]
      constructor
      · rintro ((⟨hname, h⟩ | ⟨hname, hsig, h⟩) | ⟨hname, hsig, h⟩)
        · exact ⟨hname, .inl h⟩
        · exact ⟨hname, .inr ⟨inner, var, ⟨rfl, rfl⟩, hsig, .inl h⟩⟩
        · exact ⟨hname, .inr ⟨inner, var, ⟨rfl, rfl⟩, hsig, .inr h⟩⟩
      · rintro ⟨hname, h | ⟨_, _, ⟨rfl, rfl⟩, hsig, h | h⟩⟩
        · exact .inl (.inl ⟨hname, h⟩)
        · exact .inl (.inr ⟨hname, hsig, h⟩)
        · exact .inr ⟨hname, hsig, h⟩
    · rename_i hident
      refine hmatch.congr fun d _ => ?_
      simp only [Decision.isMatch_iff]
      constructor
      · rintro ⟨hname, h⟩
        exact ⟨hname, .inl h⟩
      · rintro ⟨hname, h | ⟨inner, var, heq, -⟩⟩
        · exact ⟨hname, h⟩
        · exact absurd heq (hident inner var)

/-! ## Calls -/

theorem isFormattingFunction_iff (s : Search) (obj : Object) :
    s.isFormattingFunction obj = true ↔ ∃ f, obj = .func f ∧ (s.table.func f).package = some "fmt" := by
  cases obj with
  | func f =>
    rw [isFormattingFunction, decide_eq_true_eq, formattingPackage]
    simp
  | _ => simp [isFormattingFunction]

theorem isFormatter_iff (s : Search) (info : FileInfo) (func : Expr) :
    s.isFormatter info func = true ↔ IsFmtFunction s.table info func := by
  have huse : ∀ use : Option Object, use.any s.isFormattingFunction = true ↔
      ∃ f, use = some (.func f) ∧ (s.table.func f).package = some "fmt" := by
    intro use
    cases use with
    | none => simp
    | some obj => simpa using s.isFormattingFunction_iff obj
  cases func with
  | ident node name => simp [isFormatter, IsFmtFunction, huse, Expr.id, Expr.node]
  | selector node operand field => simp [isFormatter, IsFmtFunction, huse, Expr.id, Expr.node]
  | _ => simp [isFormatter, IsFmtFunction]

theorem declaredBy_eq_one_iff (r : Registry) (hd : d ∈ r.entries) :
    r.declaredBy d.interfaceName = 1 ↔ ∀ e ∈ r.entries, e.interfaceName = d.interfaceName → e = d := by
  have hmem : d ∈ r.entries.filter (·.interfaceName = d.interfaceName) := by simp [hd]
  have hnodup : (r.entries.filter (·.interfaceName = d.interfaceName)).Nodup :=
    (List.Nodup.of_map _ r.distinct).filter _
  rw [Registry.declaredBy, List.countP_eq_length_filter, List.length_eq_one_iff]
  constructor
  · rintro ⟨x, hx⟩ e he hname
    have he' : e ∈ r.entries.filter (·.interfaceName = d.interfaceName) := by simp [he, hname]
    rw [hx, List.mem_singleton] at hmem he'
    rw [he', hmem]
  · intro h
    have hall : ∀ e ∈ r.entries.filter (·.interfaceName = d.interfaceName), e = d := by
      intro e he
      simp only [List.mem_filter, decide_eq_true_eq] at he
      exact h e he.1 he.2
    -- a list without repetitions whose elements are all the same has one element
    generalize r.entries.filter (·.interfaceName = d.interfaceName) = l at hmem hnodup hall
    match l with
    | [] => cases hmem
    | [x] => exact ⟨x, rfl⟩
    | x :: y :: _ =>
      have hxy : x = y := (hall x (by simp)).trans (hall y (by simp)).symm
      simp [hxy] at hnodup

theorem isSoleStringer_iff (hd : d ∈ s.registry.entries) : s.isSoleStringer d = true ↔ d.name = "String" ∧
      s.table.isStringerSignature (s.table.func d.method).sig = true ∧
      ∀ e ∈ s.registry.entries, e.interfaceName = d.interfaceName → e = d := by
  rw [isSoleStringer, Bool.and_eq_true, Bool.and_eq_true, decide_eq_true_eq, decide_eq_true_eq,
    declaredBy_eq_one_iff _ hd, and_assoc]

theorem mem_used_foldl_mark_iff (ds : List MethodDeclaration) (types : List TypeId) (p : Progress s.table)
    (m : FuncId) :
    m ∈ (types.foldl (fun p id => p.mark ds fun d => Memo.implements id d.interface) p).used.methods ↔
      m ∈ p.used.methods ∨
        ∃ d ∈ ds, d.method = m ∧ ∃ id ∈ types, s.table.implements id d.interface = true := by
  induction types generalizing p with
  | nil => simp
  | cons id types ih =>
    rw [List.foldl_cons, ih, p.mem_used_mark_iff ds fun d => Memo.implements_gives id d.interface, or_assoc]
    simp only [List.mem_cons, or_and_right, exists_or, exists_eq_left, and_or_left]

theorem bindings_foldl_mark (ds : List MethodDeclaration) (types : List TypeId) (p : Progress s.table) :
    (types.foldl (fun p id => p.mark ds fun d => Memo.implements id d.interface) p).bindings =
      p.bindings := by
  induction types generalizing p with
  | nil => rfl
  | cons id types ih => rw [List.foldl_cons, ih, p.bindings_mark]

/-- What a call marks: the sole `String` methods of the interfaces that an argument implements, if the
function is one that formats. -/
theorem call_marks (p : Progress s.table) (info : FileInfo) (func : Expr) (args : List Expr) :
    Marks s p (s.call info p func args) fun d => IsFmtFunction s.table info func ∧
      (∃ arg ∈ args, ∃ id, info.type? arg.id = some id ∧ s.table.implements id d.interface = true) ∧
      d.name = "String" ∧ s.table.isStringerSignature (s.table.func d.method).sig = true ∧
      ∀ e ∈ s.registry.entries, e.interfaceName = d.interfaceName → e = d := by
  unfold call
  split
  · rename_i hfmt
    rw [isFormatter_iff] at hfmt
    have hmarks := Marks.of_unused (bindings_foldl_mark _ _ p)
      (mem_used_foldl_mark_iff ((s.unused p "String").filter s.isSoleStringer)
        (args.filterMap fun a => info.type? a.id) p)
    refine hmarks.congr fun d hd => ?_
    rw [isSoleStringer_iff hd]
    simp only [List.mem_filterMap]
    constructor
    · rintro ⟨-, hsole, id, ⟨arg, harg, htype⟩, himpl⟩
      exact ⟨hfmt, ⟨arg, harg, id, htype, himpl⟩, hsole⟩
    · rintro ⟨-, ⟨arg, harg, id, htype, himpl⟩, hsole⟩
      exact ⟨hsole.1, hsole, id, ⟨arg, harg, htype⟩, himpl⟩
  · rename_i hfmt
    rw [isFormatter_iff] at hfmt
    exact .of_none fun d _ h => hfmt h.1

/-! ## The walk -/

theorem visit_of_selects {called : FuncId} {recv : TypeId} (h : Selects info node called recv) (p : Progress s.table)
    (operand : Expr) (field : Ident) :
    s.visit info p (.expr (.selector node operand field)) = s.selection p operand called recv := by
  obtain ⟨⟨kind, recv', method, type⟩, hsel, hkind, rfl, hmethod⟩ := h
  dsimp only at hkind hmethod
  subst hmethod
  rcases hkind with rfl | rfl <;> simp [visit, hsel]

theorem visit_of_not_selects (h : ∀ called recv, ¬ Selects info node called recv) (p : Progress s.table) (operand : Expr)
    (field : Ident) : s.visit info p (.expr (.selector node operand field)) = p := by
  dsimp only [visit]
  split
  · rename_i recv called type hsel
    exact absurd ⟨_, hsel, .inl rfl, rfl, rfl⟩ (h called recv)
  · rename_i recv called type hsel
    exact absurd ⟨_, hsel, .inr rfl, rfl, rfl⟩ (h called recv)
  · rfl

/-- How a selector makes a method used, said with the bindings that the walk has made. -/
theorem justifies_selector_iff {before : List Met} {called : FuncId} {recv : TypeId} (h : Selects info node called recv)
    (operand : Expr) (field : Ident) (d : MethodDeclaration) :
    Justifies s before info d (.expr (.selector node operand field)) ↔
      d.name = (s.table.func called).name ∧
        (Decision.ofSelection s.table s.mode called d (some recv) ≠ .rejected ∨
          ∃ inner var, operand = .ident inner var ∧ s.sameSignature called d = true ∧
            (BoundByCopy (bindingsAfter s.table before) var d ∨
              s.BoundByAddress (bindingsAfter s.table before) var d)) := by
  simp only [BoundByCopy, BoundByAddress, copied?_bindingsAfter_iff, mem_pointeesOf_bindingsAfter_iff]
  constructor
  · intro hj
    cases hj with
    | selected hsel hname hmatch =>
      obtain ⟨rfl, rfl⟩ := h.unique hsel
      exact ⟨hname, .inl hmatch⟩
    | copied hsel hname hsig hcopy =>
      obtain ⟨rfl, rfl⟩ := h.unique hsel
      exact ⟨hname, .inr ⟨_, _, rfl, hsig, .inl hcopy⟩⟩
    | pointed hsel hname hsig hpoints hid hsat =>
      obtain ⟨rfl, rfl⟩ := h.unique hsel
      exact ⟨hname, .inr ⟨_, _, rfl, hsig, .inr ⟨_, hpoints, _, hid, hsat⟩⟩⟩
  · rintro ⟨hname, hmatch | ⟨inner, var, rfl, hsig, hcopy | ⟨target, hpoints, id, hid, hsat⟩⟩⟩
    · exact .selected h hname hmatch
    · exact .copied h hname hsig hcopy
    · exact .pointed h hname hsig hpoints hid hsat

theorem justifies_call_iff (before : List Met) (info : FileInfo) (node : Node) (func : Expr)
    (typeArgs : List TypeExpr) (args : List Expr) (spread : Bool) (d : MethodDeclaration) :
    Justifies s before info d (.expr (.call node func typeArgs args spread)) ↔
      IsFmtFunction s.table info func ∧
      (∃ arg ∈ args, ∃ id, info.type? arg.id = some id ∧ s.table.implements id d.interface = true) ∧
      d.name = "String" ∧ s.table.isStringerSignature (s.table.func d.method).sig = true ∧
      ∀ e ∈ s.registry.entries, e.interfaceName = d.interfaceName → e = d := by
  constructor
  · intro hj
    cases hj with
    | formatted hfunc harg htype himpl hname hsig hsole =>
      exact ⟨hfunc, ⟨_, harg, _, htype, himpl⟩, hname, hsig, hsole⟩
  · rintro ⟨hfunc, ⟨arg, harg, id, htype, himpl⟩, hname, hsig, hsole⟩
    exact .formatted hfunc harg htype himpl hname hsig hsole

/-- The walk has met `before`: it has marked the methods that this justifies, and made its bindings. -/
structure Tracks (s : Search) (before : List Met) (p : Progress s.table) : Prop where
  bindings : p.bindings = bindingsAfter s.table before
  used : ∀ m, m ∈ p.used.methods ↔ ∃ d ∈ s.registry.entries, d.method = m ∧ Justified s before d

namespace Tracks

variable {before : List Met}

theorem start (s : Search) : Tracks s [] (.start s.table) where
  bindings := rfl
  used m := by
    constructor
    · intro hm
      cases hm
    · rintro ⟨d, -, -, earlier, info, item, later, heq, -⟩
      simp at heq

theorem registered (h : Tracks s before p) : s.Registered p := by
  intro m hm
  obtain ⟨d, hd, hdm, -⟩ := (h.used m).1 hm
  exact ⟨d, hd, hdm⟩

/-- Nothing that is met makes the walk fall behind, if it marks what that justifies. -/
theorem of_marks (h : Tracks s before p) {info : FileInfo} {e : Expr}
    (hmarks : Marks s p p' fun d => Justifies s before info d (.expr e)) :
    Tracks s (before ++ [(info, .expr e)]) p' where
  bindings := by
    rw [hmarks.bindings, h.bindings, bindingsAfter_concat]
    rfl
  used m := by
    rw [hmarks.used, h.used]
    simp only [justified_concat_iff, and_or_left, exists_or]

theorem visit (h : Tracks s before p) (info : FileInfo) (item : Item) :
    Tracks s (before ++ [(info, item)]) (s.visit info p item) := by
  cases item with
  | varSpec spec =>
    refine ⟨?_, fun m => ?_⟩
    · rw [bindingsAfter_concat, ← h.bindings]
      rfl
    · have hnone : ∀ d, ¬ Justifies s before info d (.varSpec spec) := by
        rintro d ⟨⟩
      simp only [justified_concat_iff, hnone, or_false]
      exact h.used m
  | expr e =>
    refine h.of_marks ?_
    cases e with
    | selector node operand field =>
      by_cases hsel : ∃ called recv, Selects info node called recv
      · obtain ⟨called, recv, hsel⟩ := hsel
        rw [visit_of_selects hsel]
        refine (selection_marks h.registered operand called recv).congr fun d _ => ?_
        rw [justifies_selector_iff hsel, h.bindings]
      · have hno : ∀ called recv, ¬ Selects info node called recv := fun called recv hs => hsel ⟨called, recv, hs⟩
        rw [visit_of_not_selects hno]
        refine .of_none ?_
        rintro d - hj
        cases hj with
        | selected hs => exact hno _ _ hs
        | copied hs => exact hno _ _ hs
        | pointed hs => exact hno _ _ hs
    | call node func typeArgs args spread =>
      exact (call_marks p info func args).congr fun d _ => (justifies_call_iff ..).symm
    | _ => exact .of_none fun d _ hj => nomatch hj

theorem visitItems (h : Tracks s before p) (info : FileInfo) (items : List Item) :
    Tracks s (before ++ items.map fun item => (info, item)) (items.foldl (s.visit info) p) := by
  induction items generalizing before p with
  | nil => simpa using h
  | cons item items ih => simpa using ih (h.visit info item)

/-- A walk that has marked all methods need not go on. -/
theorem used_of_allUsed (h : Tracks s before p) (hall : s.allUsed p = true) (after : List Met) (m : FuncId) :
    m ∈ p.used.methods ↔ ∃ d ∈ s.registry.entries, d.method = m ∧ Justified s (before ++ after) d := by
  constructor
  · intro hm
    obtain ⟨d, hd, hdm, earlier, info, item, later, rfl, hj⟩ := (h.used m).1 hm
    exact ⟨d, hd, hdm, earlier, info, item, later ++ after, by simp, hj⟩
  · rintro ⟨d, hd, rfl, -⟩
    exact h.registered.mem_of_allUsed hall hd

/-- The whole walk marks what it would mark if it met everything. -/
theorem visitFiles (h : Tracks s before p) (files : List (File × FileInfo)) (m : FuncId) :
    m ∈ (s.visitFiles p files).used.methods ↔ ∃ d ∈ s.registry.entries, d.method = m ∧
      Justified s (before ++ files.flatMap fun file => file.1.tree.items.map fun item => (file.2, item)) d := by
  induction files generalizing before p with
  | nil =>
    rw [List.flatMap_nil, List.append_nil]
    exact h.used m
  | cons file files ih =>
    unfold Search.visitFiles
    split
    · rename_i hall
      exact h.used_of_allUsed hall _ m
    · rw [List.flatMap_cons, ← List.append_assoc]
      exact ih (h.visitItems file.2 file.1.tree.items)

end Tracks

end Search

theorem mem_methods_track_iff (u : CheckedPackage) (registry : Registry) (filter : PathFilter)
    (options : Options) (m : FuncId) :
    m ∈ (track u registry filter options).methods ↔
      ∃ d ∈ registry.entries, d.method = m ∧
        Justified ⟨u, registry, options.genericMatch⟩ (u.walk filter) d :=
  (Search.Tracks.start ⟨u, registry, options.genericMatch⟩).visitFiles (u.files filter) m

/-- A method is used if and only if it is registered and something that the walk through the files
meets justifies it, with the bindings of what was met before. -/
theorem contains_track_iff (u : CheckedPackage) (registry : Registry) (filter : PathFilter)
    (options : Options) (m : FuncId) :
    (track u registry filter options).contains m = true ↔
      ∃ d ∈ registry.entries, d.method = m ∧ ∃ before info item after,
        u.walk filter = before ++ (info, item) :: after ∧
        Justifies ⟨u, registry, options.genericMatch⟩ before info d item := by
  rw [UsedSet.contains, List.contains_iff_mem, mem_methods_track_iff]
  rfl

end UnusedMethods.Methods
