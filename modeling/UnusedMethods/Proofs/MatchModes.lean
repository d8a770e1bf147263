import UnusedMethods.Proofs.CalledMethods

/-!
# The two ways to match instances

A copy of a method, made for an instance of a generic interface, is matched with the declared method by the name of
the generic type of which the receiver is an instance, or by the declaration that the copy was made from. All other
tests are the same. So the two ways differ only about receivers that are instances of a generic type.

Matching by declaration finds a method that matching by name misses if a copy of it is picked from an instance of
a generic type with another name. A generic interface that embeds an instance of another one has such copies.
-/

namespace UnusedMethods.Methods

open Syntax UnusedMethods.Types Typing

variable {t : Table} {called : FuncId} {d : MethodDeclaration} {recv : TypeId} {u : CheckedPackage} {registry : Registry}

/-! ## Decisions -/

/-- The picked method is a copy of that of `d`, and the receiver is an instance of a generic type that is not called
like the interface of `d`. -/
structure CopyFromOtherType (t : Table) (called : FuncId) (recv : TypeId) (d : MethodDeclaration) : Prop where
  generic : d.generic = true
  copy : (t.func called).origin = some d.method
  name : (t.func called).name = (t.func d.method).name
  recv : ∃ inst origin, t.named? recv = some inst ∧ inst.origin = some origin ∧ origin ≠ recv ∧
    ∀ other, t.named? origin = some other → other.name ≠ d.interfaceName

/-- Where a copy is matched by declaration it is matched by name, or the names differ. -/
theorem isOrigin_strict (hname : sameName t called d = true) (h : isOrigin t .strict called d recv = true) :
    isOrigin t .heuristic called d recv = true ∨ CopyFromOtherType t called recv d := by
  unfold isOrigin at h ⊢
  cases hnamed : t.named? recv with
  | none => simp [hnamed] at h
  | some inst =>
    cases horigin : inst.origin with
    | none => simp [hnamed, horigin] at h
    | some origin =>
      simp only [hnamed, horigin, Option.bind_some, Bool.and_eq_true, bne_iff_ne, ne_eq, decide_eq_true_eq] at h ⊢
      obtain ⟨⟨hne, hgeneric⟩, hcopy⟩ := h
      by_cases hother : (t.named? origin).any (·.name = d.interfaceName) = true
      · exact .inl ⟨⟨hne, hgeneric⟩, hother⟩
      · refine .inr ⟨hgeneric, hcopy, by simpa [sameName] using hname, inst, origin, hnamed, horigin, hne, ?_⟩
        intro other hget hsame
        simp [hget, hsame] at hother

theorem CopyFromOtherType.isOrigin (h : CopyFromOtherType t called recv d) :
    t.isInvalid recv = false ∧ isOrigin t .strict called d recv = true := by
  obtain ⟨inst, origin, hnamed, horigin, hne, -⟩ := h.recv
  constructor
  · simp [Table.isInvalid, Expansion.named?_eq_some hnamed]
  · simp [Methods.isOrigin, hnamed, horigin, hne, h.generic, h.copy]

/-- A selection that counts by declaration counts by name, or picks a copy from a type of another name. -/
theorem ofSelection_strict (h : Decision.ofSelection t .strict called d (some recv) ≠ .rejected) :
    Decision.ofSelection t .heuristic called d (some recv) ≠ .rejected ∨ CopyFromOtherType t called recv d := by
  rw [Decision.ofSelection_eq] at h ⊢
  unfold Decision.ofReceiver? at h ⊢
  cases hknown : (some recv).filter fun r => !t.isInvalid r with
  | none =>
    rw [hknown] at h
    exact .inl h
  | some recv' =>
    rw [hknown] at h
    obtain rfl : recv = recv' := by
      have hmem := Option.eq_some_of_filter_eq_some hknown
      exact Option.some.inj hmem
    unfold Decision.ofReceiver at h ⊢
    dsimp only at h ⊢
    by_cases hself : called = d.method
    · simp [hself]
    · by_cases hname : sameName t called d = true
      · by_cases hstrict : isOrigin t .strict called d recv = true
        · rcases isOrigin_strict hname hstrict with hheuristic | hother
          · simp [hself, hname, hheuristic]
          · exact .inr hother
        · -- the tests that remain are the same
          refine .inl ?_
          rw [if_neg hself, hname, if_neg (by simp), if_neg hstrict] at h
          rw [if_neg hself, hname, if_neg (by simp)]
          split
          · simp
          · exact h
      · simp [hself, hname] at h

/-- Picking a copy from a type of another name counts by declaration. -/
theorem CopyFromOtherType.ofSelection_ne_rejected (h : CopyFromOtherType t called recv d) :
    Decision.ofSelection t .strict called d (some recv) ≠ .rejected := by
  obtain ⟨hvalid, horigin⟩ := h.isOrigin
  have hname : sameName t called d = true := by simpa [sameName] using h.name
  have hknown : ((some recv).filter fun r => !t.isInvalid r) = some recv := by simp [Option.filter, hvalid]
  rw [Decision.ofSelection_eq, Decision.ofReceiver?, hknown]
  by_cases hself : called = d.method
  · simp [Decision.ofReceiver, hself]
  · simp [Decision.ofReceiver, hself, hname, horigin]

/-! ## Methods that are found -/

/-- Some selector in the files of a package picks a copy of the registered method `m` from a type of another name. -/
def PickedFromOtherType (u : CheckedPackage) (registry : Registry) (filter : PathFilter) (m : FuncId) : Prop :=
  ∃ d ∈ registry.entries, d.method = m ∧ ∃ info node operand field called recv,
    (info, .expr (.selector node operand field)) ∈ u.walk filter ∧ Selects info node called recv ∧
    d.name = (u.table.func called).name ∧ CopyFromOtherType u.table called recv d

/-- What is met justifies by name what it justifies by declaration, except where it picks a copy from a type of
another name. Only the first kind of justification depends on the way to match. -/
theorem Justifies.heuristic {before : List Met} {info : FileInfo} {item : Item}
    (h : Justifies ⟨u, registry, .strict⟩ before info d item) : Justifies ⟨u, registry, .heuristic⟩ before info d item ∨
      ∃ node operand field called recv, item = .expr (.selector node operand field) ∧ Selects info node called recv ∧
        d.name = (u.table.func called).name ∧ CopyFromOtherType u.table called recv d := by
  cases h with
  | selected hsel hname hmatch =>
    rcases ofSelection_strict hmatch with hmatch' | hother
    · exact .inl (.selected hsel hname hmatch')
    · exact .inr ⟨_, _, _, _, _, rfl, hsel, hname, hother⟩
  | copied hsel hname hsig hcopy => exact .inl (.copied hsel hname hsig hcopy)
  | pointed hsel hname hsig hpoints hid hsat => exact .inl (.pointed hsel hname hsig hpoints hid hsat)
  | formatted hfunc harg htype himpl hname hsig hsole =>
    exact .inl (.formatted hfunc harg htype himpl hname hsig hsole)

/-- A method that is found by declaration is found by name, or a copy of it is picked from a type of another name. -/
theorem mem_track_heuristic {filter : PathFilter} {options : Options} {m : FuncId}
    (h : m ∈ (track u registry filter { options with genericMatch := .strict }).methods) :
    m ∈ (track u registry filter { options with genericMatch := .heuristic }).methods ∨
      PickedFromOtherType u registry filter m := by
  rw [mem_methods_track_iff] at h
  obtain ⟨d, hd, rfl, before, info, item, after, hwalk, hjust⟩ := h
  rcases hjust.heuristic with hjust | ⟨node, operand, field, called, recv, rfl, hsel, hname, hother⟩
  · refine .inl ?_
    rw [mem_methods_track_iff]
    exact ⟨d, hd, rfl, before, info, item, after, hwalk, hjust⟩
  · refine .inr ⟨d, hd, rfl, info, node, operand, field, called, recv, ?_, hsel, hname, hother⟩
    rw [hwalk]
    simp

/-- A method of which a copy is picked from a type of another name is found by declaration. -/
theorem PickedFromOtherType.mem_track {filter : PathFilter} {m : FuncId} (h : PickedFromOtherType u registry filter m)
    (options : Options) : m ∈ (track u registry filter { options with genericMatch := .strict }).methods := by
  obtain ⟨d, hd, rfl, info, node, operand, field, called, recv, hmet, hsel, hname, hother⟩ := h
  obtain ⟨before, after, hwalk⟩ := List.append_of_mem hmet
  rw [mem_methods_track_iff]
  exact ⟨d, hd, rfl, before, info, _, after, hwalk, .selected hsel hname hother.ofSelection_ne_rejected⟩

/-- Matching by declaration finds a method that matching by name misses if and only if matching by name misses it and
a copy of it is picked from an instance of a generic type with another name than its interface. In a package where
no copy is picked in this way, what is found by declaration is found by name. -/
theorem strict_not_heuristic_iff (u : CheckedPackage) (registry : Registry) (filter : PathFilter) (options : Options)
    (m : FuncId) :
    (track u registry filter { options with genericMatch := .strict }).contains m = true ∧
        (track u registry filter { options with genericMatch := .heuristic }).contains m = false ↔
      PickedFromOtherType u registry filter m ∧
        (track u registry filter { options with genericMatch := .heuristic }).contains m = false := by
  simp only [UsedSet.contains, List.contains_iff_mem, ← Bool.not_eq_true]
  constructor
  · rintro ⟨hstrict, hmiss⟩
    exact ⟨(mem_track_heuristic hstrict).resolve_left hmiss, hmiss⟩
  · rintro ⟨hpicked, hmiss⟩
    exact ⟨hpicked.mem_track options, hmiss⟩

/-- A method is called on an instance of a generic interface, which embeds an instance of the one that declares it. -/
def calledOnGenericEmbedding : String :=
  "package app

type Repo[T any] interface \x7b
	Get(id string) T
\x7d

type Outer[T any] interface \x7b
	Repo[T]
\x7d

func use(o Outer[int]) \x7b
	o.Get(\"a\")
\x7d
"

/-- The method of `calledOnGenericEmbedding` is found by declaration and missed by name. -/
theorem embedding_instance_strict_only :
    ∃ d ∈ (collect (.ofText calledOnGenericEmbedding) .allowAll .default).entries,
      (track (.ofText calledOnGenericEmbedding) (collect (.ofText calledOnGenericEmbedding) .allowAll .default) .allowAll
        (.matching .strict)).contains d.method = true ∧
      (track (.ofText calledOnGenericEmbedding) (collect (.ofText calledOnGenericEmbedding) .allowAll .default) .allowAll
        (.matching .heuristic)).contains d.method = false := by
  decide +kernel

end UnusedMethods.Methods
