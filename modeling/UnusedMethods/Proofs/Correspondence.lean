import UnusedMethods.Proofs.SharedInstances

/-!
# Two tables that say the same

The types and functions that a program makes need not stand at the same places of two tables, and one of the tables may
have entries to which nothing in the other one corresponds. A `Correspondence` says which types and functions of the one
table stand for which of the other. It holds `Between` two tables if what corresponds is built alike, and if neither
table has an answer of its own to the questions that are asked when types are made: which pointer there is to a type, and
which instance of a generic type.
-/

namespace UnusedMethods.Types

/-! ## Types of which there is one for each element type -/

/-- Types that are made of one type, and only once. -/
inductive Wrapping where
  | pointer
  | slice

namespace Wrapping

variable {w : Wrapping}

/-- The type that is made of an element type. -/
def wrap : Wrapping → TypeId → Ty
  | .pointer, elem => .pointer elem
  | .slice, elem => .slice elem

/-- Whether a type is the one that is made of an element type. -/
def isWrap : Wrapping → TypeId → Ty → Bool
  | .pointer, elem, .pointer e => e = elem
  | .slice, elem, .slice e => e = elem
  | _, _, _ => false

theorem isWrap_iff {elem : TypeId} {ty : Ty} : w.isWrap elem ty = true ↔ ty = w.wrap elem := by
  cases w <;> cases ty <;> simp [isWrap, wrap]

/-- The type is looked for, and made if it is not there. -/
def build (w : Wrapping) (elem : TypeId) : Build TypeId := do
  match (← get).find? (w.isWrap elem) with
  | some id => return id
  | none => Build.push (w.wrap elem)

theorem build_pointer (elem : TypeId) : Wrapping.pointer.build elem = Build.pointer elem := by
  refine bind_congr fun t => ?_
  congr 2
  funext ty
  cases ty <;> rfl

theorem build_slice (elem : TypeId) : Wrapping.slice.build elem = Build.slice elem := by
  refine bind_congr fun t => ?_
  congr 2
  funext ty
  cases ty <;> rfl

theorem alike_wrap {k : Correspondence} (w : Wrapping) {a b : TypeId} (h : k.types a b) :
    (w.wrap a).Alike k (w.wrap b) := by
  cases w with
  | pointer => exact .pointer h
  | slice => exact .slice h

/-- What is built like a pointer or a slice is one. -/
theorem exists_of_alike_wrap {k : Correspondence} {b : TypeId} {x : Ty} (h : x.Alike k (w.wrap b)) :
    ∃ a, x = w.wrap a ∧ k.types a b := by
  cases w with
  | pointer =>
    cases h with
    | pointer h => exact ⟨_, rfl, h⟩
  | slice =>
    cases h with
    | slice h => exact ⟨_, rfl, h⟩

theorem wrap_injective {w' : Wrapping} {a a' : TypeId} (h : w.wrap a = w'.wrap a') : w = w' ∧ a = a' := by
  cases w <;> cases w' <;> cases h <;> exact ⟨rfl, rfl⟩

end Wrapping

/-- Whether a type is an instance of a generic type. -/
def Ty.isInstance : Ty → Bool
  | .named d => d.origin.isSome
  | _ => false

/-- Changes what is known about a named type, and leaves others. -/
def Ty.mapNamed (f : Named → Named) : Ty → Ty
  | .named n => .named (f n)
  | ty => ty

/-- Changes an interface, and leaves other types. -/
def Ty.mapInterface (f : Interface → Interface) : Ty → Ty
  | .interface i => .interface (f i)
  | ty => ty

/-- A type that has been filled in is still made of the same parts. -/
structure Ty.SameMake (x y : Ty) : Prop where
  parts : y.parts = x.parts
  isWrap : ∀ (w : Wrapping) elem, w.isWrap elem y = w.isWrap elem x
  isInstance : y.isInstance = x.isInstance

/-! ## New entries of a table -/

namespace Table

variable {t : Table}

variable {id : TypeId}

/-- The table with one more type. -/
def withType (t : Table) (ty : Ty) : Table := { t with types := t.types.push ty }

/-- The table with one more function. -/
def withFunc (t : Table) (f : Func) : Table := { t with funcs := t.funcs.push f }

/-- The index of the next type. -/
def nextType (t : Table) : TypeId := ⟨t.types.size⟩

/-- The index of the next function. -/
def nextFunc (t : Table) : FuncId := ⟨t.funcs.size⟩

theorem not_hasType_nextType : ¬ t.HasType t.nextType := Nat.lt_irrefl _

theorem not_hasFunc_nextFunc : ¬ t.HasFunc t.nextFunc := Nat.lt_irrefl _

theorem hasType_withType {ty : Ty} : (t.withType ty).HasType id ↔ t.HasType id ∨ id = t.nextType := by
  constructor
  · intro h
    have hlt : id.index < t.types.size + 1 := by simpa [withType, HasType] using h
    rcases Nat.lt_succ_iff_lt_or_eq.1 hlt with hlt | heq
    · exact .inl hlt
    · exact .inr (TypeId.eq_of_index_eq heq)
  · rintro (h | rfl)
    · exact Nat.lt_of_lt_of_le h (by simp [withType])
    · simp [withType, HasType, nextType]

theorem hasFunc_withFunc {f : Func} {id : FuncId} : (t.withFunc f).HasFunc id ↔ t.HasFunc id ∨ id = t.nextFunc := by
  constructor
  · intro h
    have hlt : id.index < t.funcs.size + 1 := by simpa [withFunc, HasFunc] using h
    rcases Nat.lt_succ_iff_lt_or_eq.1 hlt with hlt | heq
    · exact .inl hlt
    · exact .inr (by cases id; exact congrArg FuncId.mk heq)
  · rintro (h | rfl)
    · exact Nat.lt_of_lt_of_le h (by simp [withFunc])
    · simp [withFunc, HasFunc, nextFunc]

theorem get_withType {ty : Ty} (h : id ≠ t.nextType) : (t.withType ty).get id = t.get id := by
  have hindex : id.index ≠ t.types.size := fun heq => h (TypeId.eq_of_index_eq heq)
  show (t.types.push ty)[id.index]?.getD .invalid = _
  rw [Array.getElem?_push, if_neg hindex]
  rfl

@[simp] theorem get_withType_nextType (t : Table) (ty : Ty) : (t.withType ty).get t.nextType = ty := by
  show (t.types.push ty)[t.types.size]?.getD .invalid = ty
  rw [Array.getElem?_push_size, Option.getD_some]

theorem func_withFunc {f : Func} {id : FuncId} (h : id ≠ t.nextFunc) : (t.withFunc f).func id = t.func id := by
  have hindex : id.index ≠ t.funcs.size := fun heq => h (by cases id; exact congrArg FuncId.mk heq)
  show (t.funcs.push f)[id.index]?.getD default = _
  rw [Array.getElem?_push, if_neg hindex]
  rfl

@[simp] theorem func_withFunc_nextFunc (t : Table) (f : Func) : (t.withFunc f).func t.nextFunc = f := by
  show (t.funcs.push f)[t.funcs.size]?.getD default = f
  rw [Array.getElem?_push_size, Option.getD_some]

theorem ne_nextType (h : t.HasType id) : id ≠ t.nextType := fun heq => not_hasType_nextType (heq ▸ h)

theorem ne_nextFunc {id : FuncId} (h : t.HasFunc id) : id ≠ t.nextFunc := fun heq => not_hasFunc_nextFunc (heq ▸ h)

theorem find?_withType (t : Table) (ty : Ty) (p : Ty → Bool) :
    (t.withType ty).find? p = (t.find? p).or (if p ty = true then some t.nextType else none) := by
  show ((t.types.push ty).findIdx? p).map TypeId.mk = _
  rw [Array.findIdx?_push, Option.map_or]
  unfold find?
  split <;> rfl

/-- Entries that answer alike are found alike. -/
theorem find?_modifyType {f : Ty → Ty} {p : Ty → Bool} (h : ∀ ty, p (f ty) = p ty) :
    (t.modifyType id f).find? p = t.find? p := by
  have hsame : ∀ i : Nat, ((t.modifyType id f).types[i]?.map p) = t.types[i]?.map p := by
    intro i
    rw [getElem?_modifyType]
    split
    · rw [Option.map_map]
      exact congrArg (fun g => t.types[i]?.map g) (funext h)
    · rfl
  have hmap : (t.modifyType id f).types.map p = t.types.map p := by
    apply Array.ext_getElem?
    intro i
    rw [Array.getElem?_map, Array.getElem?_map, hsame]
  have hfind : ∀ types : Array Ty, types.findIdx? p = (types.map p).findIdx? fun b => b := by
    intro types
    rw [Array.findIdx?_map]
    rfl
  unfold find?
  rw [hfind, hfind, hmap]

end Table

/-! ## Correspondences between tables -/

/-- The entries of `t` are in `t'` as they are in `t`. -/
structure Table.Stays (t t' : Table) : Prop where
  hasType : ∀ {id}, t.HasType id → t'.HasType id
  hasFunc : ∀ {id}, t.HasFunc id → t'.HasFunc id
  get : ∀ {id}, t.HasType id → t'.get id = t.get id
  func : ∀ {id}, t.HasFunc id → t'.func id = t.func id
  deferring : t'.deferring = t.deferring

namespace Table.Stays

variable {t t' t'' : Table}

theorem refl (t : Table) : t.Stays t := ⟨id, id, fun _ => rfl, fun _ => rfl, rfl⟩

theorem trans (h : t.Stays t') (h' : t'.Stays t'') : t.Stays t'' where
  hasType hid := h'.hasType (h.hasType hid)
  hasFunc hid := h'.hasFunc (h.hasFunc hid)
  get hid := (h'.get (h.hasType hid)).trans (h.get hid)
  func hid := (h'.func (h.hasFunc hid)).trans (h.func hid)
  deferring := h'.deferring.trans h.deferring

end Table.Stays

/-- What is found in a table is found when entries are added. -/
theorem Table.Stays.find? {t t' : Table} (h : t.Stays t') {p : Ty → Bool} {id : TypeId} (hid : t.find? p = some id) :
    t'.find? p = some id := by
  have hhas := Build.hasType_of_find? hid
  cases hid' : t'.find? p with
  | none =>
    have hfalse := Table.get_eq_false_of_find? hid' (h.hasType hhas)
    rw [h.get hhas, Table.get_of_find? hid] at hfalse
    cases hfalse
  | some id' =>
    have htrue : p (t'.get id) = true := by rw [h.get hhas, Table.get_of_find? hid]
    have hle := Table.index_le_of_find? hid' (h.hasType hhas) htrue
    have hhas' : t.HasType id' := Nat.lt_of_le_of_lt hle hhas
    have hle' := Table.index_le_of_find? hid hhas' (by rw [← h.get hhas', Table.get_of_find? hid'])
    exact congrArg some (TypeId.eq_of_index_eq (Nat.le_antisymm hle hle'))

namespace Correspondence

/-- What corresponds is built alike, each type and function to at most one of the other table; the first table has
nothing that does not correspond to something; and both tables have the same answers when pointers, slices and instances
are asked for. -/
structure Between (k : Correspondence) (s t : Table) : Prop where
  hasType : ∀ {a b}, k.types a b → s.HasType a ∧ t.HasType b
  hasFunc : ∀ {f g}, k.funcs f g → s.HasFunc f ∧ t.HasFunc g
  types : Relator.BiUnique k.types
  funcs : Relator.BiUnique k.funcs
  total : ∀ {a}, s.HasType a → ∃ b, k.types a b
  get : ∀ {a b}, k.types a b → (s.get a).Alike k (t.get b)
  func : ∀ {f g}, k.funcs f g → (s.func f).Alike k (t.func g)
  predeclared : ∀ {id : TypeId}, id.index < 31 → k.types id id
  deferring : t.deferring = s.deferring
  /-- The parts of a type stand before it. -/
  olderLeft : ∀ {id c}, c ∈ (s.get id).parts → c.index < id.index
  olderRight : ∀ {id c}, c ∈ (t.get id).parts → c.index < id.index
  /-- A pointer or slice that is found in the first table corresponds to the one that is found in the second. -/
  wraps : ∀ {w : Wrapping} {a b p}, k.types a b → s.find? (w.isWrap a) = some p →
    ∃ q, k.types p q ∧ t.find? (w.isWrap b) = some q
  /-- Every instance of the second table corresponds to one of the first, and they stand in the same order. -/
  instances : ∀ {b}, (t.get b).isInstance = true → ∃ a, k.types a b
  order : ∀ {a b a' b'}, k.types a b → k.types a' b' → (s.get a).isInstance = true → (s.get a').isInstance = true →
    a.index < a'.index → b.index < b'.index
  base : k.base.Stays t

/-- Two more types correspond. -/
def addTypes (k : Correspondence) (a b : TypeId) : Correspondence :=
  { k with types := fun x y => k.types x y ∨ x = a ∧ y = b }

/-- Two more functions correspond. -/
def addFuncs (k : Correspondence) (f g : FuncId) : Correspondence :=
  { k with funcs := fun x y => k.funcs x y ∨ x = f ∧ y = g }

theorem grows_addTypes (k : Correspondence) (a b : TypeId) : k.Grows (k.addTypes a b) := ⟨.inl, id, rfl⟩

theorem grows_addFuncs (k : Correspondence) (f g : FuncId) : k.Grows (k.addFuncs f g) := ⟨id, .inl, rfl⟩

theorem types_addTypes (k : Correspondence) (a b : TypeId) : (k.addTypes a b).types a b := .inr ⟨rfl, rfl⟩

theorem funcs_addFuncs (k : Correspondence) (f g : FuncId) : (k.addFuncs f g).funcs f g := .inr ⟨rfl, rfl⟩

namespace Between

variable {k : Correspondence} {s t : Table}

variable {b a : TypeId}

theorem reads (h : k.Between s t) : k.Reads s t := ⟨h.types, h.get, h.func, h.predeclared⟩

/-- The first table gets a type, which is built like one of the second to which nothing corresponds yet. -/
theorem extend (h : k.Between s t) {x : Ty} {t' : Table} (hstays : t.Stays t') (hb : t'.HasType b)
    (hnew : ∀ a, ¬ k.types a b) (hxb : x.Alike k (t'.get b)) (holder : ∀ {id c}, c ∈ (t'.get id).parts → c.index < id.index)
    (hfind : ∀ {p q}, t.find? p = some q → t'.find? p = some q)
    (hwrap : ∀ {w : Wrapping} {a c}, x = w.wrap a → k.types a c → t'.find? (w.isWrap c) = some b)
    (hinstance : ∀ {id}, (t'.get id).isInstance = true → id ≠ b → (t.get id).isInstance = true)
    (hlast : x.isInstance = true → ∀ {a c}, k.types a c → c.index < b.index) :
    (k.addTypes s.nextType b).Between (s.withType x) t' := by
  have hk := k.grows_addTypes s.nextType b
  have hleft : ∀ {a c}, k.types a c → a ≠ s.nextType := fun hac => Table.ne_nextType (h.hasType hac).1
  refine
    { hasType := ?_, hasFunc := fun hfg => ⟨(h.hasFunc hfg).1, hstays.hasFunc (h.hasFunc hfg).2⟩, types := ⟨?_, ?_⟩
      funcs := h.funcs, total := ?_, get := ?_, func := ?_, predeclared := fun hid => .inl (h.predeclared hid),
      deferring := hstays.deferring.trans h.deferring, olderLeft := ?_, olderRight := holder, wraps := ?_
      instances := ?_, order := ?_, base := h.base.trans hstays }
  · rintro a c (hac | ⟨rfl, rfl⟩)
    · exact ⟨Table.hasType_withType.2 (.inl (h.hasType hac).1), hstays.hasType (h.hasType hac).2⟩
    · exact ⟨Table.hasType_withType.2 (.inr rfl), hb⟩
  · rintro a a' c (hac | ⟨rfl, rfl⟩) (hac' | ⟨rfl, hc⟩)
    · exact h.types.1 hac hac'
    · exact absurd (hc ▸ hac) (hnew a)
    · exact absurd hac' (hnew a')
    · rfl
  · rintro a c c' (hac | ⟨rfl, rfl⟩) (hac' | ⟨ha, rfl⟩)
    · exact h.types.2 hac hac'
    · exact absurd ha (hleft hac)
    · exact absurd rfl (hleft hac')
    · rfl
  · intro a ha
    rcases Table.hasType_withType.1 ha with ha | rfl
    · exact (h.total ha).imp fun _ => .inl
    · exact ⟨b, .inr ⟨rfl, rfl⟩⟩
  · rintro a c (hac | ⟨rfl, rfl⟩)
    · rw [Table.get_withType (hleft hac), hstays.get (h.hasType hac).2]
      exact (h.get hac).mono hk
    · rw [Table.get_withType_nextType]
      exact hxb.mono hk
  · intro f g hfg
    rw [hstays.func (h.hasFunc hfg).2]
    exact (h.func hfg).mono hk
  · intro id c hc
    by_cases hid : id = s.nextType
    · rw [hid, Table.get_withType_nextType] at hc
      obtain ⟨d, -, hcd⟩ := exists_of_mem_left hxb.parts hc
      exact hid ▸ (h.hasType hcd).1
    · rw [Table.get_withType hid] at hc
      exact h.olderLeft hc
  · intro w a c p hac hp
    rw [Table.find?_withType] at hp
    rcases Option.or_eq_some_iff.1 hp with hp | ⟨-, hp⟩
    · have ha : k.types a c := by
        -- nothing that was found before is made of the new type
        rcases hac with hac | ⟨rfl, rfl⟩
        · exact hac
        · have hget := Wrapping.isWrap_iff.1 (Table.get_of_find? hp)
          have hpart : s.nextType ∈ (s.get p).parts := by
            rw [hget]
            cases w <;> exact List.mem_singleton_self _
          exact absurd (Nat.lt_trans (h.olderLeft hpart) (Build.hasType_of_find? hp)) (Nat.lt_irrefl _)
      obtain ⟨q, hpq, hq⟩ := h.wraps ha hp
      exact ⟨q, .inl hpq, hfind hq⟩
    · split at hp
      · rename_i hx
        cases hp
        have hx := Wrapping.isWrap_iff.1 hx
        refine ⟨b, .inr ⟨rfl, rfl⟩, ?_⟩
        rcases hac with hac | ⟨rfl, rfl⟩
        · exact hwrap hx hac
        · obtain ⟨d, -, hcd⟩ := exists_of_mem_left hxb.parts (a := s.nextType) (by
            rw [hx]
            cases w <;> exact List.mem_singleton_self _)
          exact absurd rfl (hleft hcd)
      · cases hp
  · intro c hc
    by_cases hcb : c = b
    · exact ⟨s.nextType, .inr ⟨rfl, hcb⟩⟩
    · exact (h.instances (hinstance hc hcb)).imp fun _ => .inl
  · rintro a c a' c' (hac | ⟨rfl, rfl⟩) (hac' | ⟨rfl, rfl⟩) ha ha' hlt
    · rw [Table.get_withType (hleft hac)] at ha
      rw [Table.get_withType (hleft hac')] at ha'
      exact h.order hac hac' ha ha' hlt
    · rw [Table.get_withType_nextType] at ha'
      exact hlast ha' hac
    · exact absurd (Nat.lt_trans hlt (h.hasType hac').1) (Nat.lt_irrefl _)
    · exact absurd hlt (Nat.lt_irrefl _)

/-- Both tables get a type, and the types are built alike. If they are pointers or slices, there is no such type yet. -/
theorem push (h : k.Between s t) {x y : Ty} (hxy : x.Alike k y)
    (hwrap : ∀ {w : Wrapping} {a c}, x = w.wrap a → k.types a c → t.find? (w.isWrap c) = none) :
    (k.addTypes s.nextType t.nextType).Between (s.withType x) (t.withType y) := by
  have hstays : t.Stays (t.withType y) :=
    ⟨fun hid => Table.hasType_withType.2 (.inl hid), fun hid => hid, fun hid => Table.get_withType (Table.ne_nextType hid),
      fun _ => rfl, rfl⟩
  refine h.extend hstays (Table.hasType_withType.2 (.inr rfl)) (fun a ha => Table.not_hasType_nextType (h.hasType ha).2)
    (by simpa using hxy) ?_ ?_ ?_ ?_ fun _ _ _ hac => (h.hasType hac).2
  · intro id c hc
    by_cases hid : id = t.nextType
    · rw [hid, Table.get_withType_nextType] at hc
      obtain ⟨a, -, hac⟩ := exists_of_mem_right hxy.parts hc
      exact hid ▸ (h.hasType hac).2
    · rw [Table.get_withType hid] at hc
      exact h.olderRight hc
  · intro p q hq
    rw [Table.find?_withType, hq, Option.some_or]
  · intro w a c hx hac
    have hy : w.isWrap c y = true := by
      subst hx
      cases w with
      | pointer =>
        cases hxy with
        | pointer hab => simp [Wrapping.isWrap, h.types.2 hab hac]
      | slice =>
        cases hxy with
        | slice hab => simp [Wrapping.isWrap, h.types.2 hab hac]
    rw [Table.find?_withType, hwrap hx hac, Option.none_or, if_pos hy]
  · intro id hid hne
    rwa [Table.get_withType hne] at hid

/-- Only the first table gets a pointer or a slice, as it is already there in the second. -/
theorem pushLeft (h : k.Between s t) {w : Wrapping} {q : TypeId} (hab : k.types a b) (hleft : s.find? (w.isWrap a) = none)
    (hright : t.find? (w.isWrap b) = some q) : (k.addTypes s.nextType q).Between (s.withType (w.wrap a)) t := by
  have hq := Wrapping.isWrap_iff.1 (Table.get_of_find? hright)
  refine h.extend (.refl t) (Build.hasType_of_find? hright) (fun p hpq => ?_) ?_ h.olderRight (fun hp => hp) ?_
    (fun hid _ => hid) fun hinstance => ?_
  · -- what corresponds to the pointer would have been found
    have hget := h.get hpq
    rw [hq] at hget
    obtain ⟨a', hp, hab'⟩ := Wrapping.exists_of_alike_wrap hget
    have hfalse := Table.get_eq_false_of_find? hleft (h.hasType hpq).1
    rw [← h.types.1 hab' hab, Wrapping.isWrap_iff.2 hp] at hfalse
    cases hfalse
  · rw [hq]
    exact w.alike_wrap hab
  · intro w' a' c hx hac
    obtain ⟨rfl, rfl⟩ := Wrapping.wrap_injective hx
    rwa [← h.types.2 hab hac]
  · cases w <;> cases hinstance

/-- Both tables get a function, and the functions are built alike. -/
theorem pushFunc (h : k.Between s t) {f g : Func} (hfg : f.Alike k g) :
    (k.addFuncs s.nextFunc t.nextFunc).Between (s.withFunc f) (t.withFunc g) := by
  have hk := k.grows_addFuncs s.nextFunc t.nextFunc
  have hleft : ∀ {x y}, k.funcs x y → x ≠ s.nextFunc := fun hxy => Table.ne_nextFunc (h.hasFunc hxy).1
  have hright : ∀ {x y}, k.funcs x y → y ≠ t.nextFunc := fun hxy => Table.ne_nextFunc (h.hasFunc hxy).2
  have hstays : t.Stays (t.withFunc g) :=
    ⟨fun hid => hid, fun hid => Table.hasFunc_withFunc.2 (.inl hid), fun _ => rfl,
      fun hid => Table.func_withFunc (Table.ne_nextFunc hid), rfl⟩
  refine
    { hasType := h.hasType, hasFunc := ?_, types := h.types, funcs := ⟨?_, ?_⟩, total := h.total
      get := fun hab => (h.get hab).mono hk, func := ?_, predeclared := h.predeclared, deferring := h.deferring
      olderLeft := h.olderLeft, olderRight := h.olderRight, wraps := h.wraps, instances := h.instances, order := h.order
      base := h.base.trans hstays }
  · rintro x y (hxy | ⟨rfl, rfl⟩)
    · exact ⟨Table.hasFunc_withFunc.2 (.inl (h.hasFunc hxy).1), Table.hasFunc_withFunc.2 (.inl (h.hasFunc hxy).2)⟩
    · exact ⟨Table.hasFunc_withFunc.2 (.inr rfl), Table.hasFunc_withFunc.2 (.inr rfl)⟩
  · rintro x x' y (hxy | ⟨rfl, rfl⟩) (hxy' | ⟨rfl, hy⟩)
    · exact h.funcs.1 hxy hxy'
    · exact absurd hy (hright hxy)
    · exact absurd rfl (hright hxy')
    · rfl
  · rintro x y y' (hxy | ⟨rfl, rfl⟩) (hxy' | ⟨hx, rfl⟩)
    · exact h.funcs.2 hxy hxy'
    · exact absurd hx (hleft hxy)
    · exact absurd rfl (hleft hxy')
    · rfl
  · rintro x y (hxy | ⟨rfl, rfl⟩)
    · rw [Table.func_withFunc (hleft hxy), Table.func_withFunc (hright hxy)]
      exact (h.func hxy).mono hk
    · rw [Table.func_withFunc_nextFunc, Table.func_withFunc_nextFunc]
      exact hfg.mono hk

/-- Two types that correspond are filled in alike. The type is none of those that the second table must not lose. -/
theorem modifyType (h : k.Between s t) (hab : k.types a b) (hbase : ¬ k.base.HasType b) {f g : Ty → Ty}
    (hfg : (f (s.get a)).Alike k (g (t.get b))) (hf : ∀ ty : Ty, ty.SameMake (f ty)) (hg : ∀ ty : Ty, ty.SameMake (g ty)) :
    k.Between (s.modifyType a f) (t.modifyType b g) := by
  obtain ⟨ha, hb⟩ := h.hasType hab
  -- an entry that is filled in is made of what it was made of
  have hmake : ∀ {t : Table} {id : TypeId} {f : Ty → Ty}, (∀ ty : Ty, ty.SameMake (f ty)) → ∀ id', t.HasType id →
      (t.get id').SameMake ((t.modifyType id f).get id') := by
    intro t id f hf id' hid
    by_cases heq : id' = id
    · rw [heq, Table.get_modifyType_self hid]
      exact hf _
    · rw [Table.get_modifyType_of_ne heq]
      exact ⟨rfl, fun _ _ => rfl, rfl⟩
  refine
    { hasType := ?_, hasFunc := h.hasFunc, types := h.types, funcs := h.funcs
      total := fun hid => h.total (Table.hasType_modifyType.1 hid), get := ?_, func := h.func, predeclared := h.predeclared
      deferring := h.deferring, olderLeft := ?_, olderRight := ?_, wraps := ?_, instances := ?_, order := ?_, base := ?_ }
  · intro x y hxy
    exact ⟨Table.hasType_modifyType.2 (h.hasType hxy).1, Table.hasType_modifyType.2 (h.hasType hxy).2⟩
  · intro x y hxy
    by_cases hx : x = a
    · subst hx
      rw [h.types.2 hxy hab, Table.get_modifyType_self ha, Table.get_modifyType_self hb]
      exact hfg
    · have hy : y ≠ b := fun hy => hx (h.types.1 hxy (hy ▸ hab))
      rw [Table.get_modifyType_of_ne hx, Table.get_modifyType_of_ne hy]
      exact h.get hxy
  · intro id c hc
    rw [(hmake hf id ha).parts] at hc
    exact h.olderLeft hc
  · intro id c hc
    rw [(hmake hg id hb).parts] at hc
    exact h.olderRight hc
  · intro w x y p hxy hp
    rw [Table.find?_modifyType fun ty => (hf ty).isWrap w x] at hp
    rw [Table.find?_modifyType fun ty => (hg ty).isWrap w y]
    exact h.wraps hxy hp
  · intro y hy
    rw [(hmake hg y hb).isInstance] at hy
    exact h.instances hy
  · intro x y x' y' hxy hxy' hx hx' hlt
    rw [(hmake hf _ ha).isInstance] at hx hx'
    exact h.order hxy hxy' hx hx' hlt
  · refine ⟨fun hid => Table.hasType_modifyType.2 (h.base.hasType hid), h.base.hasFunc, fun {id} hid => ?_, h.base.func,
      h.base.deferring⟩
    have hne : id ≠ b := fun heq => hbase (heq ▸ hid)
    rw [Table.get_modifyType_of_ne hne]
    exact h.base.get hid

theorem modifyNamed (h : k.Between s t) (hab : k.types a b) (hbase : ¬ k.base.HasType b) {f g : Named → Named}
    (hfg : ∀ d e, d.Alike k e → (f d).Alike k (g e)) (hf : ∀ d, (f d).origin = d.origin ∧ (f d).typeArgs = d.typeArgs)
    (hg : ∀ d, (g d).origin = d.origin ∧ (g d).typeArgs = d.typeArgs) :
    k.Between (s.modifyNamed a f) (t.modifyNamed b g) := by
  have hmake : ∀ {f : Named → Named}, (∀ d, (f d).origin = d.origin ∧ (f d).typeArgs = d.typeArgs) →
      ∀ ty : Ty, ty.SameMake (ty.mapNamed f) := by
    intro f hf ty
    cases ty with
    | named d =>
      refine ⟨?_, fun w _ => by cases w <;> rfl, congrArg Option.isSome (hf d).1⟩
      show (f d).typeArgs ++ (f d).origin.toList = _
      rw [(hf d).1, (hf d).2]
      rfl
    | _ => exact ⟨rfl, fun _ _ => rfl, rfl⟩
  refine h.modifyType hab hbase ?_ (hmake hf) (hmake hg)
  have hget := h.get hab
  generalize s.get a = x at hget
  generalize t.get b = y at hget
  cases hget with
  | named hde => exact .named (hfg _ _ hde)
  | _ => constructor <;> assumption

theorem modifyInterface (h : k.Between s t) (hab : k.types a b) (hbase : ¬ k.base.HasType b) {f g : Interface → Interface}
    (hfg : ∀ i j, i.Alike k j → (f i).Alike k (g j)) (hf : ∀ i, (f i).embedded = i.embedded)
    (hg : ∀ i, (g i).embedded = i.embedded) : k.Between (s.modifyInterface a f) (t.modifyInterface b g) := by
  have hmake : ∀ {f : Interface → Interface}, (∀ i, (f i).embedded = i.embedded) →
      ∀ ty : Ty, ty.SameMake (ty.mapInterface f) := by
    intro f hf ty
    cases ty with
    | interface i => exact ⟨hf i, fun w _ => by cases w <;> rfl, rfl⟩
    | _ => exact ⟨rfl, fun _ _ => rfl, rfl⟩
  refine h.modifyType hab hbase ?_ (hmake hf) (hmake hg)
  have hget := h.get hab
  generalize s.get a = x at hget
  generalize t.get b = y at hget
  cases hget with
  | interface hij => exact .interface (hfg _ _ hij)
  | _ => constructor <;> assumption

theorem stays (h : k.Between s t) {t' : Table} (hstays : t.Stays t')
    (holder : ∀ {id c}, c ∈ (t'.get id).parts → c.index < id.index)
    (hinstance : ∀ {id}, (t'.get id).isInstance = true → (t.get id).isInstance = true) : k.Between s t' where
  hasType hab := ⟨(h.hasType hab).1, hstays.hasType (h.hasType hab).2⟩
  hasFunc hfg := ⟨(h.hasFunc hfg).1, hstays.hasFunc (h.hasFunc hfg).2⟩
  types := h.types
  funcs := h.funcs
  total := h.total
  get hab := by
    rw [hstays.get (h.hasType hab).2]
    exact h.get hab
  func hfg := by
    rw [hstays.func (h.hasFunc hfg).2]
    exact h.func hfg
  predeclared := h.predeclared
  deferring := hstays.deferring.trans h.deferring
  olderLeft := h.olderLeft
  olderRight := holder
  wraps hab hp := by
    obtain ⟨q, hpq, hq⟩ := h.wraps hab hp
    exact ⟨q, hpq, hstays.find? hq⟩
  instances hb := h.instances (hinstance hb)
  order := h.order
  base := h.base.trans hstays

end Between

/-! ## A table and itself -/

/-- What is in a table corresponds to itself. -/
def identity (t : Table) : Correspondence where
  types a b := t.HasType a ∧ a = b
  funcs f g := t.HasFunc f ∧ f = g
  base := t

section Identity

variable {t : Table}

theorem Between.identity (hwf : t.WF) : (identity t).Between t t where
  hasType := fun h => ⟨h.1, h.2 ▸ h.1⟩
  hasFunc := fun h => ⟨h.1, h.2 ▸ h.1⟩
  types := ⟨fun _ _ _ h h' => h.2.trans h'.2.symm, fun _ _ _ h h' => h.2.symm.trans h'.2⟩
  funcs := ⟨fun _ _ _ h h' => h.2.trans h'.2.symm, fun _ _ _ h h' => h.2.symm.trans h'.2⟩
  total := by
    intro a ha
    exact ⟨a, ha, rfl⟩
  get := by
    rintro a _ ⟨-, rfl⟩
    exact Ty.alike_self (fun c hc => ⟨hwf.hasType_part a hc, rfl⟩) (fun c hc => ⟨hwf.hasType_filledIn a hc, rfl⟩)
      fun f hf => ⟨hwf.hasFunc a hf, rfl⟩
  func := by
    rintro f _ ⟨-, rfl⟩
    exact Func.alike_self (fun c hc => ⟨(hwf.func f).parts c hc, rfl⟩) fun o ho => ⟨((hwf.func f).origin o ho).1, rfl⟩
  predeclared hid := ⟨hwf.hasType_of_lt hid, rfl⟩
  deferring := rfl
  olderLeft {id} _ hc := (hwf.get id).parts _ hc
  olderRight {id} _ hc := (hwf.get id).parts _ hc
  wraps := by
    rintro w a _ p ⟨-, rfl⟩ hp
    exact ⟨p, ⟨Build.hasType_of_find? hp, rfl⟩, hp⟩
  instances {b} hb := by
    refine ⟨b, Table.hasType_of_get_ne_invalid fun hinvalid => ?_, rfl⟩
    rw [hinvalid] at hb
    cases hb
  order := by
    rintro a _ a' _ ⟨-, rfl⟩ ⟨-, rfl⟩ _ _ hlt
    exact hlt
  base := .refl t

end Identity

end Correspondence

end UnusedMethods.Types
