import Mathlib.Tactic.ByContra
import UnusedMethods.Types.Table

/-!
# Well-formed tables, and how they grow

A table is only ever added to: a new entry refers to what the table has already, and of an old entry only
those parts change that are filled in later. `Table.WF` says that all references are in range and
`Table.Grows` says what stays as it was; each operation on tables keeps the one and does the other.
-/

namespace UnusedMethods.Types

variable {ty : Ty}

/-! ## References -/

/-- The types to which a type refers from the start. They have been entered before it. -/
def Ty.parts : Ty → List TypeId
  | .named n => n.typeArgs ++ n.origin.toList
  | .pointer elem | .slice elem | .array _ elem | .chan _ elem => [elem]
  | .map key value => [key, value]
  | .signature s => s.params ++ s.results
  | .interface i => i.embedded
  | .struct fields => fields.map (·.type)
  | .tuple elems => elems
  | .union terms => terms.map (·.type)
  | .invalid | .basic _ | .typeParam _ => []

/-- The types to which a type refers once it has been filled in. -/
def Ty.filledIn : Ty → List TypeId
  | .named n => n.rhs :: n.typeParams
  | .typeParam p => [p.constraint]
  | _ => []

/-- The functions to which a type refers. -/
def Ty.funcs : Ty → List FuncId
  | .named n => n.methods
  | .interface i => i.explicit ++ i.methods
  | _ => []

/-- Whether a type is written as an interface. -/
def Ty.isInterface : Ty → Bool
  | .interface _ => true
  | _ => false

/-- The types to which a function refers. -/
def Func.parts (f : Func) : List TypeId :=
  f.sig :: f.typeParams ++
    match f.kind with
    | .method recv _ => [recv]
    | _ => []

namespace Table

/-- The table has a type of that index. -/
def HasType (t : Table) (id : TypeId) : Prop := id.index < t.types.size

/-- The table has a function of that index. -/
def HasFunc (t : Table) (id : FuncId) : Prop := id.index < t.funcs.size

/-- The table has a function of that index, and it is a method of an interface. -/
structure HasMethod (t : Table) (id : FuncId) : Prop where
  hasFunc : t.HasFunc id
  kind : (t.func id).kind = .interfaceMethod

end Table

/-- What a type refers to is in the table, and the parts that it has from the start are older than it. The methods of an
interface are methods of interfaces. -/
structure Ty.WF (t : Table) (index : Nat) (ty : Ty) : Prop where
  parts : ∀ c ∈ ty.parts, c.index < index
  filledIn : ∀ c ∈ ty.filledIn, t.HasType c
  funcs : ∀ f ∈ ty.funcs, t.HasFunc f
  methods : ty.isInterface = true → ∀ f ∈ ty.funcs, t.HasMethod f

/-- What a function refers to is in the table; if it is a copy, then of a function of the same name that
is no copy itself. -/
structure Func.WF (t : Table) (f : Func) : Prop where
  parts : ∀ c ∈ f.parts, t.HasType c
  origin : ∀ o, f.origin = some o →
    t.HasFunc o ∧ (t.func o).name = f.name ∧ (t.func o).origin = none

/-! ## Growth -/

/-- The method sets of two interfaces are known, and are the same. -/
structure Interface.SameMethods (i j : Interface) : Prop where
  complete : i.complete = true
  methods : i.methods = j.methods
  hasTerms : i.hasTerms = j.hasTerms

/-- What stays of a type when it is filled in. A method set that is known stays as it is. -/
def Ty.Becomes : Ty → Ty → Prop
  | .named n, .named n' =>
    n'.name = n.name ∧ n'.package = n.package ∧ n'.origin = n.origin ∧ n'.typeArgs = n.typeArgs
  | .interface i, .interface i' => i'.explicit = i.explicit ∧ (i.complete = true → i'.SameMethods i)
  | .typeParam p, .typeParam p' => p'.name = p.name ∧ p'.index = p.index
  | ty, ty' => ty' = ty

/-- What stays of a function when its type is filled in. The type of a method of an interface is known from the start. -/
structure Func.Becomes (f f' : Func) : Prop where
  name : f'.name = f.name
  package : f'.package = f.package
  kind : f'.kind = f.kind
  origin : f'.origin = f.origin
  pos : f'.pos = f.pos
  sig : f.kind = .interfaceMethod → f'.sig = f.sig

theorem Interface.SameMethods.trans {i j k : Interface} (h : i.SameMethods j) (h' : j.SameMethods k) : i.SameMethods k :=
  ⟨h.complete, h.methods.trans h'.methods, h.hasTerms.trans h'.hasTerms⟩

theorem Ty.Becomes.refl (ty : Ty) : ty.Becomes ty := by
  cases ty with
  | interface i => exact ⟨rfl, fun h => ⟨h, rfl, rfl⟩⟩
  | _ => simp [Ty.Becomes]

theorem Ty.Becomes.trans {a b c : Ty} (h : a.Becomes b) (h' : b.Becomes c) : a.Becomes c := by
  cases a with
  | interface i =>
    cases b with
    | interface j =>
      cases c with
      | interface k =>
        obtain ⟨hexplicit, hsame⟩ := h
        obtain ⟨hexplicit', hsame'⟩ := h'
        exact ⟨hexplicit'.trans hexplicit, fun hi => (hsame' (hsame hi).complete).trans (hsame hi)⟩
      | _ => cases h'
    | _ => cases h
  | _ => cases b <;> cases c <;> simp_all [Ty.Becomes]

theorem Func.Becomes.refl (f : Func) : f.Becomes f := ⟨rfl, rfl, rfl, rfl, rfl, fun _ => rfl⟩

theorem Func.Becomes.trans {f g h : Func} (hfg : f.Becomes g) (hgh : g.Becomes h) : f.Becomes h :=
  ⟨hgh.name.trans hfg.name, hgh.package.trans hfg.package, hgh.kind.trans hfg.kind,
    hgh.origin.trans hfg.origin, hgh.pos.trans hfg.pos, fun hf => (hgh.sig (hfg.kind.trans hf)).trans (hfg.sig hf)⟩

namespace Table

/-- The entries of `t` are still in `t'`, up to what is filled in later. -/
structure Grows (t t' : Table) : Prop where
  types : ∀ (i : Nat) (ty : Ty), t.types[i]? = some ty → ∃ ty', t'.types[i]? = some ty' ∧ ty.Becomes ty'
  funcs : ∀ (i : Nat) (f : Func), t.funcs[i]? = some f → ∃ f', t'.funcs[i]? = some f' ∧ f.Becomes f'

namespace Grows

variable {t t' t'' : Table}

variable {id : FuncId}

theorem refl (t : Table) : t.Grows t where
  types _ ty h := ⟨ty, h, .refl ty⟩
  funcs _ f h := ⟨f, h, .refl f⟩

theorem trans (h : t.Grows t') (h' : t'.Grows t'') : t.Grows t'' where
  types i ty hty := by
    obtain ⟨ty', hty', hbecomes⟩ := h.types i ty hty
    obtain ⟨ty'', hty'', hbecomes'⟩ := h'.types i ty' hty'
    exact ⟨ty'', hty'', hbecomes.trans hbecomes'⟩
  funcs i f hf := by
    obtain ⟨f', hf', hbecomes⟩ := h.funcs i f hf
    obtain ⟨f'', hf'', hbecomes'⟩ := h'.funcs i f' hf'
    exact ⟨f'', hf'', hbecomes.trans hbecomes'⟩

theorem types_size (h : t.Grows t') : t.types.size ≤ t'.types.size := by
  by_contra hlt
  have hlt : t'.types.size < t.types.size := Nat.lt_of_not_le hlt
  obtain ⟨ty', hty', -⟩ := h.types t'.types.size _ (Array.getElem?_eq_getElem hlt)
  rw [Array.getElem?_eq_none (Nat.le_refl _)] at hty'
  cases hty'

theorem funcs_size (h : t.Grows t') : t.funcs.size ≤ t'.funcs.size := by
  by_contra hlt
  have hlt : t'.funcs.size < t.funcs.size := Nat.lt_of_not_le hlt
  obtain ⟨f', hf', -⟩ := h.funcs t'.funcs.size _ (Array.getElem?_eq_getElem hlt)
  rw [Array.getElem?_eq_none (Nat.le_refl _)] at hf'
  cases hf'

theorem hasType (h : t.Grows t') {id : TypeId} (hid : t.HasType id) : t'.HasType id :=
  Nat.lt_of_lt_of_le hid h.types_size

theorem hasFunc (h : t.Grows t') (hid : t.HasFunc id) : t'.HasFunc id :=
  Nat.lt_of_lt_of_le hid h.funcs_size

/-- A function keeps its name and all else that is not its type. -/
theorem func (h : t.Grows t') (hid : t.HasFunc id) : (t.func id).Becomes (t'.func id) := by
  obtain ⟨f', hf', hbecomes⟩ := h.funcs id.index _ (Array.getElem?_eq_getElem hid)
  simp only [Table.func, Array.getElem?_eq_getElem hid, hf', Option.getD_some]
  exact hbecomes

theorem hasMethod (h : t.Grows t') (hid : t.HasMethod id) : t'.HasMethod id :=
  ⟨h.hasFunc hid.hasFunc, (h.func hid.hasFunc).kind.trans hid.kind⟩

end Grows

end Table

theorem Ty.WF.of_grows {t t' : Table} {i : Nat} (h : ty.WF t i) (hgrows : t.Grows t') : ty.WF t' i where
  parts := h.parts
  filledIn c hc := hgrows.hasType (h.filledIn c hc)
  funcs f hf := hgrows.hasFunc (h.funcs f hf)
  methods hty f hf := hgrows.hasMethod (h.methods hty f hf)

theorem Func.WF.of_grows {t t' : Table} {f : Func} (h : f.WF t) (hgrows : t.Grows t') : f.WF t' where
  parts c hc := hgrows.hasType (h.parts c hc)
  origin o ho := by
    obtain ⟨hhas, hname, horigin⟩ := h.origin o ho
    have hbecomes := hgrows.func hhas
    exact ⟨hgrows.hasFunc hhas, hbecomes.name.trans hname, hbecomes.origin.trans horigin⟩

/-! ## Well-formed tables -/

namespace Table

variable {id : TypeId}

/-- All references are in range, and the predeclared entries are there. -/
structure WF (t : Table) : Prop where
  base : predeclared.Grows t
  types : ∀ (i : Nat) (ty : Ty), t.types[i]? = some ty → ty.WF t i
  funcs : ∀ (i : Nat) (f : Func), t.funcs[i]? = some f → f.WF t

variable {t t' : Table}

theorem hasType_iff : t.HasType id ↔ ∃ ty, t.types[id.index]? = some ty :=
  ⟨fun h => ⟨_, Array.getElem?_eq_getElem h⟩, fun ⟨_, h⟩ => (Array.getElem?_eq_some_iff.1 h).1⟩

theorem get_eq_of_getElem? {ty : Ty} (h : t.types[id.index]? = some ty) : t.get id = ty := by
  rw [Table.get, h, Option.getD_some]

theorem HasType.getElem? (h : t.HasType id) : t.types[id.index]? = some (t.get id) := by
  obtain ⟨ty, hty⟩ := hasType_iff.1 h
  rw [hty, get_eq_of_getElem? hty]

theorem HasFunc.getElem? {id : FuncId} (h : t.HasFunc id) : t.funcs[id.index]? = some (t.func id) := by
  rw [Table.func, Array.getElem?_eq_getElem h, Option.getD_some]

theorem get_eq_invalid_of_not_hasType (h : ¬ t.HasType id) : t.get id = .invalid := by
  rw [Table.get, Array.getElem?_eq_none (Nat.le_of_not_lt h), Option.getD_none]

theorem hasType_of_get_ne_invalid (h : t.get id ≠ .invalid) : t.HasType id := by
  by_contra hno
  exact h (get_eq_invalid_of_not_hasType hno)

namespace WF

theorem hasType_of_lt (h : t.WF) {id : TypeId} (hid : id.index < 31) : t.HasType id :=
  h.base.hasType hid

theorem hasType_invalid (h : t.WF) : t.HasType .invalid := h.hasType_of_lt (by decide)

/-- The entry of a type is well formed, also where there is none. -/
theorem get (h : t.WF) (id : TypeId) : (t.get id).WF t id.index := by
  by_cases hid : t.HasType id
  · exact h.types id.index _ hid.getElem?
  · rw [Table.get, Array.getElem?_eq_none (Nat.le_of_not_lt hid), Option.getD_none]
    exact ⟨by simp [Ty.parts], by simp [Ty.filledIn], by simp [Ty.funcs], nofun⟩

theorem hasType_part (h : t.WF) (id : TypeId) {c : TypeId} (hc : c ∈ (t.get id).parts) : t.HasType c := by
  have hid : t.HasType id := by
    refine hasType_of_get_ne_invalid fun hinv => ?_
    rw [hinv] at hc
    cases hc
  exact Nat.lt_trans ((h.get id).parts c hc) hid

theorem hasType_filledIn (h : t.WF) (id : TypeId) {c : TypeId} (hc : c ∈ (t.get id).filledIn) : t.HasType c :=
  (h.get id).filledIn c hc

theorem hasFunc (h : t.WF) (id : TypeId) {f : FuncId} (hf : f ∈ (t.get id).funcs) : t.HasFunc f :=
  (h.get id).funcs f hf

theorem hasMethod (h : t.WF) {id : TypeId} {i : Interface} (hget : t.get id = .interface i) {f : FuncId}
    (hf : f ∈ i.explicit ++ i.methods) : t.HasMethod f := by
  have hwf := h.get id
  rw [hget] at hwf
  exact hwf.methods rfl f hf

/-- The entry of a function is well formed, also where there is none. -/
theorem func (h : t.WF) (id : FuncId) : (t.func id).WF t := by
  by_cases hid : t.HasFunc id
  · exact h.funcs id.index _ hid.getElem?
  · rw [Table.func, Array.getElem?_eq_none (Nat.le_of_not_lt hid), Option.getD_none]
    refine ⟨fun c hc => ?_, fun o ho => by cases ho⟩
    rw [List.mem_singleton.1 hc]
    exact h.hasType_invalid

theorem hasType_sig (h : t.WF) (id : FuncId) : t.HasType (t.func id).sig :=
  (h.func id).parts _ (by simp [Func.parts])

end WF

/-- A declared type keeps its name, and an instance its origin and its arguments. -/
theorem Grows.named (h : t.Grows t') {d : Named} (hget : t.get id = .named d) :
    ∃ d', t'.get id = .named d' ∧ d'.name = d.name ∧ d'.package = d.package ∧ d'.origin = d.origin ∧
      d'.typeArgs = d.typeArgs := by
  have hid : t.HasType id := hasType_of_get_ne_invalid (by rw [hget]; exact nofun)
  obtain ⟨ty', hty', hbecomes⟩ := h.types id.index _ hid.getElem?
  rw [hget] at hbecomes
  cases ty' with
  | named d' => exact ⟨d', get_eq_of_getElem? hty', hbecomes⟩
  | _ => cases hbecomes

/-- An interface keeps the methods that it declares itself, and its method set once that is known. -/
theorem Grows.interface (h : t.Grows t') {i : Interface} (hget : t.get id = .interface i) :
    ∃ i', t'.get id = .interface i' ∧ i'.explicit = i.explicit ∧ (i.complete = true → i'.SameMethods i) := by
  have hid : t.HasType id := hasType_of_get_ne_invalid (by rw [hget]; exact nofun)
  obtain ⟨ty', hty', hbecomes⟩ := h.types id.index _ hid.getElem?
  rw [hget] at hbecomes
  cases ty' with
  | interface i' => exact ⟨i', get_eq_of_getElem? hty', hbecomes⟩
  | _ => cases hbecomes

/-! ## Definitions -/

end Table

/-- Whether a type is a type parameter. -/
def Ty.isTypeParam : Ty → Bool
  | .typeParam _ => true
  | _ => false

/-- What is said about a declared type: what it is, and its type parameters. For an instance, this is worked out and not
said. -/
def Ty.definition? : Ty → Option (TypeId × List TypeId)
  | .named n => if n.origin.isNone then some (n.rhs, n.typeParams) else none
  | _ => none

/-- Whether a type is an interface whose method set is not known. -/
def Ty.isIncomplete : Ty → Bool
  | .interface i => !i.complete
  | _ => false

/-- Whether a type is an instance that has not been filled in. -/
def Ty.isUnexpanded : Ty → Bool
  | .named n => n.origin.isSome && !n.expanded
  | _ => false

/-- Whether something is missing of a type, to be filled in at once unless declarations are being read. -/
def Ty.isOpen (ty : Ty) : Bool := ty.isIncomplete || ty.isUnexpanded

theorem Ty.isOpen_eq_false : ty.isOpen = false ↔ ty.isIncomplete = false ∧ ty.isUnexpanded = false :=
  Bool.or_eq_false_iff

/-- Only instances wait to be filled in. A method set that is known has all explicit methods and is in the order of the
names; before it is known, an interface has no terms. -/
def Ty.Tidy (t : Table) : Ty → Prop
  | .named n => n.origin = none → n.expanded = true
  | .interface i => (i.complete = true →
      i.explicit ⊆ i.methods ∧ i.methods.Pairwise fun a b => (t.func a).name ≤ (t.func b).name) ∧
    (i.complete = false → i.hasTerms = false)
  | _ => True

instance (t : Table) (ty : Ty) : Decidable (ty.Tidy t) :=
  match ty with
  | .named n => inferInstanceAs (Decidable (n.origin = none → n.expanded = true))
  | .interface i => inferInstanceAs (Decidable ((i.complete = true →
      i.explicit ⊆ i.methods ∧ i.methods.Pairwise fun a b => (t.func a).name ≤ (t.func b).name) ∧
        (i.complete = false → i.hasTerms = false)))
  | .invalid | .basic _ | .pointer _ | .slice _ | .array _ _ | .map _ _ | .chan _ _ | .signature _ | .struct _ | .tuple _
  | .union _ | .typeParam _ => inferInstanceAs (Decidable True)

/-- Whether nothing has to be found out about a type at a later time. -/
def Ty.isSettled : Ty → Bool
  | .named n => n.expanded
  | .interface _ => false
  | _ => true

theorem Ty.isOpen_of_isSettled (h : ty.isSettled = true) : ty.isOpen = false := by
  cases ty with
  | named n => simp_all [Ty.isSettled, Ty.isOpen, Ty.isIncomplete, Ty.isUnexpanded]
  | interface i => cases h
  | _ => rfl

theorem Ty.Tidy.of_isSettled {t : Table} (h : ty.isSettled = true) : ty.Tidy t := by
  cases ty with
  | named n => exact fun _ => h
  | interface i => cases h
  | _ => trivial

/-- It does not matter what else there is, as long as methods keep their names. -/
theorem Ty.Tidy.of_names {t t' : Table} (h : ty.Tidy t) (hnames : ∀ m ∈ ty.funcs, (t'.func m).name = (t.func m).name) :
    ty.Tidy t' := by
  cases ty with
  | interface i =>
    refine ⟨fun hcomplete => ?_, h.2⟩
    obtain ⟨hexplicit, hsorted⟩ := h.1 hcomplete
    refine ⟨hexplicit, hsorted.imp_of_mem fun ha hb hab => ?_⟩
    rw [hnames _ (List.mem_append_right _ ha), hnames _ (List.mem_append_right _ hb)]
    exact hab
  | _ => exact h

namespace Table

variable {id id' : TypeId} {ty : Ty} {f : Ty → Ty}

/-- What is said about a declared type of the table. -/
def definition? (t : Table) (id : TypeId) : Option (TypeId × List TypeId) := (t.get id).definition?

variable {t t' : Table}

theorem Grows.isTypeParam_get (h : t.Grows t') (hid : t.HasType id) : (t'.get id).isTypeParam = (t.get id).isTypeParam := by
  obtain ⟨ty', hty', hbecomes⟩ := h.types id.index _ hid.getElem?
  rw [get_eq_of_getElem? hty']
  cases hget : t.get id <;> rw [hget] at hbecomes <;> cases ty' <;> first | rfl | cases hbecomes

/-- A method set that is known stays known. -/
theorem Grows.isIncomplete_get (h : t.Grows t') (hid : t.HasType id) (hnot : (t.get id).isIncomplete = false) :
    (t'.get id).isIncomplete = false := by
  obtain ⟨ty', hty', hbecomes⟩ := h.types id.index _ hid.getElem?
  rw [get_eq_of_getElem? hty']
  cases hget : t.get id with
  | interface i =>
    rw [hget] at hbecomes hnot
    cases ty' with
    | interface i' =>
      have hcomplete : i.complete = true := by simpa [Ty.isIncomplete] using hnot
      simp [Ty.isIncomplete, (hbecomes.2 hcomplete).complete]
    | _ => cases hbecomes
  | _ =>
    rw [hget] at hbecomes
    cases ty' with
    | interface i' => cases hbecomes
    | _ => rfl

/-- From `t` to `t'` the table has grown, and `t'` is well formed. -/
structure Advances (t t' : Table) : Prop where
  grows : t.Grows t'
  wf : t'.WF

theorem Advances.refl (h : t.WF) : t.Advances t := ⟨.refl t, h⟩

theorem Advances.trans {t'' : Table} (h : t.Advances t') (h' : t'.Advances t'') : t.Advances t'' :=
  ⟨h.grows.trans h'.grows, h'.wf⟩

/-- All entries are tidy. -/
def Tidy (t : Table) : Prop := ∀ id, (t.get id).Tidy t

/-- A table stays tidy if the entries do that are not as they were. -/
theorem Tidy.of_grows (h : t.Tidy) (hwf : t.WF) (hgrows : t.Grows t')
    (hget : ∀ id, t'.get id = t.get id ∨ (t'.get id).Tidy t') : t'.Tidy := by
  intro id
  rcases hget id with hsame | htidy
  · rw [hsame]
    exact (h id).of_names fun m hm => (hgrows.func (hwf.hasFunc id hm)).name
  · exact htidy

/-- In addition, the definitions of declared types are as they were, and a tidy table stays tidy. -/
structure Follows (t t' : Table) : Prop extends t.Advances t' where
  definitions : ∀ id, t.HasType id → t'.definition? id = t.definition? id
  tidy : t.Tidy → t'.Tidy

theorem Follows.trans {t'' : Table} (h : t.Follows t') (h' : t'.Follows t'') : t.Follows t'' where
  toAdvances := h.toAdvances.trans h'.toAdvances
  definitions id hid := (h'.definitions id (h.grows.hasType hid)).trans (h.definitions id hid)
  tidy ht := h'.tidy (h.tidy ht)

/-- In addition, declarations are being read in `t'` if they are in `t`, and unless they are, the method sets of new
interfaces are known and new instances are filled in. This is what building types comes to. -/
structure Leads (t t' : Table) : Prop extends t.Follows t' where
  deferring : t'.deferring = t.deferring
  new : t.deferring = false → ∀ id, ¬ t.HasType id → (t'.get id).isIncomplete = false
  filled : t.deferring = false → ∀ id, (t'.get id).isUnexpanded = true → (t.get id).isUnexpanded = true

/-- There is no new interface in a table of the same size. -/
theorem isIncomplete_get_of_not_hasType (h : ¬ t.HasType id) : (t.get id).isIncomplete = false := by
  rw [get_eq_invalid_of_not_hasType h]
  rfl

theorem Leads.refl (h : t.WF) : t.Leads t :=
  ⟨⟨.refl h, fun _ _ => rfl, id⟩, rfl, fun _ _ => isIncomplete_get_of_not_hasType, fun _ _ => id⟩

theorem Leads.trans {t'' : Table} (h : t.Leads t') (h' : t'.Leads t'') : t.Leads t'' where
  toFollows := h.toFollows.trans h'.toFollows
  deferring := h'.deferring.trans h.deferring
  new hdeferring id hid := by
    by_cases hid' : t'.HasType id
    · exact h'.grows.isIncomplete_get hid' (h.new hdeferring id hid)
    · exact h'.new (h.deferring.trans hdeferring) id hid'
  filled hdeferring id hid := h.filled hdeferring id (h'.filled (h.deferring.trans hdeferring) id hid)

/-- Unless declarations are being read, the method sets of all interfaces are known. -/
def MethodSetsKnown (t : Table) : Prop := t.deferring = false → ∀ id, (t.get id).isIncomplete = false

theorem hasType_of_isIncomplete_get (h : (t.get id).isIncomplete = true) : t.HasType id := by
  by_contra hid
  rw [isIncomplete_get_of_not_hasType hid] at h
  cases h

theorem mem_incomplete : id ∈ t.incomplete ↔ (t.get id).isIncomplete = true := by
  show id ∈ ((List.range t.types.size).map TypeId.mk).filter (fun id => (t.get id).isIncomplete) ↔ _
  rw [List.mem_filter, and_iff_right_iff_imp]
  intro h
  exact List.mem_map.2 ⟨id.index, List.mem_range.2 (hasType_of_isIncomplete_get h), rfl⟩

theorem Leads.methodSetsKnown_of_forall (h : t.Leads t')
    (hfound : t.deferring = false → ∀ id ∈ t.incomplete, (t'.get id).isIncomplete = false) : t'.MethodSetsKnown := by
  intro hdeferring id
  have hdeferring := h.deferring.symm.trans hdeferring
  by_cases hid : t.HasType id
  · cases hknown : (t.get id).isIncomplete with
    | true => exact hfound hdeferring id (mem_incomplete.2 hknown)
    | false => exact h.grows.isIncomplete_get hid hknown
  · exact h.new hdeferring id hid

theorem Leads.methodSetsKnown (h : t.Leads t') (hknown : t.MethodSetsKnown) : t'.MethodSetsKnown := by
  refine h.methodSetsKnown_of_forall fun hdeferring id hid => ?_
  rw [mem_incomplete, hknown hdeferring id] at hid
  cases hid

/-- Unless declarations are being read, all instances are filled in. -/
def InstancesFilled (t : Table) : Prop := t.deferring = false → ∀ id, (t.get id).isUnexpanded = false

theorem Leads.instancesFilled (h : t.Leads t') (hfilled : t.InstancesFilled) : t'.InstancesFilled := by
  intro hdeferring id
  have hdeferring := h.deferring.symm.trans hdeferring
  by_contra hid
  have hopen := h.filled hdeferring id (by simpa using hid)
  rw [hfilled hdeferring id] at hopen
  cases hopen

theorem mem_unexpanded (h : (t.get id).isUnexpanded = true) : id ∈ t.unexpanded := by
  cases hget : t.get id with
  | named d =>
    have hid : t.HasType id := hasType_of_get_ne_invalid (by simp [hget])
    refine List.mem_filter.2 ⟨List.mem_map.2 ⟨id.index, List.mem_range.2 hid, rfl⟩, ?_⟩
    rw [hget] at h ⊢
    exact (Bool.and_eq_true_iff.1 h).2
  | _ =>
    rw [hget] at h
    cases h

theorem instancesFilled_predeclared : predeclared.InstancesFilled := by
  intro _ id
  have hnone : predeclared.unexpanded = [] := by decide
  by_contra hid
  have hmem := mem_unexpanded (by simpa using hid)
  rw [hnone] at hmem
  cases hmem

theorem methodSetsKnown_predeclared : predeclared.MethodSetsKnown := by
  intro _ id
  have hnone : predeclared.incomplete = [] := by decide
  rw [← Bool.not_eq_true, ← mem_incomplete, hnone]
  exact List.not_mem_nil

theorem tidy_predeclared : predeclared.Tidy := by
  intro id
  by_cases hid : predeclared.HasType id
  · have hall : ∀ i : Fin predeclared.types.size, (predeclared.get ⟨i⟩).Tidy predeclared := by
      decide
    exact hall ⟨id.index, hid⟩
  · rw [get_eq_invalid_of_not_hasType hid]
    trivial

/-! ## New entries -/

theorem WF.follows_push (h : t.WF) (hparts : ∀ c ∈ ty.parts, t.HasType c) (hfilled : ∀ c ∈ ty.filledIn, t.HasType c)
    (hfuncs : ∀ f ∈ ty.funcs, t.HasMethod f) (htidy : ty.Tidy t) : t.Follows { t with types := t.types.push ty } := by
  have hgrows : t.Grows { t with types := t.types.push ty } := by
    refine ⟨fun i ty' hty' => ⟨ty', ?_, .refl ty'⟩, fun i f hf => ⟨f, hf, .refl f⟩⟩
    have hi := (Array.getElem?_eq_some_iff.1 hty').1
    show (t.types.push ty)[i]? = some ty'
    rw [Array.getElem?_push, if_neg (Nat.ne_of_lt hi), hty']
  have hwf : { t with types := t.types.push ty : Table }.WF := by
    refine ⟨h.base.trans hgrows, fun i ty' hty' => ?_, fun i f hf => (h.funcs i f hf).of_grows hgrows⟩
    have hty' : (t.types.push ty)[i]? = some ty' := hty'
    rw [Array.getElem?_push] at hty'
    split at hty'
    · rename_i hi
      cases hty'
      subst hi
      exact ⟨hparts, fun c hc => hgrows.hasType (hfilled c hc), fun f hf => hgrows.hasFunc (hfuncs f hf).hasFunc,
        fun _ f hf => hgrows.hasMethod (hfuncs f hf)⟩
    · exact (h.types i ty' hty').of_grows hgrows
  have hold : ∀ {id : TypeId}, id.index ≠ t.types.size → { t with types := t.types.push ty : Table }.get id = t.get id := by
    intro id hne
    show (t.types.push ty)[id.index]?.getD .invalid = _
    rw [Array.getElem?_push, if_neg hne]
    rfl
  refine ⟨⟨hgrows, hwf⟩, fun id hid => congrArg Ty.definition? (hold (Nat.ne_of_lt hid)), fun ht => ?_⟩
  refine ht.of_grows h hgrows fun id => ?_
  by_cases hnew : id.index = t.types.size
  · right
    show ((t.types.push ty)[id.index]?.getD .invalid).Tidy _
    rw [hnew, Array.getElem?_push_size, Option.getD_some]
    exact htidy.of_names fun _ _ => rfl
  · exact .inl (hold hnew)

theorem not_hasType_push (hid : ¬ t.HasType id) (hindex : id.index ≠ t.types.size) :
    ¬ { t with types := t.types.push ty : Table }.HasType id := by
  intro hhas
  have hlt : id.index < (t.types.push ty).size := hhas
  rw [Array.size_push] at hlt
  exact hid (Nat.lt_of_le_of_ne (Nat.le_of_lt_succ hlt) hindex)

theorem get_push_of_not_hasType (hid : ¬ t.HasType id) :
    { t with types := t.types.push ty : Table }.get id = if id.index = t.types.size then ty else .invalid := by
  show (t.types.push ty)[id.index]?.getD .invalid = _
  split
  · rename_i hindex
    rw [hindex, Array.getElem?_push_size, Option.getD_some]
  · rename_i hindex
    exact get_eq_invalid_of_not_hasType (not_hasType_push hid hindex)

/-- The only instance that may have to be filled in after an entry is the one that is entered. -/
theorem isUnexpanded_get_push (h : ({ t with types := t.types.push ty : Table }.get id).isUnexpanded = true) :
    (t.get id).isUnexpanded = true ∨ ¬ t.HasType id ∧ id.index = t.types.size ∧ ty.isUnexpanded = true := by
  by_cases hid : t.HasType id
  · have hget : (t.types.push ty)[id.index]?.getD .invalid = t.get id := by
      rw [Array.getElem?_push, if_neg (Nat.ne_of_lt hid)]
      rfl
    exact .inl ((congrArg Ty.isUnexpanded hget).symm.trans h)
  · rw [get_push_of_not_hasType hid] at h
    split at h
    · rename_i hindex
      exact .inr ⟨hid, hindex, h⟩
    · cases h

/-- A type of which nothing is missing may be entered at any time. -/
theorem WF.push (h : t.WF) (hparts : ∀ c ∈ ty.parts, t.HasType c) (hfilled : ∀ c ∈ ty.filledIn, t.HasType c)
    (hfuncs : ∀ f ∈ ty.funcs, t.HasMethod f) (hsettled : ty.isSettled = true) :
    t.Leads { t with types := t.types.push ty } := by
  obtain ⟨hcomplete, hexpanded⟩ := Ty.isOpen_eq_false.1 (Ty.isOpen_of_isSettled hsettled)
  refine ⟨h.follows_push hparts hfilled hfuncs (.of_isSettled hsettled), rfl, fun _ id hid => ?_, fun _ id hopen => ?_⟩
  · rw [get_push_of_not_hasType hid]
    split
    · exact hcomplete
    · rfl
  · rcases isUnexpanded_get_push hopen with hopen | ⟨-, -, hopen⟩
    · exact hopen
    · rw [hexpanded] at hopen
      cases hopen

/-- A function that refers only to what the table has may be entered. -/
theorem WF.pushFunc (h : t.WF) {f : Func} (hf : f.WF t) : t.Leads { t with funcs := t.funcs.push f } := by
  have hgrows : t.Grows { t with funcs := t.funcs.push f } := by
    refine ⟨fun i ty hty => ⟨ty, hty, .refl ty⟩, fun i f' hf' => ⟨f', ?_, .refl f'⟩⟩
    have hi := (Array.getElem?_eq_some_iff.1 hf').1
    show (t.funcs.push f)[i]? = some f'
    rw [Array.getElem?_push, if_neg (Nat.ne_of_lt hi), hf']
  refine ⟨⟨⟨hgrows, h.base.trans hgrows,
    fun i ty hty => (h.types i ty hty).of_grows hgrows, fun i f' hf' => ?_⟩,
    fun _ _ => rfl, fun ht => ht.of_grows h hgrows fun _ => .inl rfl⟩, rfl,
    fun _ id hid => isIncomplete_get_of_not_hasType (t := t) hid, fun _ _ hopen => hopen⟩
  have hf' : (t.funcs.push f)[i]? = some f' := hf'
  rw [Array.getElem?_push] at hf'
  split at hf'
  · cases hf'
    exact hf.of_grows hgrows
  · exact (h.funcs i f' hf').of_grows hgrows

/-! ## Entries that are filled in -/

theorem getElem?_modifyType (t : Table) (id : TypeId) (f : Ty → Ty) (i : Nat) :
    (t.modifyType id f).types[i]? = if id.index = i then t.types[i]?.map f else t.types[i]? :=
  Array.getElem?_modify

theorem getElem?_modifyFunc (t : Table) (id : FuncId) (f : Func → Func) (i : Nat) :
    (t.modifyFunc id f).funcs[i]? = if id.index = i then t.funcs[i]?.map f else t.funcs[i]? :=
  Array.getElem?_modify

theorem hasType_modifyType {c : TypeId} : (t.modifyType id f).HasType c ↔ t.HasType c := by
  simp [HasType, Table.modifyType]

/-- A type that is not touched stays well formed when another one is filled in. -/
theorem WF.types_modifyType (h : t.WF) (hf : ∀ ty, t.types[id.index]? = some ty → (f ty).WF t id.index) {i : Nat}
    (hty : (t.modifyType id f).types[i]? = some ty) : ty.WF (t.modifyType id f) i := by
  have hwf : ty.WF t i := by
    rw [getElem?_modifyType] at hty
    split at hty
    · rename_i hi
      subst hi
      obtain ⟨ty', hty', rfl⟩ := Option.map_eq_some_iff.1 hty
      exact hf ty' hty'
    · exact h.types i ty hty
  exact ⟨hwf.parts, fun c hc => hasType_modifyType.2 (hwf.filledIn c hc), hwf.funcs,
    fun hi g hg => ⟨(hwf.methods hi g hg).hasFunc, (hwf.methods hi g hg).kind⟩⟩

/-- The entry of a type may be filled in with what the table has, if it becomes this of what it was at an earlier time. -/
theorem WF.modifyType_of_grows {t₀ : Table} (h : t.WF) (hwf₀ : t₀.WF) (hgrows₀ : t₀.Grows t)
    (hbecomes : ∀ ty₀ ty, t₀.types[id.index]? = some ty₀ → t.types[id.index]? = some ty → ty₀.Becomes (f ty))
    (hf : ∀ ty, t.types[id.index]? = some ty → (f ty).WF t id.index) : t₀.Advances (t.modifyType id f) := by
  have hgrows : t₀.Grows (t.modifyType id f) := by
    refine ⟨fun i ty₀ hty₀ => ?_, hgrows₀.funcs⟩
    obtain ⟨ty, hty, hbecomes₀⟩ := hgrows₀.types i ty₀ hty₀
    rw [getElem?_modifyType]
    split
    · rename_i hi
      subst hi
      exact ⟨f ty, by rw [hty, Option.map_some], hbecomes ty₀ ty hty₀ hty⟩
    · exact ⟨ty, hty, hbecomes₀⟩
  refine ⟨hgrows, hwf₀.base.trans hgrows, fun i ty hty => h.types_modifyType hf hty, fun i g hg => ?_⟩
  have hwf := h.funcs i g hg
  exact ⟨fun c hc => hasType_modifyType.2 (hwf.parts c hc), hwf.origin⟩

theorem WF.modifyType (h : t.WF) (hf : ∀ ty, t.types[id.index]? = some ty → ty.Becomes (f ty) ∧ (f ty).WF t id.index) :
    t.Advances (t.modifyType id f) := by
  refine h.modifyType_of_grows h (.refl t) (fun ty₀ ty hty₀ hty => ?_) fun ty hty => (hf ty hty).2
  rw [hty₀] at hty
  cases hty
  exact (hf ty₀ hty₀).1

theorem get_modifyType_of_ne (h : id' ≠ id) (f : Ty → Ty) : (t.modifyType id f).get id' = t.get id' := by
  have hindex : id.index ≠ id'.index := fun heq => h (by cases id; cases id'; cases heq; rfl)
  rw [Table.get, getElem?_modifyType, if_neg hindex]
  rfl

theorem get_modifyType_self (hid : t.HasType id) (f : Ty → Ty) : (t.modifyType id f).get id = f (t.get id) := by
  rw [Table.get, getElem?_modifyType, if_pos rfl, hid.getElem?]
  rfl

theorem isUnexpanded_get_modifyType (hf : (f (t.get id)).isUnexpanded = true → (t.get id).isUnexpanded = true)
    (h : ((t.modifyType id f).get id').isUnexpanded = true) : (t.get id').isUnexpanded = true := by
  by_cases heq : id' = id
  · subst heq
    by_cases hid : t.HasType id'
    · rw [get_modifyType_self hid] at h
      exact hf h
    · rw [get_eq_invalid_of_not_hasType fun hhas => hid (hasType_modifyType.1 hhas)] at h
      cases h
  · rwa [get_modifyType_of_ne heq] at h

/-- A table stays tidy if the entry is that is filled in. -/
theorem Tidy.modifyType (h : t.Tidy) (hf : (f (t.get id)).Tidy t) : (t.modifyType id f).Tidy := by
  intro id'
  have hnames : ∀ {ty : Ty}, ty.Tidy t → ty.Tidy (t.modifyType id f) := fun hty => hty.of_names fun _ _ => rfl
  by_cases heq : id' = id
  · subst heq
    by_cases hid : t.HasType id'
    · rw [get_modifyType_self hid]
      exact hnames hf
    · rw [get_eq_invalid_of_not_hasType fun hhas => hid (hasType_modifyType.1 hhas)]
      trivial
  · rw [get_modifyType_of_ne heq]
    exact hnames (h id')

theorem Advances.of_definition? (h : t.Advances (t.modifyType id f))
    (hf : (f (t.get id)).definition? = (t.get id).definition?)
    (hfilled : (f (t.get id)).isUnexpanded = true → (t.get id).isUnexpanded = true)
    (htidy : (t.get id).Tidy t → (f (t.get id)).Tidy t) : t.Leads (t.modifyType id f) := by
  refine ⟨⟨h, fun id' hid' => ?_, fun ht => ht.modifyType (htidy (ht id))⟩, rfl, fun _ id' hid' => ?_,
    fun _ id' => isUnexpanded_get_modifyType hfilled⟩
  · by_cases heq : id' = id
    · subst heq
      rw [definition?, definition?, get_modifyType_self hid', hf]
    · rw [definition?, definition?, get_modifyType_of_ne heq]
  · exact isIncomplete_get_of_not_hasType fun hhas => hid' (hasType_modifyType.1 hhas)

theorem WF.modifyNamed (h : t.WF) {f : Named → Named} (hf : ∀ n, t.types[id.index]? = some (.named n) →
      (Ty.named n).Becomes (.named (f n)) ∧ (∀ c ∈ (Ty.named (f n)).filledIn, t.HasType c) ∧
        ∀ m ∈ (f n).methods, t.HasFunc m) : t.Advances (t.modifyNamed id f) := by
  refine h.modifyType fun ty hty => ?_
  have hwf := h.types id.index ty hty
  cases ty with
  | named n =>
    obtain ⟨hbecomes, hfilled, hmethods⟩ := hf n hty
    refine ⟨hbecomes, fun c hc => ?_, hfilled, hmethods, nofun⟩
    obtain ⟨-, -, horigin, hargs⟩ := hbecomes
    simp only [Ty.parts, horigin, hargs] at hc
    exact hwf.parts c hc
  | _ => exact ⟨.refl _, hwf⟩

theorem definition?_modifyInterface (id : TypeId) (f : Interface → Interface) (id' : TypeId) :
    (t.modifyInterface id f).definition? id' = t.definition? id' := by
  rw [definition?, definition?, modifyInterface]
  by_cases heq : id' = id
  · subst heq
    by_cases hid : t.HasType id'
    · rw [get_modifyType_self hid]
      cases t.get id' <;> rfl
    · rw [get_eq_invalid_of_not_hasType hid, get_eq_invalid_of_not_hasType fun h => hid (hasType_modifyType.1 h)]
  · rw [get_modifyType_of_ne heq]

theorem isIncomplete_get_modifyInterface {f : Interface → Interface}
    (hf : ∀ i, t.get id = .interface i → i.complete = true → (f i).complete = true) (h : (t.get id').isIncomplete = false) :
    ((t.modifyInterface id f).get id').isIncomplete = false := by
  rw [modifyInterface]
  by_cases heq : id' = id
  · subst heq
    by_cases hid : t.HasType id'
    · rw [get_modifyType_self hid]
      cases hget : t.get id' with
      | interface i =>
        rw [hget] at h
        have hcomplete : i.complete = true := by simpa [Ty.isIncomplete] using h
        simp [Ty.isIncomplete, hf i hget hcomplete]
      | _ => rfl
    · exact isIncomplete_get_of_not_hasType fun hhas => hid (hasType_modifyType.1 hhas)
  · rwa [get_modifyType_of_ne heq]

/-- What may be filled in at an interface. A method set that was known at an earlier time must stay. -/
theorem Leads.modifyInterface {t₀ : Table} (h : t₀.Leads t) (hwf₀ : t₀.WF) {f : Interface → Interface}
    (hf : ∀ i, t.get id = .interface i → (f i).explicit = i.explicit ∧ (f i).embedded ⊆ i.embedded ∧
      (∀ m ∈ (f i).methods, t.HasMethod m) ∧ (i.complete = true → (f i).complete = true))
    (hsame : ∀ i₀ i, t₀.get id = .interface i₀ → t.get id = .interface i → i₀.complete = true → (f i).SameMethods i)
    (htidy : ∀ i, t.get id = .interface i → (Ty.interface i).Tidy t → (Ty.interface (f i)).Tidy t) :
    t₀.Leads (t.modifyInterface id f) := by
  have hadvances : t₀.Advances (t.modifyInterface id f) := by
    refine h.wf.modifyType_of_grows hwf₀ h.grows (fun ty₀ ty hty₀ hty => ?_) fun ty hty => ?_
    · obtain ⟨ty', hty', hbecomes⟩ := h.grows.types _ ty₀ hty₀
      rw [hty] at hty'
      cases hty'
      cases ty with
      | interface i =>
        cases ty₀ with
        | interface i₀ =>
          obtain ⟨hexplicit, hcomplete⟩ := hbecomes
          refine ⟨(hf i (get_eq_of_getElem? hty)).1.trans hexplicit, fun hi₀ => ?_⟩
          exact (hsame i₀ i (get_eq_of_getElem? hty₀) (get_eq_of_getElem? hty) hi₀).trans (hcomplete hi₀)
        | _ => cases hbecomes
      | _ => exact hbecomes
    · have hwf := h.wf.types id.index ty hty
      cases ty with
      | interface i =>
        obtain ⟨hexplicit, hembedded, hmethods, -⟩ := hf i (get_eq_of_getElem? hty)
        have hfuncs : ∀ m ∈ (Ty.interface (f i)).funcs, t.HasMethod m := by
          intro m hm
          rcases List.mem_append.1 hm with hm | hm
          · rw [hexplicit] at hm
            exact hwf.methods rfl m (List.mem_append_left _ hm)
          · exact hmethods m hm
        exact ⟨fun c hc => hwf.parts c (hembedded hc), by simp [Ty.filledIn], fun m hm => (hfuncs m hm).hasFunc,
          fun _ m hm => hfuncs m hm⟩
      | _ => exact hwf
  refine ⟨⟨hadvances, fun id' hid' => ?_, fun ht => (h.tidy ht).modifyType ?_⟩, h.deferring, fun hdeferring id' hid' => ?_,
    fun hdeferring id' hopen => ?_⟩
  · rw [definition?_modifyInterface]
    exact h.definitions id' hid'
  · have hold := h.tidy ht id
    cases hget : t.get id with
    | interface i =>
      rw [hget] at hold
      exact htidy i hget hold
    | _ => rwa [hget] at hold
  · exact isIncomplete_get_modifyInterface (fun i hi => (hf i hi).2.2.2) (h.new hdeferring id' hid')
  · refine h.filled hdeferring id' (isUnexpanded_get_modifyType (fun hopen => ?_) hopen)
    cases hget : t.get id with
    | interface i =>
      rw [hget] at hopen
      cases hopen
    | _ => rwa [hget] at hopen

theorem WF.modifyFunc (h : t.WF) {id : FuncId} {f : Func → Func}
    (hf : ∀ g, t.funcs[id.index]? = some g → g.Becomes (f g) ∧ t.HasType (f g).sig ∧ ∀ c ∈ (f g).typeParams, t.HasType c) :
    t.Leads (t.modifyFunc id f) := by
  have hgrows : t.Grows (t.modifyFunc id f) := by
    refine ⟨fun i ty hty => ⟨ty, hty, .refl ty⟩, fun i g hg => ?_⟩
    rw [getElem?_modifyFunc]
    split
    · rename_i hi
      subst hi
      exact ⟨f g, by rw [hg, Option.map_some], (hf g hg).1⟩
    · exact ⟨g, hg, .refl g⟩
  refine ⟨⟨⟨hgrows, h.base.trans hgrows,
    fun i ty hty => (h.types i ty hty).of_grows hgrows, fun i g hg => ?_⟩,
    fun _ _ => rfl, fun ht => ht.of_grows h hgrows fun _ => .inl rfl⟩, rfl,
    fun _ id hid => isIncomplete_get_of_not_hasType (t := t) hid, fun _ _ hopen => hopen⟩
  rw [getElem?_modifyFunc] at hg
  split at hg
  · rename_i hi
    subst hi
    obtain ⟨g', hg', rfl⟩ := Option.map_eq_some_iff.1 hg
    obtain ⟨hbecomes, hsig, hparams⟩ := hf g' hg'
    have hwf := (h.funcs _ g' hg').of_grows hgrows
    refine ⟨fun c hc => ?_, fun o ho => ?_⟩
    · simp only [Func.parts, hbecomes.kind, List.cons_append, List.mem_cons, List.mem_append] at hc
      rcases hc with rfl | hc | hc
      · exact hgrows.hasType hsig
      · exact hgrows.hasType (hparams c hc)
      · exact hwf.parts c (by simp [Func.parts, hc])
    · rw [hbecomes.origin] at ho
      rw [hbecomes.name]
      exact hwf.origin o ho
  · exact (h.funcs i g hg).of_grows hgrows

theorem WF.setRhs (h : t.WF) {rhs : TypeId} (hrhs : t.HasType rhs) : t.Advances (t.setRhs id rhs) := by
  refine h.modifyNamed fun n hn => ⟨⟨rfl, rfl, rfl, rfl⟩, fun c hc => ?_, (h.types _ _ hn).funcs⟩
  rcases List.mem_cons.1 hc with rfl | hc
  · exact hrhs
  · exact (h.types _ _ hn).filledIn c (List.mem_cons_of_mem _ hc)

theorem WF.setRhs_instance (h : t.WF) {rhs : TypeId} (hrhs : t.HasType rhs) {d : Named} {origin : TypeId}
    (hget : t.get id = .named d) (horigin : d.origin = some origin) : t.Leads (t.setRhs id rhs) := by
  refine (h.setRhs hrhs).of_definition? ?_ ?_ ?_
  · rw [hget]
    simp [Ty.definition?, horigin]
  · rw [hget]
    exact fun hopen => hopen
  · rw [hget]
    exact fun htidy => htidy

theorem WF.setTypeParams (h : t.WF) {params : List TypeId} (hparams : ∀ p ∈ params, t.HasType p) :
    t.Advances (t.setTypeParams id params) := by
  refine h.modifyNamed fun n hn => ⟨⟨rfl, rfl, rfl, rfl⟩, fun c hc => ?_, (h.types _ _ hn).funcs⟩
  rcases List.mem_cons.1 hc with rfl | hc
  · exact (h.types _ _ hn).filledIn _ (by simp [Ty.filledIn])
  · exact hparams c hc

theorem WF.addMethod (h : t.WF) {m : FuncId} (hm : t.HasFunc m) : t.Leads (t.addMethod id m) := by
  have hadvances : t.Advances (t.addMethod id m) := by
    refine h.modifyNamed fun n hn => ⟨⟨rfl, rfl, rfl, rfl⟩, (h.types _ _ hn).filledIn, fun f hf => ?_⟩
    rcases List.mem_append.1 hf with hf | hf
    · exact (h.types _ _ hn).funcs f hf
    · rw [List.mem_singleton.1 hf]
      exact hm
  refine hadvances.of_definition? ?_ ?_ ?_
  · cases t.get id <;> rfl
  · cases t.get id <;> exact fun hopen => hopen
  · cases t.get id <;> exact fun htidy => htidy

theorem WF.markExpanded (h : t.WF) : t.Leads (t.modifyNamed id fun d => { d with expanded := true }) := by
  have hadvances : t.Advances (t.modifyNamed id fun d => { d with expanded := true }) :=
    h.modifyNamed fun _ hn => ⟨⟨rfl, rfl, rfl, rfl⟩, (h.types _ _ hn).filledIn, (h.types _ _ hn).funcs⟩
  refine hadvances.of_definition? ?_ ?_ ?_
  · cases t.get id <;> rfl
  · cases t.get id <;> simp [Ty.isUnexpanded]
  · cases t.get id with
    | named n => exact fun _ _ => rfl
    | _ => exact fun htidy => htidy

theorem WF.clearEmbedded (h : t.WF) : t.Leads (t.clearEmbedded id) := by
  refine (Leads.refl h).modifyInterface h (fun i hi => ?_) (fun i₀ i hi₀ hi hcomplete => ?_) fun _ _ htidy => htidy
  · exact ⟨rfl, by simp, fun m hm => h.hasMethod hi (List.mem_append_right _ hm), fun hcomplete => hcomplete⟩
  · rw [hi₀] at hi
    cases hi
    exact ⟨hcomplete, rfl, rfl⟩

theorem WF.setConstraint (h : t.WF) {param constraint : TypeId} (hc : t.HasType constraint) :
    t.Leads (t.setConstraint param constraint) := by
  refine (h.modifyType fun ty hty => ?_).of_definition? ?_ ?_ ?_
  · have hwf := h.types param.index ty hty
    cases ty with
    | typeParam p => exact ⟨⟨rfl, rfl⟩, by simp [Ty.parts], by simpa [Ty.filledIn] using hc, by simp [Ty.funcs], nofun⟩
    | _ => exact ⟨.refl _, hwf⟩
  · cases t.get param <;> rfl
  · cases t.get param <;> exact fun hopen => hopen
  · cases t.get param <;> exact fun htidy => htidy

theorem WF.setDeferring (h : t.WF) (b : Bool) : t.Follows { t with deferring := b } :=
  ⟨⟨⟨fun _ ty hty => ⟨ty, hty, .refl ty⟩, fun _ f hf => ⟨f, hf, .refl f⟩⟩, ⟨h.base.types, h.base.funcs⟩,
    fun i ty hty => ⟨(h.types i ty hty).parts, (h.types i ty hty).filledIn, (h.types i ty hty).funcs,
      fun hi f hf => ⟨((h.types i ty hty).methods hi f hf).hasFunc, ((h.types i ty hty).methods hi f hf).kind⟩⟩,
    fun i f hf => ⟨(h.funcs i f hf).parts, (h.funcs i f hf).origin⟩⟩, fun _ _ => rfl,
    fun ht id => (ht id).of_names fun _ _ => rfl⟩

/-- The table with which every program starts is well formed. -/
theorem WF.predeclared : Table.predeclared.WF where
  base := .refl _
  types i ty hty := by
    have hparts : ∀ i : Fin Table.predeclared.types.size,
        ∀ c ∈ Table.predeclared.types[i].parts, c.index < i := by decide
    have hfilled : ∀ i : Fin Table.predeclared.types.size,
        ∀ c ∈ Table.predeclared.types[i].filledIn, c.index < Table.predeclared.types.size := by decide
    have hfuncs : ∀ i : Fin Table.predeclared.types.size, ∀ f ∈ Table.predeclared.types[i].funcs,
        f.index < Table.predeclared.funcs.size ∧ (Table.predeclared.func f).kind = .interfaceMethod := by decide
    obtain ⟨hi, rfl⟩ := Array.getElem?_eq_some_iff.1 hty
    exact ⟨hparts ⟨i, hi⟩, hfilled ⟨i, hi⟩, fun f hf => (hfuncs ⟨i, hi⟩ f hf).1,
      fun _ f hf => ⟨(hfuncs ⟨i, hi⟩ f hf).1, (hfuncs ⟨i, hi⟩ f hf).2⟩⟩
  funcs i f hf := by
    have hparts : ∀ i : Fin Table.predeclared.funcs.size,
        ∀ c ∈ Table.predeclared.funcs[i].parts, c.index < Table.predeclared.types.size := by decide
    have horigin : ∀ i : Fin Table.predeclared.funcs.size, Table.predeclared.funcs[i].origin = none := by decide
    obtain ⟨hi, rfl⟩ := Array.getElem?_eq_some_iff.1 hf
    refine ⟨hparts ⟨i, hi⟩, fun o ho => ?_⟩
    rw [show Table.predeclared.funcs[i].origin = none from horigin ⟨i, hi⟩] at ho
    cases ho

end Table

end UnusedMethods.Types
