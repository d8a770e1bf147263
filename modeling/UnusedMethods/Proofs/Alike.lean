import Mathlib.Data.List.Forall2
import UnusedMethods.Proofs.Comparison
import UnusedMethods.Proofs.Growth
import UnusedMethods.Types.Inference
import UnusedMethods.Types.Members

/-!
# Entries of tables that are built alike

The types and functions that a program makes need not stand at the same places of two tables. A `Correspondence` says which
types and functions of the one table stand for which of the other. Entries are alike if they are the same up to what
corresponds.
-/

namespace UnusedMethods.Types

open Syntax (ChanDir)

/-- Which types and functions of a table stand for which of another one. -/
structure Correspondence where
  types : TypeId → TypeId → Prop
  funcs : FuncId → FuncId → Prop
  /-- What the second table must not lose. -/
  base : Table

/-- All that corresponds goes on to correspond. -/
structure Correspondence.Grows (k k' : Correspondence) : Prop where
  types : ∀ {a b}, k.types a b → k'.types a b
  funcs : ∀ {f g}, k.funcs f g → k'.funcs f g
  base : k'.base = k.base

namespace Correspondence.Grows

variable {k k' k'' : Correspondence}

theorem refl (k : Correspondence) : k.Grows k := ⟨id, id, rfl⟩

theorem trans (h : k.Grows k') (h' : k'.Grows k'') : k.Grows k'' :=
  ⟨fun hab => h'.types (h.types hab), fun hfg => h'.funcs (h.funcs hfg), h'.base.trans h.base⟩

theorem typeList (h : k.Grows k') {as bs : List TypeId} (hab : List.Forall₂ k.types as bs) :
    List.Forall₂ k'.types as bs := hab.imp fun _ _ => h.types

theorem funcList (h : k.Grows k') {fs gs : List FuncId} (hfg : List.Forall₂ k.funcs fs gs) :
    List.Forall₂ k'.funcs fs gs := hfg.imp fun _ _ => h.funcs

end Correspondence.Grows

/-- Both are absent, or both are there and related. -/
theorem optionRel_imp {α β : Type} {R S : α → β → Prop} (h : ∀ a b, R a b → S a b) {o : Option α} {p : Option β}
    (hop : Option.Rel R o p) : Option.Rel S o p := by
  cases hop with
  | none => exact .none
  | some hab => exact .some (h _ _ hab)

theorem forall₂_toList {α β : Type} {R : α → β → Prop} {o : Option α} {p : Option β} (h : Option.Rel R o p) :
    List.Forall₂ R o.toList p.toList := by
  cases h with
  | none => exact .nil
  | some hab => exact .cons hab .nil

theorem isSome_of_optionRel {α β : Type} {R : α → β → Prop} {o : Option α} {p : Option β} (h : Option.Rel R o p) :
    p.isSome = o.isSome := by
  cases h <;> rfl

theorem optionRel_cases {α β : Type} {R : α → β → Prop} {o : Option α} {p : Option β} (h : Option.Rel R o p) :
    o = none ∧ p = none ∨ ∃ a b, o = some a ∧ p = some b ∧ R a b := by
  cases h with
  | none => exact .inl ⟨rfl, rfl⟩
  | some hab => exact .inr ⟨_, _, rfl, rfl, hab⟩

theorem rel_getD {α β : Type} {R : α → β → Prop} {o : Option α} {p : Option β} (h : Option.Rel R o p) {a : α} {b : β}
    (hab : R a b) : R (o.getD a) (p.getD b) := by
  cases h with
  | none => exact hab
  | some h => exact h

section Lists

variable {α β : Type} {R : α → β → Prop} {as : List α} {bs : List β}

theorem exists_of_mem_left (h : List.Forall₂ R as bs) {a : α} (ha : a ∈ as) : ∃ b ∈ bs, R a b := by
  induction h with
  | nil => cases ha
  | cons hab _ ih =>
    rcases List.mem_cons.1 ha with rfl | ha
    · exact ⟨_, List.mem_cons_self, hab⟩
    · exact (ih ha).imp fun _ hb => ⟨List.mem_cons_of_mem _ hb.1, hb.2⟩

theorem exists_of_mem_right (h : List.Forall₂ R as bs) {b : β} (hb : b ∈ bs) : ∃ a ∈ as, R a b :=
  exists_of_mem_left h.flip hb

theorem isEmpty_of_forall₂ (h : List.Forall₂ R as bs) : bs.isEmpty = as.isEmpty := by
  cases h <;> rfl

theorem rel_getElem? (h : List.Forall₂ R as bs) (i : Nat) : Option.Rel R as[i]? bs[i]? := by
  induction h generalizing i with
  | nil => exact .none
  | cons hab _ ih =>
    cases i with
    | zero => exact .some hab
    | succ i => exact ih i

theorem rel_headD (h : List.Forall₂ R as bs) {a : α} {b : β} (hab : R a b) : R (as.headD a) (bs.headD b) := by
  cases h with
  | nil => exact hab
  | cons hhead _ => exact hhead

/-- Of lists that correspond, one element passes a test where the other does. -/
theorem find?_rel {p : α → Bool} {q : β → Bool} (hpq : ∀ x y, R x y → q y = p x) (h : List.Forall₂ R as bs) :
    Option.Rel R (as.find? p) (bs.find? q) := by
  induction h with
  | nil => exact .none
  | @cons x y xs ys hxy _ ih =>
    rw [List.find?_cons, List.find?_cons, hpq x y hxy]
    cases p x with
    | true => exact .some hxy
    | false => exact ih

theorem forall₂_tail (h : List.Forall₂ R as bs) : List.Forall₂ R as.tail bs.tail := by
  cases h with
  | nil => exact .nil
  | cons _ h => exact h

theorem forall₂_zipIdx (h : List.Forall₂ R as bs) (n : Nat) :
    List.Forall₂ (fun p q => R p.1 q.1 ∧ q.2 = p.2) (as.zipIdx n) (bs.zipIdx n) := by
  induction h generalizing n with
  | nil => exact .nil
  | cons hab _ ih => exact .cons ⟨hab, rfl⟩ (ih (n + 1))

theorem forall₂_replicate (n : Nat) {a : α} {b : β} (hab : R a b) :
    List.Forall₂ R (List.replicate n a) (List.replicate n b) := by
  induction n with
  | zero => exact .nil
  | succ n ih => exact .cons hab ih

end Lists

/-! ## Entries that are built alike -/

section Alike

variable (k : Correspondence)

structure Named.Alike (d e : Named) : Prop where
  name : e.name = d.name
  package : e.package = d.package
  rhs : k.types d.rhs e.rhs
  methods : List.Forall₂ k.funcs d.methods e.methods
  typeParams : List.Forall₂ k.types d.typeParams e.typeParams
  origin : Option.Rel k.types d.origin e.origin
  typeArgs : List.Forall₂ k.types d.typeArgs e.typeArgs
  expanded : e.expanded = d.expanded

structure Signature.Alike (s t : Signature) : Prop where
  params : List.Forall₂ k.types s.params t.params
  results : List.Forall₂ k.types s.results t.results
  variadic : t.variadic = s.variadic

structure Interface.Alike (i j : Interface) : Prop where
  explicit : List.Forall₂ k.funcs i.explicit j.explicit
  embedded : List.Forall₂ k.types i.embedded j.embedded
  methods : List.Forall₂ k.funcs i.methods j.methods
  complete : j.complete = i.complete
  hasTerms : j.hasTerms = i.hasTerms

structure StructField.Alike (f g : StructField) : Prop where
  name : g.name = f.name
  type : k.types f.type g.type
  embedded : g.embedded = f.embedded

structure TypeParam.Alike (p q : TypeParam) : Prop where
  name : q.name = p.name
  index : q.index = p.index
  constraint : k.types p.constraint q.constraint

structure Term.Alike (x y : Term) : Prop where
  tilde : y.tilde = x.tilde
  type : k.types x.type y.type

/-- Types that are built alike, of types that correspond. -/
inductive Ty.Alike : Ty → Ty → Prop where
  | invalid : Ty.Alike .invalid .invalid
  | basic (kind : BasicKind) : Ty.Alike (.basic kind) (.basic kind)
  | named {d e : Named} (h : d.Alike k e) : Ty.Alike (.named d) (.named e)
  | pointer {a b : TypeId} (h : k.types a b) : Ty.Alike (.pointer a) (.pointer b)
  | slice {a b : TypeId} (h : k.types a b) : Ty.Alike (.slice a) (.slice b)
  | array (len : Option Nat) {a b : TypeId} (h : k.types a b) : Ty.Alike (.array len a) (.array len b)
  | map {a b c d : TypeId} (key : k.types a b) (value : k.types c d) : Ty.Alike (.map a c) (.map b d)
  | chan (dir : ChanDir) {a b : TypeId} (h : k.types a b) : Ty.Alike (.chan dir a) (.chan dir b)
  | signature {s t : Signature} (h : s.Alike k t) : Ty.Alike (.signature s) (.signature t)
  | interface {i j : Interface} (h : i.Alike k j) : Ty.Alike (.interface i) (.interface j)
  | struct {fs gs : List StructField} (h : List.Forall₂ (StructField.Alike k) fs gs) : Ty.Alike (.struct fs) (.struct gs)
  | tuple {as bs : List TypeId} (h : List.Forall₂ k.types as bs) : Ty.Alike (.tuple as) (.tuple bs)
  | typeParam {p q : TypeParam} (h : p.Alike k q) : Ty.Alike (.typeParam p) (.typeParam q)
  | union {xs ys : List Term} (h : List.Forall₂ (Term.Alike k) xs ys) : Ty.Alike (.union xs) (.union ys)

/-- Functions that belong to the same kind of thing. -/
inductive FuncKind.Alike : FuncKind → FuncKind → Prop where
  | func : FuncKind.Alike .func .func
  | method {a b : TypeId} (h : k.types a b) (pointerRecv : Bool) :
    FuncKind.Alike (.method a pointerRecv) (.method b pointerRecv)
  | interfaceMethod : FuncKind.Alike .interfaceMethod .interfaceMethod

structure Func.Alike (f g : Func) : Prop where
  name : g.name = f.name
  sig : k.types f.sig g.sig
  package : g.package = f.package
  kind : f.kind.Alike k g.kind
  typeParams : List.Forall₂ k.types f.typeParams g.typeParams
  origin : Option.Rel k.funcs f.origin g.origin
  pos : g.pos = f.pos

/-- Pairs whose sides correspond. -/
def Correspondence.Between.Pairs (k : Correspondence) (p q : TypePair) : Prop := k.types p.1 q.1 ∧ k.types p.2 q.2

/-- Fields of types that correspond, or methods that correspond. -/
inductive Member.Alike : Member → Member → Prop where
  | field {a b : TypeId} (h : k.types a b) : Member.Alike (.field a) (.field b)
  | method {f g : FuncId} (h : k.funcs f g) : Member.Alike (.method f) (.method g)

structure Lookup.Alike (x y : Lookup) : Prop where
  member : x.member.Alike k y.member
  indirect : y.indirect = x.indirect

end Alike

section Mono

variable {k k' : Correspondence}

theorem Named.Alike.mono {d e : Named} (h : d.Alike k e) (hk : k.Grows k') : d.Alike k' e where
  name := h.name
  package := h.package
  rhs := hk.types h.rhs
  methods := hk.funcList h.methods
  typeParams := hk.typeList h.typeParams
  origin := optionRel_imp (fun _ _ => hk.types) h.origin
  typeArgs := hk.typeList h.typeArgs
  expanded := h.expanded

theorem Signature.Alike.mono {s t : Signature} (h : s.Alike k t) (hk : k.Grows k') : s.Alike k' t :=
  ⟨hk.typeList h.params, hk.typeList h.results, h.variadic⟩

theorem Interface.Alike.mono {i j : Interface} (h : i.Alike k j) (hk : k.Grows k') : i.Alike k' j :=
  ⟨hk.funcList h.explicit, hk.typeList h.embedded, hk.funcList h.methods, h.complete, h.hasTerms⟩

theorem StructField.Alike.mono {f g : StructField} (h : f.Alike k g) (hk : k.Grows k') : f.Alike k' g :=
  ⟨h.name, hk.types h.type, h.embedded⟩

theorem Term.Alike.mono {x y : Term} (h : x.Alike k y) (hk : k.Grows k') : x.Alike k' y := ⟨h.tilde, hk.types h.type⟩

/-- What is built alike stays so when more types correspond. -/
theorem Ty.Alike.mono {x y : Ty} (h : x.Alike k y) (hk : k.Grows k') : x.Alike k' y := by
  cases h with
  | invalid => exact .invalid
  | basic kind => exact .basic kind
  | named h => exact .named (h.mono hk)
  | pointer h => exact .pointer (hk.types h)
  | slice h => exact .slice (hk.types h)
  | array len h => exact .array len (hk.types h)
  | map key value => exact .map (hk.types key) (hk.types value)
  | chan dir h => exact .chan dir (hk.types h)
  | signature h => exact .signature (h.mono hk)
  | interface h => exact .interface (h.mono hk)
  | struct h => exact .struct (h.imp fun _ _ hfg => hfg.mono hk)
  | tuple h => exact .tuple (hk.typeList h)
  | typeParam h => exact .typeParam ⟨h.name, h.index, hk.types h.constraint⟩
  | union h => exact .union (h.imp fun _ _ hxy => hxy.mono hk)

theorem FuncKind.Alike.mono {x y : FuncKind} (h : x.Alike k y) (hk : k.Grows k') : x.Alike k' y := by
  cases h with
  | func => exact .func
  | method h ptr => exact .method (hk.types h) ptr
  | interfaceMethod => exact .interfaceMethod

theorem Func.Alike.mono {f g : Func} (h : f.Alike k g) (hk : k.Grows k') : f.Alike k' g where
  name := h.name
  sig := hk.types h.sig
  package := h.package
  kind := h.kind.mono hk
  typeParams := hk.typeList h.typeParams
  origin := optionRel_imp (fun _ _ => hk.funcs) h.origin
  pos := h.pos

theorem Ty.Alike.parts {x y : Ty} (h : x.Alike k y) : List.Forall₂ k.types x.parts y.parts := by
  have hmap : ∀ {α : Type} {R : α → α → Prop} {part : α → TypeId} {xs ys : List α}, List.Forall₂ R xs ys →
      (∀ x y, R x y → k.types (part x) (part y)) → List.Forall₂ k.types (xs.map part) (ys.map part) := by
    intro α R part xs ys h hR
    rw [List.forall₂_map_left_iff, List.forall₂_map_right_iff]
    exact h.imp hR
  cases h with
  | invalid => exact .nil
  | basic kind => exact .nil
  | named h => exact List.rel_append h.typeArgs (forall₂_toList h.origin)
  | pointer h => exact .cons h .nil
  | slice h => exact .cons h .nil
  | array len h => exact .cons h .nil
  | map key value => exact .cons key (.cons value .nil)
  | chan dir h => exact .cons h .nil
  | signature h => exact List.rel_append h.params h.results
  | interface h => exact h.embedded
  | struct h => exact hmap h fun _ _ hfg => hfg.type
  | tuple h => exact h
  | typeParam h => exact .nil
  | union h => exact hmap h fun _ _ hxy => hxy.type

/-- What refers to types and functions that correspond to themselves is built like itself. -/
theorem Ty.alike_self {ty : Ty} (hparts : ∀ c ∈ ty.parts, k.types c c) (hfilled : ∀ c ∈ ty.filledIn, k.types c c)
    (hfuncs : ∀ f ∈ ty.funcs, k.funcs f f) : ty.Alike k ty := by
  cases ty with
  | invalid => exact .invalid
  | basic kind => exact .basic kind
  | named d =>
    obtain ⟨hargs, horigin⟩ := List.forall_mem_append.1 hparts
    obtain ⟨hrhs, hparams⟩ := List.forall_mem_cons.1 hfilled
    refine .named ⟨rfl, rfl, hrhs, List.forall₂_same.2 hfuncs, List.forall₂_same.2 hparams, ?_, List.forall₂_same.2 hargs, rfl⟩
    cases hd : d.origin with
    | none => exact .none
    | some origin => exact .some (horigin origin (by simp [hd]))
  | pointer elem => exact .pointer (hparts elem (by simp [Ty.parts]))
  | slice elem => exact .slice (hparts elem (by simp [Ty.parts]))
  | array len elem => exact .array len (hparts elem (by simp [Ty.parts]))
  | map key value => exact .map (hparts key (by simp [Ty.parts])) (hparts value (by simp [Ty.parts]))
  | chan dir elem => exact .chan dir (hparts elem (by simp [Ty.parts]))
  | signature s =>
    obtain ⟨hparams, hresults⟩ := List.forall_mem_append.1 hparts
    exact .signature ⟨List.forall₂_same.2 hparams, List.forall₂_same.2 hresults, rfl⟩
  | interface i =>
    obtain ⟨hexplicit, hmethods⟩ := List.forall_mem_append.1 hfuncs
    exact .interface ⟨List.forall₂_same.2 hexplicit, List.forall₂_same.2 hparts, List.forall₂_same.2 hmethods, rfl, rfl⟩
  | struct fields => exact .struct (List.forall₂_same.2 fun f hf => ⟨rfl, hparts f.type (List.mem_map_of_mem hf), rfl⟩)
  | tuple elems => exact .tuple (List.forall₂_same.2 hparts)
  | typeParam p => exact .typeParam ⟨rfl, rfl, hfilled _ (by simp [Ty.filledIn])⟩
  | union terms => exact .union (List.forall₂_same.2 fun x hx => ⟨rfl, hparts x.type (List.mem_map_of_mem hx)⟩)

theorem Func.alike_self {f : Func} (hparts : ∀ c ∈ f.parts, k.types c c) (horigin : ∀ o, f.origin = some o → k.funcs o o) :
    f.Alike k f := by
  refine ⟨rfl, hparts f.sig (by simp [Func.parts]), rfl, ?_,
    List.forall₂_same.2 fun c hc => hparts c (by simp [Func.parts, hc]), ?_, rfl⟩
  · cases hkind : f.kind with
    | func => exact .func
    | method recv ptr => exact .method (hparts recv (by simp [Func.parts, hkind])) ptr
    | interfaceMethod => exact .interfaceMethod
  · cases ho : f.origin with
    | none => exact .none
    | some o => exact .some (horigin o ho)

theorem forall₂_zip_pairs {as bs cs ds : List TypeId} (has : List.Forall₂ k.types as bs) (hcs : List.Forall₂ k.types cs ds) :
    List.Forall₂ (Correspondence.Between.Pairs k) (as.zip cs) (bs.zip ds) := by
  induction has generalizing cs ds with
  | nil => exact .nil
  | cons hab _ ih =>
    cases hcs with
    | nil => exact .nil
    | cons hcd hcs => exact .cons ⟨hab, hcd⟩ (ih hcs)

end Mono

/-! ## Types that stand for themselves -/

/-- The type has parts that are given when it is made, and nothing is filled in later. There may be several such types with
the same parts. -/
def Ty.isPlain : Ty → Bool
  | .array .. | .map .. | .chan .. | .signature _ | .struct _ | .tuple _ | .union _ => true
  | _ => false

/-- Each type and function stands for itself. -/
def Correspondence.same (base : Table) : Correspondence := ⟨Eq, Eq, base⟩

section Same

variable {base : Table}

theorem eq_of_forall₂ {α : Type} {R : α → α → Prop} (hR : ∀ a b, R a b → a = b) {as bs : List α} (h : List.Forall₂ R as bs) :
    as = bs :=
  List.forall₂_eq_eq_eq ▸ h.imp hR

theorem eq_of_optionRel {α : Type} {R : α → α → Prop} (hR : ∀ a b, R a b → a = b) {o o' : Option α} (h : Option.Rel R o o') :
    o = o' := by
  cases h with
  | none => rfl
  | some hab => rw [hR _ _ hab]

theorem Signature.Alike.eq {x y : Signature} (h : x.Alike (.same base) y) : x = y := by
  cases x
  cases y
  cases eq_of_forall₂ (fun _ _ => id) h.params
  cases eq_of_forall₂ (fun _ _ => id) h.results
  cases h.variadic
  rfl

theorem Func.Alike.eq {f g : Func} (h : f.Alike (.same base) g) : f = g := by
  cases f
  cases g
  cases h.name
  cases h.sig
  cases h.package
  cases eq_of_forall₂ (fun _ _ => id) h.typeParams
  cases eq_of_optionRel (fun _ _ => id) h.origin
  cases h.pos
  cases h.kind with
  | method hab ptr =>
    cases hab
    rfl
  | _ => rfl

theorem StructField.Alike.eq {x y : StructField} (h : x.Alike (.same base) y) : x = y := by
  cases x
  cases y
  cases h.name
  cases h.type
  cases h.embedded
  rfl

theorem Term.Alike.eq {x y : Term} (h : x.Alike (.same base) y) : x = y := by
  cases x
  cases y
  cases h.tilde
  cases h.type
  rfl

theorem Ty.Alike.eq_of_isPlain {x y : Ty} (h : x.Alike (.same base) y) (hx : x.isPlain = true) : x = y := by
  cases h with
  | array len h =>
    cases h
    rfl
  | map key value =>
    cases key
    cases value
    rfl
  | chan dir h =>
    cases h
    rfl
  | signature h => rw [h.eq]
  | struct h => rw [eq_of_forall₂ (fun _ _ => StructField.Alike.eq) h]
  | tuple h => rw [eq_of_forall₂ (fun _ _ => id) h]
  | union h => rw [eq_of_forall₂ (fun _ _ => Term.Alike.eq) h]
  | _ => cases hx
end Same

/-! ## Tables whose entries are alike -/

theorem Interface.Alike.methodList {k : Correspondence} {i j : Interface} (hij : i.Alike k j) : List.Forall₂ k.funcs i.methodList j.methodList := by
  unfold Interface.methodList
  rw [hij.complete]
  split
  · exact hij.methods
  · exact hij.explicit

structure Frontier.Alike (k : Correspondence) (x y : Frontier) : Prop where
  next : List.Forall₂ (fun p q => k.types p.1 q.1 ∧ q.2 = p.2) x.next y.next
  seen : List.Forall₂ k.types x.seen y.seen

namespace Correspondence

/-- What corresponds is built alike, each type to at most one of the other table. -/
structure Reads (k : Correspondence) (s t : Table) : Prop where
  types : Relator.BiUnique k.types
  get : ∀ {a b}, k.types a b → (s.get a).Alike k (t.get b)
  func : ∀ {f g}, k.funcs f g → (s.func f).Alike k (t.func g)
  predeclared : ∀ {id : TypeId}, id.index < 31 → k.types id id

namespace Reads

variable {k : Correspondence} {s t : Table} {a b : TypeId}

/-- The invalid type and the basic types correspond to themselves. -/
theorem invalid (h : k.Reads s t) : k.types .invalid .invalid := h.predeclared (by decide)

theorem basic (h : k.Reads s t) (kind : BasicKind) : k.types kind.typeId kind.typeId :=
  h.predeclared (by cases kind <;> decide)

theorem eq_iff (h : k.Reads s t) {a' b' : TypeId} (hab : k.types a b) (hab' : k.types a' b') : b = b' ↔ a = a' :=
  (Relator.rel_eq h.types hab hab').symm

theorem named? (h : k.Reads s t) (hab : k.types a b) : Option.Rel (Named.Alike k) (s.named? a) (t.named? b) := by
  have hget := h.get hab
  unfold Table.named?
  generalize s.get a = x at hget
  generalize t.get b = y at hget
  cases hget with
  | named hde => exact .some hde
  | _ => exact .none

theorem underlyingWithin (h : k.Reads s t) (n : Nat) (hab : k.types a b) :
    k.types (s.underlyingWithin n a) (t.underlyingWithin n b) := by
  induction n generalizing a b with
  | zero => exact h.invalid
  | succ n ih =>
    have hget := h.get hab
    unfold Table.underlyingWithin
    generalize s.get a = x at hget
    generalize t.get b = y at hget
    cases hget with
    | named hde => exact ih hde.rhs
    | typeParam hpq => exact ih hpq.constraint
    | _ => exact hab

theorem underlying (h : k.Reads s t) (hab : k.types a b) : k.types (s.underlying a) (t.underlying b) :=
  h.underlyingWithin 100 hab

theorem signature? (h : k.Reads s t) (hab : k.types a b) :
    Option.Rel (Signature.Alike k) (s.signature? a) (t.signature? b) := by
  have hget := h.get (h.underlying hab)
  unfold Table.signature?
  generalize s.get (s.underlying a) = x at hget
  generalize t.get (t.underlying b) = y at hget
  cases hget with
  | signature hst => exact .some hst
  | _ => exact .none

theorem deref (h : k.Reads s t) (hab : k.types a b) :
    k.types (s.deref a).1 (t.deref b).1 ∧ (t.deref b).2 = (s.deref a).2 := by
  have hget := h.get hab
  unfold Table.deref
  generalize s.get a = x at hget
  generalize t.get b = y at hget
  cases hget with
  | pointer helem => exact ⟨helem, rfl⟩
  | _ => exact ⟨hab, rfl⟩

theorem defaultType (h : k.Reads s t) (hab : k.types a b) : k.types (s.defaultType a) (t.defaultType b) := by
  have hget := h.get hab
  unfold Table.defaultType
  generalize s.get a = x at hget
  generalize t.get b = y at hget
  cases hget with
  | basic kind =>
    dsimp only
    split
    · exact h.basic _
    · exact hab
  | _ => exact hab

theorem isInvalid (h : k.Reads s t) (hab : k.types a b) : t.isInvalid b = s.isInvalid a := by
  have hget := h.get hab
  unfold Table.isInvalid
  generalize s.get a = x at hget
  generalize t.get b = y at hget
  cases hget <;> rfl

theorem name (h : k.Reads s t) {f g : FuncId} (hfg : k.funcs f g) : (t.func g).name = (s.func f).name :=
  (h.func hfg).name

theorem funcNamed? (h : k.Reads s t) (name : String) {fs gs : List FuncId} (hfg : List.Forall₂ k.funcs fs gs) :
    Option.Rel k.funcs (s.funcNamed? name fs) (t.funcNamed? name gs) := by
  refine find?_rel (fun f g hfg => ?_) hfg
  rw [h.name hfg]

theorem constraint (h : k.Reads s t) (hab : k.types a b) :
    k.types (match s.get a with | .typeParam p => p.constraint | _ => a)
      (match t.get b with | .typeParam p => p.constraint | _ => b) := by
  have hget := h.get hab
  generalize s.get a = x at hget
  generalize t.get b = y at hget
  cases hget with
  | typeParam hpq => exact hpq.constraint
  | _ => exact hab

/-! ### Members -/

theorem ownMember? (h : k.Reads s t) (name : String) (hab : k.types a b) :
    Option.Rel (Member.Alike k) (s.ownMember? name a) (t.ownMember? name b) := by
  have hattached : Option.Rel k.funcs ((s.named? a).elim none fun d => s.funcNamed? name d.methods)
      ((t.named? b).elim none fun d => t.funcNamed? name d.methods) := by
    rcases optionRel_cases (h.named? hab) with ⟨ha, hb⟩ | ⟨d, e, ha, hb, hde⟩ <;> rw [ha, hb]
    · exact .none
    · exact h.funcNamed? name hde.methods
  unfold Table.ownMember?
  dsimp only
  rcases optionRel_cases hattached with ⟨ha, hb⟩ | ⟨f, g, ha, hb, hfg⟩ <;> rw [ha, hb]
  · have hget := h.get (h.underlying (h.constraint hab))
    dsimp only
    generalize s.get (s.underlying _) = x at hget
    generalize t.get (t.underlying _) = y at hget
    cases hget with
    | struct hfs =>
      rcases optionRel_cases (find?_rel (p := (·.name = name)) (q := (·.name = name))
        (fun f g hfg => by rw [hfg.name]) hfs) with ⟨hf, hg⟩ | ⟨f, g, hf, hg, hfg⟩
      · simp only [hf, hg]
        exact .none
      · simp only [hf, hg]
        exact .some (.field hfg.type)
    | interface hij =>
      rcases optionRel_cases (h.funcNamed? name hij.methodList) with ⟨hf, hg⟩ | ⟨f, g, hf, hg, hfg⟩
      · simp only [hf, hg]
        exact .none
      · simp only [hf, hg]
        exact .some (.method hfg)
    | _ => exact .none
  · exact .some (.method hfg)

theorem embeddedTypes (h : k.Reads s t) (hab : k.types a b) :
    List.Forall₂ (fun p q => k.types p.1 q.1 ∧ q.2 = p.2) (s.embeddedTypes a) (t.embeddedTypes b) := by
  have hget := h.get (h.underlying (h.constraint hab))
  unfold Table.embeddedTypes
  dsimp only
  generalize s.get (s.underlying _) = x at hget
  generalize t.get (t.underlying _) = y at hget
  cases hget with
  | struct hfs =>
    refine List.rel_map (R := StructField.Alike k) (fun f g hfg => by exact h.deref hfg.type) ?_
    refine List.rel_filter (fun f g hfg => ?_) hfs
    show f.embedded = true ↔ g.embedded = true
    rw [hfg.embedded]
  | _ => exact .nil

theorem contains (h : k.Reads s t) {as bs : List TypeId} (hlist : List.Forall₂ k.types as bs) (hab : k.types a b) :
    bs.contains b = as.contains a := by
  rw [Bool.eq_iff_iff, List.contains_iff_mem, List.contains_iff_mem]
  exact (List.rel_mem h.types hab hlist).symm

theorem searchLevel (h : k.Reads s t) (name : String) {xs ys : List (TypeId × Bool)}
    (hxs : List.Forall₂ (fun p q => k.types p.1 q.1 ∧ q.2 = p.2) xs ys) {front front' : Frontier}
    (hfront : front.Alike k front') :
    Sum.LiftRel (Lookup.Alike k) (Frontier.Alike k) (s.searchLevel name xs front) (t.searchLevel name ys front') := by
  induction hxs generalizing front front' with
  | nil => exact .inr hfront
  | @cons x y xs ys hxy _ ih =>
    obtain ⟨a, indirect⟩ := x
    obtain ⟨b, indirect'⟩ := y
    obtain ⟨hab, rfl⟩ : k.types a b ∧ indirect' = indirect := hxy
    unfold Table.searchLevel
    dsimp only
    rw [isSome_of_optionRel (h.named? hab), h.contains hfront.seen hab]
    split
    · exact ih hfront
    · rcases optionRel_cases (h.ownMember? name hab) with ⟨ha, hb⟩ | ⟨f, g, ha, hb, hfg⟩ <;> rw [ha, hb]
      · refine ih ⟨List.rel_append hfront.next ?_, ?_⟩
        · refine List.rel_map (fun p q hpq => ?_) (h.embeddedTypes hab)
          exact ⟨hpq.1, by rw [hpq.2]⟩
        · dsimp only
          split
          · exact .cons hab hfront.seen
          · exact hfront.seen
      · exact .inl ⟨hfg, rfl⟩

theorem searchWithin (h : k.Reads s t) (name : String) (n : Nat) {front front' : Frontier} (hfront : front.Alike k front') :
    Option.Rel (Lookup.Alike k) (s.searchWithin name n front) (t.searchWithin name n front') := by
  induction n generalizing front front' with
  | zero => exact .none
  | succ n ih =>
    have hempty : front'.next.isEmpty = front.next.isEmpty := by
      rw [Bool.eq_iff_iff, List.isEmpty_iff_length_eq_zero, List.isEmpty_iff_length_eq_zero, hfront.next.length_eq]
    have hnext : Frontier.Alike k { front with next := [] } { front' with next := [] } := ⟨.nil, hfront.seen⟩
    have hlevel := h.searchLevel name hfront.next hnext
    rw [Table.searchWithin, Table.searchWithin, hempty]
    split
    · exact .none
    · generalize s.searchLevel name _ _ = x at hlevel
      generalize t.searchLevel name _ _ = y at hlevel
      cases hlevel with
      | inl hfound => exact .some hfound
      | inr hfront => exact ih hfront

/-! ### Type arguments -/

theorem substLookup (h : k.Reads s t) {m m' : Subst} (hm : List.Forall₂ (Between.Pairs k) m m') (hab : k.types a b) :
    Option.Rel k.types (m.lookup a) (m'.lookup b) := by
  induction hm with
  | nil => exact .none
  | @cons p q m m' hpq _ ih =>
    rw [List.lookup_cons, List.lookup_cons]
    have hsame : (b == q.1) = (a == p.1) := by
      rw [Bool.eq_iff_iff, beq_iff_eq, beq_iff_eq]
      exact h.eq_iff hab hpq.1
    rw [hsame]
    cases a == p.1 with
    | true => exact .some hpq.2
    | false => exact ih

theorem unifyWithin (h : k.Reads s t) {ps qs : List TypeId} (hparams : List.Forall₂ k.types ps qs) (n : Nat)
    {a' b' : TypeId} (hab : k.types a b) (hab' : k.types a' b') {m m' : Subst} (hm : List.Forall₂ (Between.Pairs k) m m') :
    List.Forall₂ (Between.Pairs k) (s.unifyWithin ps n a a' m) (t.unifyWithin qs n b b' m') := by
  induction n generalizing a b a' b' m m' with
  | zero => exact hm
  | succ n ih =>
    have hlists : ∀ {as bs as' bs' : List TypeId} {m m' : Subst}, List.Forall₂ k.types as bs → List.Forall₂ k.types as' bs' →
        List.Forall₂ (Between.Pairs k) m m' →
        List.Forall₂ (Between.Pairs k) ((as.zip as').foldl (fun bound pa => s.unifyWithin ps n pa.1 pa.2 bound) m)
          ((bs.zip bs').foldl (fun bound pa => t.unifyWithin qs n pa.1 pa.2 bound) m') := by
      intro as bs as' bs' m m' has has' hm
      induction has generalizing as' bs' m m' with
      | nil => exact hm
      | cons hx _ ihs =>
        cases has' with
        | nil => exact hm
        | cons hy has' => exact ihs has' (ih hx hy hm)
    have hget := h.get hab
    have hget' := h.get hab'
    rw [Table.unifyWithin, Table.unifyWithin]
    dsimp only
    rw [h.contains hparams hab, isSome_of_optionRel (h.substLookup hm hab), h.isInvalid hab']
    split
    · split
      · exact hm
      · exact List.rel_append hm (.cons ⟨hab, h.defaultType hab'⟩ .nil)
    · generalize s.get a = x at hget
      generalize t.get b = y at hget
      generalize s.get a' = x' at hget'
      generalize t.get b' = y' at hget'
      cases hget with
      | pointer hp =>
        cases hget' with
        | pointer ha => exact ih hp ha hm
        | _ => exact hm
      | slice hp =>
        cases hget' with
        | slice ha => exact ih hp ha hm
        | _ => exact hm
      | array _ hp =>
        cases hget' with
        | array _ ha => exact ih hp ha hm
        | _ => exact hm
      | chan _ hp =>
        cases hget' with
        | chan _ ha => exact ih hp ha hm
        | _ => exact hm
      | map hkey hvalue =>
        cases hget' with
        | map hkey' hvalue' => exact hlists (.cons hkey (.cons hvalue .nil)) (.cons hkey' (.cons hvalue' .nil)) hm
        | _ => exact hm
      | signature hp =>
        cases hget' with
        | signature ha => exact hlists hp.results ha.results (hlists hp.params ha.params hm)
        | _ => exact hm
      | named hp =>
        cases hget' with
        | @named d e ha =>
          dsimp only
          rw [isSome_of_optionRel hp.origin]
          rename_i d' e'
          have horigin : e'.origin = e.origin ↔ d'.origin = d.origin := by
            rcases optionRel_cases hp.origin with ⟨ho, ho'⟩ | ⟨o, o', ho, ho', hoo⟩ <;> rw [ho, ho'] <;>
              rcases optionRel_cases ha.origin with ⟨hq, hq'⟩ | ⟨q, q', hq, hq', hqq⟩ <;> rw [hq, hq'] <;>
                simp only [reduceCtorEq, Option.some.injEq]
            exact h.eq_iff hoo hqq
          simp only [horigin]
          split
          · exact hlists hp.typeArgs ha.typeArgs hm
          · exact hm
        | _ => exact hm
      | _ => cases hget' <;> exact hm

end Reads

end Correspondence

end UnusedMethods.Types
