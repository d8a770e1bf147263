import UnusedMethods.Proofs.Alike
import UnusedMethods.Proofs.Places
import UnusedMethods.Typing.Check

/-!
# A logic for the steps of a check

Several things are shown about a check by going through all that it does: that it keeps the table well formed, that it
leaves scopes as they are, that it goes the same way on another table. In each case the single steps have the property,
and what is made of steps that have it has it too. A `Logic` is such a property of steps, with one rule for each step of
which checking is made. What follows from the rules alone is then shown once, for every logic.

A judgement is about two steps, taken on two tables. Types and functions of the one table stand for those of the other,
and which of them do depends on how far the check has come: on the `World`. Where one table is enough, a type stands for
itself.
-/

namespace UnusedMethods

/-- The statement has a block, or clauses: the names declared in it are those of a scope that is closed at its end. -/
def Syntax.Stmt.opensScope : Syntax.Stmt → Bool
  | .block _ | .if .. | .for .. | .range .. | .switch .. | .typeSwitch .. | .select _ => true
  | .labeled inner => inner.opensScope
  | _ => false
termination_by structural s => s

namespace Typing

open Syntax UnusedMethods.Types
open Types.Correspondence.Between (Pairs)

/-! ## Objects that correspond -/

section Alike

variable (k : Correspondence)

/-- What names denote corresponds. -/
inductive Object.Alike : Object → Object → Prop where
  | var {a b : TypeId} (h : k.types a b) : Object.Alike (.var a) (.var b)
  | const {a b : TypeId} (h : k.types a b) : Object.Alike (.const a) (.const b)
  | typeName {a b : TypeId} (h : k.types a b) : Object.Alike (.typeName a) (.typeName b)
  | func {f g : FuncId} (h : k.funcs f g) : Object.Alike (.func f) (.func g)
  | package (id : PackageId) : Object.Alike (.package id) (.package id)
  | builtin (b : Builtin) : Object.Alike (.builtin b) (.builtin b)
  | nil : Object.Alike .nil .nil

structure Selection.Alike (x y : Selection) : Prop where
  kind : y.kind = x.kind
  recv : k.types x.recv y.recv
  method : Option.Rel k.funcs x.method y.method
  type : k.types x.type y.type

end Alike

section Mono

variable {k k' : Correspondence} {base : Table}

variable {x y : Object}

theorem Object.Alike.mono (h : x.Alike k y) (hk : k.Grows k') : x.Alike k' y := by
  cases h with
  | var h => exact .var (hk.types h)
  | const h => exact .const (hk.types h)
  | typeName h => exact .typeName (hk.types h)
  | func h => exact .func (hk.funcs h)
  | package id => exact .package id
  | builtin b => exact .builtin b
  | nil => exact .nil

theorem Selection.Alike.mono {x y : Selection} (h : x.Alike k y) (hk : k.Grows k') : x.Alike k' y :=
  ⟨h.kind, hk.types h.recv, optionRel_imp (fun _ _ => hk.funcs) h.method, hk.types h.type⟩

theorem Object.Alike.type {s t : Table} (h : k.Reads s t) (hxy : x.Alike k y) : k.types (x.type s) (y.type t) := by
  cases hxy with
  | var h => exact h
  | const h => exact h
  | typeName h => exact h
  | func hfg => exact (h.func hfg).sig
  | package _ => exact h.invalid
  | builtin _ => exact h.invalid
  | nil => exact h.basic .untypedNil

/-! Where each type stands for itself, so does an object. -/

theorem Object.Alike.eq (h : x.Alike (.same base) y) : x = y := by
  cases h with
  | var h =>
    cases h
    rfl
  | const h =>
    cases h
    rfl
  | typeName h =>
    cases h
    rfl
  | func h =>
    cases h
    rfl
  | _ => rfl

theorem Selection.Alike.eq {x y : Selection} (h : x.Alike (.same base) y) : x = y := by
  cases x
  cases y
  cases h.kind
  cases h.recv
  cases eq_of_optionRel (fun _ _ => id) h.method
  cases h.type
  rfl

end Mono

end Typing

/-! ## Answers -/

/-- The entries of two tables are alike, and what takes a search through the tables has answers that correspond. -/
structure Types.Correspondence.Answers (k : Types.Correspondence) (s t : Types.Table) : Prop
    extends Types.Correspondence.Reads k s t where
  lookup : ∀ {a b} (name : String), k.types a b → Option.Rel (Types.Lookup.Alike k) (s.lookup a name) (t.lookup b name)
  unify : ∀ {ps qs a b a' b' m m'}, List.Forall₂ k.types ps qs → k.types a b → k.types a' b' →
    List.Forall₂ (Types.Correspondence.Between.Pairs k) m m' →
    List.Forall₂ (Types.Correspondence.Between.Pairs k) (s.unify a a' ps m) (t.unify b b' qs m')

/-- Of one table, searches come to an end together. -/
theorem Types.Correspondence.Reads.answers {k : Types.Correspondence} {t : Types.Table} (h : k.Reads t t) : k.Answers t t where
  toReads := h
  lookup name hab := h.searchWithin name _ ⟨.cons (h.deref hab) .nil, .nil⟩
  unify hparams hab hab' hm := h.unifyWithin hparams _ hab hab' hm

namespace Typing

open Syntax UnusedMethods.Types
open Types.Correspondence.Between (Pairs)

/-! ### Types that follow from other types -/

section Answers

variable {k : Correspondence} {s t : Table} {a b : TypeId}

theorem rel_arrayElem? (h : k.Reads s t) (hab : k.types a b) : Option.Rel k.types (arrayElem? s a) (arrayElem? t b) := by
  have hget := h.get hab
  unfold arrayElem?
  generalize s.get a = x at hget
  generalize t.get b = y at hget
  cases hget with
  | array _ helem => exact .some helem
  | pointer hp =>
    have hget := h.get (h.underlying hp)
    dsimp only
    generalize s.get _ = x at hget
    generalize t.get _ = y at hget
    cases hget with
    | array _ helem => exact .some helem
    | _ => exact .none
  | _ => exact .none

theorem rel_indexedType (h : k.Reads s t) (hab : k.types a b) : k.types (indexedType s a) (indexedType t b) := by
  have hget := h.get (h.underlying hab)
  have hother := rel_getD (rel_arrayElem? h (h.underlying hab)) h.invalid
  unfold indexedType
  dsimp only
  generalize s.get (s.underlying a) = x at hget
  generalize t.get (t.underlying b) = y at hget
  cases hget with
  | slice helem => exact helem
  | map _ hvalue => exact hvalue
  | basic kind =>
    cases kind
    case string | untypedString => exact h.basic .uint8
    all_goals exact hother
  | _ => exact hother

theorem rel_rangeTypes (h : k.Reads s t) (hab : k.types a b) :
    k.types (rangeTypes s a).1 (rangeTypes t b).1 ∧ k.types (rangeTypes s a).2 (rangeTypes t b).2 := by
  have hget := h.get (h.underlying hab)
  have helem := rel_arrayElem? h (h.underlying hab)
  unfold rangeTypes
  dsimp only
  generalize s.get (s.underlying a) = x at hget
  generalize t.get (t.underlying b) = y at hget
  cases hget with
  | slice helem => exact ⟨h.basic .int, helem⟩
  | array _ helem => exact ⟨h.basic .int, helem⟩
  | pointer _ =>
    dsimp only
    rcases optionRel_cases helem with ⟨hs, ht⟩ | ⟨c, d, hs, ht, hcd⟩ <;> rw [hs, ht]
    · exact ⟨h.invalid, h.invalid⟩
    · exact ⟨h.basic .int, hcd⟩
  | map hkey hvalue => exact ⟨hkey, hvalue⟩
  | chan _ helem => exact ⟨helem, h.invalid⟩
  | basic kind =>
    cases kind
    case string | untypedString => exact ⟨h.basic .int, h.basic .int32⟩
    all_goals exact ⟨h.defaultType hab, h.invalid⟩
  | @signature sig sig' hsig =>
    have hyielded : List.Forall₂ k.types ((sig.params.head?.bind s.signature?).elim [] (·.params))
        ((sig'.params.head?.bind t.signature?).elim [] (·.params)) := by
      have hparams := hsig.params
      generalize sig.params = ps at hparams
      generalize sig'.params = qs at hparams
      cases hparams with
      | nil => exact .nil
      | cons hp _ =>
        dsimp only [List.head?_cons, Option.bind_some]
        rcases optionRel_cases (h.signature? hp) with ⟨hs, ht⟩ | ⟨f, g, hs, ht, hfg⟩ <;> rw [hs, ht]
        · exact .nil
        · exact hfg.params
    exact ⟨rel_getD (rel_getElem? hyielded 0) h.invalid, rel_getD (rel_getElem? hyielded 1) h.invalid⟩
  | _ => exact ⟨h.invalid, h.invalid⟩

theorem isUntyped_eq (h : k.Reads s t) (hab : k.types a b) : isUntyped t b = isUntyped s a := by
  have hget := h.get hab
  unfold isUntyped
  generalize s.get a = x at hget
  generalize t.get b = y at hget
  cases hget <;> rfl

theorem rel_binaryType (h : k.Reads s t) (op : String) (hab : k.types a b) {a' b' : TypeId} (hab' : k.types a' b') :
    k.types (binaryType s op a a') (binaryType t op b b') := by
  unfold binaryType
  rw [isUntyped_eq h hab]
  split
  · exact h.basic .untypedBool
  · split
    · exact hab
    · split
      · exact hab'
      · exact hab

theorem rel_inferredType (h : k.Reads s t) (hab : k.types a b) : k.types (inferredType s a) (inferredType t b) := by
  have hget := h.get hab
  have hdefault := h.defaultType hab
  unfold inferredType
  generalize s.get a = x at hget
  generalize t.get b = y at hget
  cases hget with
  | basic kind =>
    cases kind
    case untypedNil => exact h.invalid
    all_goals exact hdefault
  | _ => exact hdefault

theorem forall₂_spreadTypes (h : k.Reads s t) (n : Nat) (hab : k.types a b) :
    List.Forall₂ k.types (spreadTypes s n a) (spreadTypes t n b) := by
  have hget := h.get hab
  have hsingle : List.Forall₂ k.types (a :: List.replicate (n - 1) BasicKind.bool.typeId)
      (b :: List.replicate (n - 1) BasicKind.bool.typeId) := .cons hab (forall₂_replicate _ (h.basic .bool))
  unfold spreadTypes
  generalize s.get a = x at hget
  generalize t.get b = y at hget
  cases hget with
  | tuple helems => exact helems
  | _ => exact hsingle

theorem rel_elementHints (h : k.Reads s t) (hab : k.types a b) :
    Option.Rel k.types (elementHints s a).1 (elementHints t b).1 ∧
      Option.Rel k.types (elementHints s a).2 (elementHints t b).2 := by
  have hget := h.get hab
  unfold elementHints
  generalize s.get a = x at hget
  generalize t.get b = y at hget
  cases hget with
  | slice helem => exact ⟨.none, .some helem⟩
  | array _ helem => exact ⟨.none, .some helem⟩
  | map hkey hvalue => exact ⟨.some hkey, .some hvalue⟩
  | _ => exact ⟨.none, .none⟩

theorem rel_fieldHint {fs gs : List Types.StructField} (h : List.Forall₂ (StructField.Alike k) fs gs) (i : Nat)
    (key : Option Expr) : Option.Rel k.types (fieldHint fs i key) (fieldHint gs i key) := by
  have hmap : ∀ {o p}, Option.Rel (StructField.Alike k) o p → Option.Rel k.types (o.map (·.type)) (p.map (·.type)) := by
    intro o p hop
    cases hop with
    | none => exact .none
    | some hfg => exact .some hfg.type
  unfold fieldHint
  split
  · exact hmap (find?_rel (fun f g hfg => by rw [hfg.name]) h)
  · exact .none
  · exact hmap (rel_getElem? h i)

/-- What the arguments of a call show about type parameters corresponds. -/
theorem forall₂_unifyArgs (h : k.Answers s t) {ps qs : List TypeId} (hparams : List.Forall₂ k.types ps qs)
    {sig sig' : Signature} (hsig : sig.Alike k sig') {as bs : List TypeId} (hargs : List.Forall₂ k.types as bs)
    {m m' : Subst} (hm : List.Forall₂ (Pairs k) m m') :
    List.Forall₂ (Pairs k) (unifyArgs s ps sig as m) (unifyArgs t qs sig' bs m') := by
  unfold unifyArgs
  rw [← hargs.length_eq, ← hsig.params.length_eq, hsig.variadic]
  refine List.rel_foldl (P := List.Forall₂ (Pairs k)) ?_ hm (forall₂_zipIdx hargs 0)
  rintro m m' hm ⟨arg, _⟩ ⟨arg', i⟩ ⟨harg, rfl⟩
  dsimp only
  rcases optionRel_cases (rel_getElem? hsig.params (min i (sig.params.length - 1))) with
    ⟨hp, hq⟩ | ⟨p, q, hp, hq, hpq⟩ <;> rw [hp, hq]
  · exact hm
  · have hget := h.get hpq
    dsimp only
    generalize s.get p = x at hget
    generalize t.get q = y at hget
    cases hget with
    | slice helem =>
      dsimp only
      split
      · exact h.unify hparams helem harg hm
      · exact h.unify hparams hpq harg hm
    | _ => exact h.unify hparams hpq harg hm

theorem forall₂_typeParamsOf (h : k.Reads s t) (hab : k.types a b) :
    List.Forall₂ k.types (typeParamsOf s a) (typeParamsOf t b) := by
  unfold typeParamsOf
  rcases optionRel_cases (h.named? hab) with ⟨hs, ht⟩ | ⟨d, e, hs, ht, hde⟩ <;> rw [hs, ht]
  · exact .nil
  · exact hde.typeParams

end Answers

/-! ## Worlds -/

/-- How far two checks may have come. What corresponds goes on to do so. -/
structure Worlds where
  World : Type
  /-- Which types and functions stand for which. -/
  corr : World → Correspondence
  /-- The second world may follow on the first. -/
  Later : World → World → Prop
  refl : ∀ w, Later w w
  trans : ∀ {w w₁ w₂}, Later w w₁ → Later w₁ w₂ → Later w w₂
  grows : ∀ {w w'}, Later w w' → (corr w).Grows (corr w')

namespace Worlds

/-- The types correspond. -/
abbrev types (W : Worlds) (w : W.World) : TypeId → TypeId → Prop := (W.corr w).types

/-- The functions correspond. -/
abbrev funcs (W : Worlds) (w : W.World) : FuncId → FuncId → Prop := (W.corr w).funcs

/-- The objects correspond. -/
abbrev objects (W : Worlds) (w : W.World) : Object → Object → Prop := Object.Alike (W.corr w)

variable {W : Worlds} {w w' : W.World}

theorem Later.types (h : W.Later w w') {a b : TypeId} (hab : W.types w a b) : W.types w' a b := (W.grows h).types hab

theorem Later.funcs (h : W.Later w w') {f g : FuncId} (hfg : W.funcs w f g) : W.funcs w' f g := (W.grows h).funcs hfg

theorem Later.typeList (h : W.Later w w') {as bs : List TypeId} (hab : List.Forall₂ (W.types w) as bs) :
    List.Forall₂ (W.types w') as bs := (W.grows h).typeList hab

theorem Later.typeOption (h : W.Later w w') {o o' : Option TypeId} (ho : Option.Rel (W.types w) o o') :
    Option.Rel (W.types w') o o' := optionRel_imp (fun _ _ => (W.grows h).types) ho

theorem Later.objects (h : W.Later w w') {x y : Object} (hxy : W.objects w x y) : W.objects w' x y := hxy.mono (W.grows h)

end Worlds

/-! ## Judgements -/

/-- A property of steps that belong together, with one rule for each step of which checking is made. -/
structure Logic extends Worlds where
  /-- The identifier may be recorded as the name of a method. -/
  declares : Context → Ident → Prop
  /-- It may be recorded what the name at the place denotes. -/
  records : Pos → Prop
  /-- The package-level name may be entered for the object. -/
  denotes : String → Object → Prop
  /-- The functions correspond, and may be methods of an interface. -/
  methods : World → FuncId → FuncId → Prop
  methods_later : ∀ {w w' f g}, Later w w' → methods w f g → methods w' f g
  /-- Started in a world, the steps lead to another, in which their results have a property. Names are entered at a
  certain level, or not at all. -/
  Holds : Option Level → World → Context → ∀ {α β : Type}, Checking α → Checking β → (World → α → β → Prop) → Prop
  weaken : ∀ {m w w' c} {α β : Type} {x : Checking α} {y : Checking β} {Q : World → α → β → Prop},
    Holds m w c x y Q → Later w w' → Holds m w' c x y Q
  pure : ∀ {m w c} {α β : Type} {a : α} {b : β} {Q : World → α → β → Prop}, (∀ w', Later w w' → Q w' a b) →
    Holds m w c (Pure.pure a) (Pure.pure b) Q
  bind : ∀ {m w c} {α α' β β' : Type} {x : Checking α} {y : Checking β} {f : α → Checking α'} {g : β → Checking β'}
    {Q : World → α → β → Prop} {R : World → α' → β' → Prop}, Holds m w c x y Q →
    (∀ w₁ a b, Later w w₁ → Q w₁ a b → Holds m w₁ c (f a) (g b) R) → Holds m w c (x >>= f) (y >>= g) R
  /-- There are tables between which there is the correspondence. -/
  given : ∀ {m w c} {α β : Type} {x : Checking α} {y : Checking β} {Q : World → α → β → Prop},
    (∀ w₁ s t, Later w w₁ → (corr w₁).Answers s t → Holds m w₁ c x y Q) → Holds m w c x y Q
  readTable : ∀ {m w c} {α β : Type} {f : Table → Checking α} {g : Table → Checking β} {Q : World → α → β → Prop},
    (∀ w₁ s t, Later w w₁ → (corr w₁).Answers s t → Holds m w₁ c (f s) (g t) Q) →
    Holds m w c (getThe Table >>= f) (getThe Table >>= g) Q
  readContext : ∀ {m w c} {α β : Type} {f : Context → Checking α} {g : Context → Checking β} {Q : World → α → β → Prop},
    Holds m w c (f c) (g c) Q → Holds m w c (read >>= f) (read >>= g) Q
  noteType : ∀ {m w c a b} (id : Nat), (corr w).types a b →
    Holds m w c (Checking.noteType id a) (Checking.noteType id b) fun _ _ _ => True
  noteUse : ∀ {m w c x y} (id : Nat), Object.Alike (corr w) x y →
    Holds m w c (Checking.noteUse id x) (Checking.noteUse id y) fun _ _ _ => True
  noteSelection : ∀ {m w c x y} (id : Nat), Selection.Alike (corr w) x y → (x.method.isSome → x.kind ≠ .fieldVal) →
    Holds m w c (Checking.noteSelection id x) (Checking.noteSelection id y) fun _ _ _ => True
  noteDef : ∀ {m w c x y} {pos : Pos}, records pos → Object.Alike (corr w) x y → (∀ f, x ≠ .func f) →
    Holds m w c (Checking.noteDef pos x) (Checking.noteDef pos y) fun _ _ _ => True
  useOf? : ∀ {m w c} (id : Nat),
    Holds m w c (Checking.useOf? id) (Checking.useOf? id) fun w => Option.Rel (Object.Alike (corr w))
  knownTypes : ∀ {m w c},
    Holds m w c Checking.knownTypes Checking.knownTypes fun w f g => ∀ id, Option.Rel (corr w).types (f id) (g id)
  inScope : ∀ {m w c} {α β : Type} {x : Checking α} {y : Checking β} {Q : World → α → β → Prop},
    Holds (some .local) w c x y Q → Holds m w c (Checking.inScope x) (Checking.inScope y) Q
  defineLocal : ∀ {w c x y} (name : String), Object.Alike (corr w) x y →
    Holds (some .local) w c (Checking.defineLocal name x) (Checking.defineLocal name y) fun _ _ _ => True
  definePackageLevel : ∀ {w c x y} {name : String}, denotes name x → Object.Alike (corr w) x y →
    Holds (some .package) w c (Checking.definePackageLevel name x) (Checking.definePackageLevel name y) fun _ _ _ => True
  lookup : ∀ {m w c} (name : String),
    Holds m w c (Checking.lookup name) (Checking.lookup name) fun w => Option.Rel (Object.Alike (corr w))
  innermost? : ∀ {m w c} (name : String),
    Holds m w c (Checking.innermost? name) (Checking.innermost? name) fun w => Option.Rel (Object.Alike (corr w))
  packageLevel? : ∀ {m w c} (name : String),
    Holds m w c (Checking.packageLevel? name) (Checking.packageLevel? name) fun w => Option.Rel (Object.Alike (corr w))
  member : ∀ {m w c} (id : PackageId) (name : String),
    Holds m w c (Checking.member id name) (Checking.member id name) fun w => Option.Rel (Object.Alike (corr w))
  push : ∀ {m w c} {x y : Ty}, x.Alike (corr w) y → x.isPlain = true →
    Holds m w c (liftM (Build.push x)) (liftM (Build.push y)) fun w => (corr w).types
  pointer : ∀ {m w c a b}, (corr w).types a b →
    Holds m w c (liftM (Build.pointer a)) (liftM (Build.pointer b)) fun w => (corr w).types
  slice : ∀ {m w c a b}, (corr w).types a b →
    Holds m w c (liftM (Build.slice a)) (liftM (Build.slice b)) fun w => (corr w).types
  interface : ∀ {m w c fs gs as bs}, List.Forall₂ (methods w) fs gs → List.Forall₂ (corr w).types as bs →
    Holds m w c (liftM (Build.interface fs as)) (liftM (Build.interface gs bs)) fun w => (corr w).types
  instantiate : ∀ {m w c a b as bs}, (corr w).types a b → List.Forall₂ (corr w).types as bs →
    Holds m w c (liftM (Build.instantiate a as)) (liftM (Build.instantiate b bs)) fun w => (corr w).types
  subst : ∀ {m w c a b p q}, List.Forall₂ (Pairs (corr w)) p q → (corr w).types a b →
    Holds m w c (liftM (Build.subst a p)) (liftM (Build.subst b q)) fun w => (corr w).types
  /-- A method of an interface is made, and its name is recorded. -/
  newMethod : ∀ {m w c} {α β : Type} {f g : Func} {name : Ident} {x : FuncId → Checking α} {y : FuncId → Checking β}
    {Q : World → α → β → Prop}, f.Alike (corr w) g → f.kind = .interfaceMethod → f.origin = none →
    f.name = name.name → declares c name → records name.pos →
    (∀ w₁ a b, Later w w₁ → methods w₁ a b → Holds m w₁ c (x a) (y b) Q) →
    Holds m w c
      (do let id ← Build.newFunc f
          Checking.noteDef name.pos (.func id)
          x id)
      (do let id ← Build.newFunc g
          Checking.noteDef name.pos (.func id)
          y id) Q
  /-- A declared type is made. It may be said later what it is. -/
  newNamed : ∀ {m w c} {α β : Type} {name : String} {package : Option String} {x : TypeId → Checking α}
    {y : TypeId → Checking β} {Q : World → α → β → Prop},
    (∀ w₁ a b, Later w w₁ → (corr w₁).types a b →
      (∀ {m w₂ a' b'}, Later w₁ w₂ → (corr w₂).types a' b' →
        Holds m w₂ c (Checking.change (·.setRhs a a')) (Checking.change (·.setRhs b b')) fun _ _ _ => True) →
      Holds m w₁ c (x a) (y b) Q) →
    Holds m w c (liftM (Build.newNamed name package) >>= x) (liftM (Build.newNamed name package) >>= y) Q

/-- An identifier may be declared at this level, with this meaning. -/
def Logic.Allows (L : Logic) (level : Level) (x : Ident) (obj : Object) : Prop :=
  level = .package → x.isBlank = false → L.denotes x.name obj

/-- The name of a method may be recorded as such. -/
structure Logic.Notes (L : Logic) (c : Context) (name : Ident) : Prop where
  declares : L.declares c name
  records : L.records name.pos

namespace Logic.Holds

variable {L : Logic} {m : Option Level} {w : L.World} {c : Context} {α α' β β' : Type}

variable {x : Checking α} {y : Checking β} {Q : L.World → α → β → Prop}

/-- Nothing is done, and nothing is said about the result. -/
theorem done {a : α} {b : β} : L.Holds m w c (Pure.pure a) (Pure.pure b) fun _ _ _ => True := L.pure fun _ _ => trivial

theorem type {a b : TypeId} (hab : L.types w a b) : L.Holds m w c (Pure.pure a) (Pure.pure b) L.types :=
  L.pure fun _ hw => hw.types hab

theorem types {as bs : List TypeId} (h : List.Forall₂ (L.types w) as bs) :
    L.Holds m w c (Pure.pure as) (Pure.pure bs) fun w => List.Forall₂ (L.types w) :=
  L.pure fun _ hw => hw.typeList h

theorem invalid : L.Holds m w c (Pure.pure TypeId.invalid) (Pure.pure TypeId.invalid) L.types :=
  L.given fun _ _ _ _ hst => type hst.invalid

theorem basic (kind : BasicKind) : L.Holds m w c (Pure.pure kind.typeId) (Pure.pure kind.typeId) L.types :=
  L.given fun _ _ _ _ hst => type (hst.basic kind)

theorem getD {o o' : Option TypeId} (h : Option.Rel (L.types w) o o') :
    L.Holds m w c (Pure.pure (o.getD .invalid)) (Pure.pure (o'.getD .invalid)) L.types :=
  L.given fun _ _ _ hw hst => type (rel_getD (hw.typeOption h) hst.invalid)

theorem noType :
    L.Holds m w c (Pure.pure (none : Option TypeId)) (Pure.pure none) fun w => Option.Rel (L.types w) :=
  L.pure fun _ _ => .none

theorem someType {a b : TypeId} (hab : L.types w a b) :
    L.Holds m w c (Pure.pure (some a)) (Pure.pure (some b)) fun w => Option.Rel (L.types w) :=
  L.pure fun _ hw => .some (hw.types hab)

/-- Steps whose results are not used, and then others. -/
theorem andThen {x' : Checking α'} {y' : Checking β'} {R : L.World → α' → β' → Prop} (hxy : L.Holds m w c x y Q)
    (hxy' : L.Holds m w c x' y' R) : L.Holds m w c (x >>= fun _ => x') (y >>= fun _ => y') R :=
  L.bind hxy fun _ _ _ hw _ => L.weaken hxy' hw

theorem discard (hxy : L.Holds m w c x y Q) : L.Holds m w c (do let _ ← x) (do let _ ← y) fun _ _ _ => True :=
  L.bind hxy fun _ _ _ _ _ => done

theorem ask {f : Table → α} {g : Table → β}
    (hfg : ∀ w₁ s t, L.Later w w₁ → (L.corr w₁).Answers s t → ∀ w₂, L.Later w₁ w₂ → Q w₂ (f s) (g t)) :
    L.Holds m w c (Checking.ask f) (Checking.ask g) Q :=
  L.readTable fun w₁ s t hw hst => L.pure (hfg w₁ s t hw hst)

theorem liftGet {f : Table → Build α} {g : Table → Build β}
    (hfg : ∀ w₁ s t, L.Later w w₁ → (L.corr w₁).Answers s t → L.Holds m w₁ c (liftM (f s)) (liftM (g t)) Q) :
    L.Holds m w c (liftM (get >>= f : Build α)) (liftM (get >>= g : Build β)) Q :=
  L.readTable (f := fun s => liftM (f s)) (g := fun t => liftM (g t)) hfg

theorem askType {f g : Table → TypeId}
    (hfg : ∀ w₁ s t, L.Later w w₁ → (L.corr w₁).Answers s t → L.types w₁ (f s) (g t)) :
    L.Holds m w c (Checking.ask f) (Checking.ask g) L.types :=
  ask fun w₁ s t hw hst _ hw₂ => hw₂.types (hfg w₁ s t hw hst)

theorem askTypes {f g : Table → List TypeId}
    (hfg : ∀ w₁ s t, L.Later w w₁ → (L.corr w₁).Answers s t → List.Forall₂ (L.types w₁) (f s) (g t)) :
    L.Holds m w c (Checking.ask f) (Checking.ask g) fun w => List.Forall₂ (L.types w) :=
  ask fun w₁ s t hw hst _ hw₂ => hw₂.typeList (hfg w₁ s t hw hst)

theorem ite {p q : Prop} [Decidable p] [Decidable q] {x' : Checking α} {y' : Checking β} (hpq : q ↔ p)
    (hxy : p → L.Holds m w c x y Q) (hxy' : ¬ p → L.Holds m w c x' y' Q) :
    L.Holds m w c (if p then x else x') (if q then y else y') Q := by
  by_cases hp : p
  · rw [if_pos hp, if_pos (hpq.2 hp)]
    exact hxy hp
  · rw [if_neg hp, if_neg (mt hpq.1 hp)]
    exact hxy' hp

theorem forM {R : α → β → Prop} {f : α → Checking Unit} {g : β → Checking Unit} {as : List α} {bs : List β}
    (has : List.Forall₂ R as bs)
    (hfg : ∀ a b, R a b → ∀ w₁, L.Later w w₁ → L.Holds m w₁ c (f a) (g b) fun _ _ _ => True) :
    L.Holds m w c (as.forM f) (bs.forM g) fun _ _ _ => True := by
  induction has generalizing w with
  | nil => exact done
  | cons hab _ ih =>
    exact L.bind (hfg _ _ hab w (L.refl w)) fun w₁ _ _ hw₁ _ => ih fun a b hab w₂ hw₂ => hfg a b hab w₂ (L.trans hw₁ hw₂)

theorem forMSelf {f g : α → Checking Unit} {as : List α}
    (hfg : ∀ a ∈ as, ∀ w₁, L.Later w w₁ → L.Holds m w₁ c (f a) (g a) fun _ _ _ => True) :
    L.Holds m w c (as.forM f) (as.forM g) fun _ _ _ => True := by
  refine forM (R := fun a b => a ∈ as ∧ a = b) (List.forall₂_same.2 fun a ha => ⟨ha, rfl⟩) ?_
  rintro a _ ⟨ha, rfl⟩ w₁ hw₁
  exact hfg a ha w₁ hw₁

theorem declare {level : Level} {name : Ident} {x y : Object} (hname : L.records name.pos) (hxy : L.objects w x y)
    (hfunc : ∀ f, x ≠ .func f) (hallows : L.Allows level name x) :
    L.Holds (some level) w c (Checking.declare level name x) (Checking.declare level name y) fun _ _ _ => True := by
  refine ite .rfl (fun hblank => ?_) fun _ => done
  cases level with
  | package =>
    exact andThen (L.definePackageLevel (hallows rfl (by simpa using hblank)) hxy) (L.noteDef hname hxy hfunc)
  | «local» => exact andThen (L.defineLocal _ hxy) (L.noteDef hname hxy hfunc)

theorem declareLocal {name : Ident} {x y : Object} (hname : L.records name.pos) (hxy : L.objects w x y)
    (hfunc : ∀ f, x ≠ .func f) :
    L.Holds (some .local) w c (Checking.declareLocal name x) (Checking.declareLocal name y) fun _ _ _ => True :=
  declare hname hxy hfunc nofun

theorem qualified (package name : String) :
    L.Holds m w c (Checking.qualified package name) (Checking.qualified package name)
      fun w => Option.Rel (L.objects w) := by
  refine L.bind (L.lookup package) fun _ o o' _ ho => ?_
  cases ho with
  | none => exact L.pure fun _ _ => .none
  | some hobj =>
    cases hobj with
    | package id => exact L.member id name
    | _ => exact L.pure fun _ _ => .none

theorem ofTypeName {o o' : Option Object} (h : Option.Rel (L.objects w) o o') :
    L.Holds m w c
      (match o with | some (.typeName t) => Pure.pure (some t) | _ => Pure.pure none)
      (match o' with | some (.typeName t) => Pure.pure (some t) | _ => Pure.pure none)
      fun w => Option.Rel (L.types w) := by
  cases h with
  | none => exact noType
  | some hobj =>
    cases hobj with
    | typeName hab => exact someType hab
    | _ => exact noType

theorem typeNamed? (name : String) :
    L.Holds m w c (Checking.typeNamed? name) (Checking.typeNamed? name) fun w => Option.Rel (L.types w) :=
  L.bind (L.lookup name) fun _ _ _ _ ho => ofTypeName ho

theorem qualifiedType? (package name : String) :
    L.Holds m w c (Checking.qualifiedType? package name) (Checking.qualifiedType? package name)
      fun w => Option.Rel (L.types w) :=
  L.bind (qualified package name) fun _ _ _ _ ho => ofTypeName ho

end Logic.Holds

/-- What the names in a piece of syntax need: those of methods may be recorded as such, and something may be recorded at
the places of all names. -/
structure Logic.Covers (L : Logic) (c : Context) (names : List Ident) (places : List Pos) : Prop where
  names : ∀ x ∈ names, L.declares c x
  places : ∀ p ∈ places, L.records p

namespace Logic

variable {L : Logic} {c : Context} {names names' : List Ident} {places places' : List Pos}

theorem covers_append :
    L.Covers c (names ++ names') (places ++ places') ↔ L.Covers c names places ∧ L.Covers c names' places' := by
  constructor
  · intro h
    obtain ⟨hnames, hnames'⟩ := List.forall_mem_append.1 h.names
    obtain ⟨hplaces, hplaces'⟩ := List.forall_mem_append.1 h.places
    exact ⟨⟨hnames, hplaces⟩, hnames', hplaces'⟩
  · exact fun h => ⟨List.forall_mem_append.2 ⟨h.1.names, h.2.names⟩, List.forall_mem_append.2 ⟨h.1.places, h.2.places⟩⟩

/-- Names that are declared stand before the rest of a piece of syntax. -/
theorem Covers.declared {idents : List Ident} (h : L.Covers c names (placesOf idents ++ places)) :
    (∀ x ∈ idents, L.records x.pos) ∧ L.Covers c names places := by
  obtain ⟨hidents, hplaces⟩ := List.forall_mem_append.1 h.places
  exact ⟨List.forall_mem_map.1 hidents, h.names, hplaces⟩

theorem Covers.notes (h : L.Covers c names (placesOf names)) : ∀ x ∈ names, L.Notes c x :=
  fun x hx => ⟨h.names x hx, h.places x.pos (mem_placesOf hx)⟩

theorem covers_funcLit {sig : FuncType} {body : List Stmt} :
    L.Covers c (sig.funcNames ++ Stmt.funcNamesAll body) (sig.places ++ Stmt.placesAll body) →
      (∀ x ∈ sig.funcNames, L.Notes c x) ∧ (∀ x ∈ sig.boundNames, L.records x.pos) ∧
        L.Covers c (Stmt.funcNamesAll body) (Stmt.placesAll body) := by
  intro h
  obtain ⟨hsig, hbody⟩ := covers_append.1 h
  obtain ⟨hfuncs, hbound⟩ := List.forall_mem_append.1 (List.forall_mem_map.1 hsig.places)
  exact ⟨fun x hx => ⟨hsig.names x hx, hfuncs x hx⟩, hbound, hbody⟩

end Logic

end Typing

end UnusedMethods
