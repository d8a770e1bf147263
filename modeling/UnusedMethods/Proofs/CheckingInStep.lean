import UnusedMethods.Proofs.InStep

/-!
# Checking in step

Two steps of a check are in step if, started on tables and notes that correspond, they lead to tables and notes that
correspond. Notes correspond if they say the same about certain files; what the second notes say about other files is left
open, and a step in a file leaves it as it is.

This is a logic. So all that is made of the single steps is checked in step, as long as no package-level names are entered.
-/

namespace UnusedMethods.Typing

open Syntax UnusedMethods.Types

/-! ## Notes that correspond -/

section Alike

variable (k : Correspondence)

/-- Entries with the same key. -/
def Keyed {κ α β : Type} (R : α → β → Prop) (e : κ × α) (e' : κ × β) : Prop := e'.1 = e.1 ∧ R e.2 e'.2

/-- The names are the same, and what they denote corresponds. -/
structure Scope.Alike (x y : Scope) : Prop where
  entries : List.Forall₂ (Keyed (Object.Alike k)) x.entries y.entries

structure FileInfo.Alike (x y : FileInfo) : Prop where
  types : List.Forall₂ (Keyed k.types) x.types y.types
  selections : List.Forall₂ (Keyed (Selection.Alike k)) x.selections y.selections
  uses : List.Forall₂ (Keyed (Object.Alike k)) x.uses y.uses
  defs : List.Forall₂ (Keyed (Object.Alike k)) x.defs y.defs

/-- The notes say the same about the given files. -/
structure Notes.Alike (files : Nat → Prop) (m n : Notes) : Prop where
  scope : m.scope.Alike k n.scope
  locals : List.Forall₂ (Scope.Alike k) m.locals n.locals
  infos : ∀ i, files i → Option.Rel (FileInfo.Alike k) m.infos[i]? n.infos[i]?

/-- What is imported corresponds to itself, and the current file is one of the given ones. -/
structure Context.Alike (files : Nat → Prop) (c : Context) : Prop where
  known : files c.file.index
  file : c.file.scope.Alike k c.file.scope
  packages : ∀ (i : Nat) (p : Package), c.packages[i]? = some p → p.scope.Alike k p.scope

end Alike

section Mono

variable {k k' : Correspondence}

theorem forall₂_keyed_imp {κ α β : Type} {R S : α → β → Prop} (hRS : ∀ a b, R a b → S a b) {xs : List (κ × α)}
    {ys : List (κ × β)} (h : List.Forall₂ (Keyed R) xs ys) : List.Forall₂ (Keyed S) xs ys :=
  h.imp fun _ _ hxy => ⟨hxy.1, hRS _ _ hxy.2⟩

theorem Scope.Alike.mono {x y : Scope} (h : x.Alike k y) (hk : k.Grows k') : x.Alike k' y :=
  ⟨forall₂_keyed_imp (fun _ _ hxy => hxy.mono hk) h.entries⟩

theorem FileInfo.Alike.mono {x y : FileInfo} (h : x.Alike k y) (hk : k.Grows k') : x.Alike k' y where
  types := forall₂_keyed_imp (fun _ _ => hk.types) h.types
  selections := forall₂_keyed_imp (fun _ _ hxy => hxy.mono hk) h.selections
  uses := forall₂_keyed_imp (fun _ _ hxy => hxy.mono hk) h.uses
  defs := forall₂_keyed_imp (fun _ _ hxy => hxy.mono hk) h.defs

theorem Notes.Alike.mono {files : Nat → Prop} {m n : Notes} (h : m.Alike k files n) (hk : k.Grows k') : m.Alike k' files n where
  scope := h.scope.mono hk
  locals := h.locals.imp fun _ _ hxy => hxy.mono hk
  infos i hi := optionRel_imp (fun _ _ hxy => hxy.mono hk) (h.infos i hi)

theorem Context.Alike.mono {files : Nat → Prop} {c : Context} (h : c.Alike k files) (hk : k.Grows k') : c.Alike k' files :=
  ⟨h.known, h.file.mono hk, fun i p hp => (h.packages i p hp).mono hk⟩

end Mono

section Answers

variable {k : Correspondence} {s t : Table}

variable {x : Scope}

theorem lookup_keyed {κ α β : Type} [BEq κ] {R : α → β → Prop} {xs : List (κ × α)} {ys : List (κ × β)}
    (h : List.Forall₂ (Keyed R) xs ys) (key : κ) : Option.Rel R (xs.lookup key) (ys.lookup key) := by
  induction h with
  | nil => exact .none
  | @cons x y xs ys hxy _ ih =>
    rw [List.lookup_cons, List.lookup_cons, hxy.1]
    cases key == x.1 with
    | true => exact .some hxy.2
    | false => exact ih

theorem filter_keyed {κ α β : Type} {R : α → β → Prop} (p : κ → Bool) {xs : List (κ × α)} {ys : List (κ × β)}
    (h : List.Forall₂ (Keyed R) xs ys) :
    List.Forall₂ (Keyed R) (xs.filter fun e => p e.1) (ys.filter fun e => p e.1) := by
  refine List.rel_filter (fun x y hxy => ?_) h
  show p x.1 = true ↔ p y.1 = true
  rw [hxy.1]

theorem Scope.Alike.find? {y : Scope} (h : x.Alike k y) (name : String) :
    Option.Rel (Object.Alike k) (x.find? name) (y.find? name) := lookup_keyed h.entries name

theorem Scope.Alike.insert {y : Scope} (h : x.Alike k y) (name : String) {obj obj' : Object} (hobj : obj.Alike k obj') :
    (x.insert name obj).Alike k (y.insert name obj') :=
  ⟨.cons ⟨rfl, hobj⟩ (filter_keyed (· != name) h.entries)⟩

theorem Scope.alike_empty : Scope.empty.Alike k .empty := ⟨.nil⟩

theorem Scope.alike_self (h : ∀ e ∈ x.entries, e.2.Alike k e.2) : x.Alike k x :=
  ⟨List.forall₂_same.2 fun e he => ⟨rfl, h e he⟩⟩

/-- Whether every table has what the object stands for. -/
def Object.isPredeclared : Object → Bool
  | .var id | .const id | .typeName id => id.index < 31
  | .func _ => false
  | .package _ | .builtin _ | .nil => true

theorem Object.alike_of_isPredeclared (h : k.Between s t) {x : Object} (hx : x.isPredeclared = true) : x.Alike k x := by
  cases x with
  | var id => exact .var (h.predeclared (of_decide_eq_true hx))
  | const id => exact .const (h.predeclared (of_decide_eq_true hx))
  | typeName id => exact .typeName (h.predeclared (of_decide_eq_true hx))
  | func f => exact nomatch hx
  | package id => exact .package id
  | builtin b => exact .builtin b
  | nil => exact .nil

theorem Scope.alike_predeclared (h : k.Between s t) : Scope.predeclared.Alike k .predeclared := by
  have hpredeclared : ∀ e ∈ Scope.predeclared.entries, e.2.isPredeclared = true := by decide
  exact Scope.alike_self fun e he => Object.alike_of_isPredeclared h (hpredeclared e he)

theorem FileInfo.alike_empty : FileInfo.empty.Alike k .empty := ⟨.nil, .nil, .nil, .nil⟩

theorem FileInfo.Alike.type? (h : k.Between s t) {x y : FileInfo} (hxy : x.Alike k y) (id : Nat) :
    Option.Rel k.types (x.type? id) (y.type? id) := by
  unfold FileInfo.type? FileInfo.recordedType?
  rcases optionRel_cases (lookup_keyed hxy.types id) with ⟨hx, hy⟩ | ⟨a, b, hx, hy, hab⟩ <;> rw [hx, hy]
  · exact .none
  · rw [Option.filter_some, Option.filter_some]
    have hinvalid : (b != .invalid) = (a != .invalid) := by
      rw [Bool.eq_iff_iff, bne_iff_ne, bne_iff_ne]
      exact not_congr (h.reads.eq_iff hab h.reads.invalid)
    rw [hinvalid]
    split
    · exact .some hab
    · exact .none

end Answers

/-- What a step in a file leaves as it is: the package-level names, the number of local scopes, and what is known about
other files. -/
structure Notes.Framed (file : Nat) (n n' : Notes) : Prop where
  scope : n'.scope = n.scope
  locals : n'.locals.length = n.locals.length
  infos : ∀ i, i ≠ file → n'.infos[i]? = n.infos[i]?

theorem Notes.Framed.refl (file : Nat) (n : Notes) : n.Framed file n := ⟨rfl, rfl, fun _ _ => rfl⟩

theorem Notes.Framed.trans {file : Nat} {n n' n'' : Notes} (h : n.Framed file n') (h' : n'.Framed file n'') :
    n.Framed file n'' :=
  ⟨h'.scope.trans h.scope, h'.locals.trans h.locals, fun i hi => (h'.infos i hi).trans (h.infos i hi)⟩

/-! ## Steps -/

/-- Two states of a check correspond. -/
structure States (k : Correspondence) (files : Nat → Prop) (m : Notes) (s : Table) (n : Notes) (t : Table) : Prop where
  tables : k.Between s t
  calm : t.Calm
  notes : m.Alike k files n

namespace Checking

variable {α α' β β' : Type} {k : Correspondence} {files : Nat → Prop} {c : Context}

/-- Started on states that correspond, the steps lead to states that correspond, and the second leaves what is not its
business as it is. -/
def InStep (k : Correspondence) (files : Nat → Prop) (c : Context) (x : Checking α) (y : Checking β)
    (Q : Correspondence → α → β → Prop) : Prop :=
  ∀ k₁ m s n t, k.Grows k₁ → c.Alike k₁ files → States k₁ files m s n t →
    ∃ k₂, k₁.Grows k₂ ∧ States k₂ files (x.eval c m s).1.2 (x.eval c m s).2 (y.eval c n t).1.2 (y.eval c n t).2 ∧
      n.Framed c.file.index (y.eval c n t).1.2 ∧ Q k₂ (x.eval c m s).1.1 (y.eval c n t).1.1

namespace InStep

variable {x : Checking α} {y : Checking β} {Q : Correspondence → α → β → Prop}

/-! ### Combining steps -/

theorem weaken {k' : Correspondence} (h : InStep k files c x y Q) (hk : k.Grows k') : InStep k' files c x y Q :=
  fun k₁ m s n t hk₁ => h k₁ m s n t (hk.trans hk₁)

theorem pure {a : α} {b : β} (h : ∀ k₁, k.Grows k₁ → Q k₁ a b) : InStep k files c (Pure.pure a) (Pure.pure b) Q :=
  fun k₁ _ _ n _ hk _ hstates => ⟨k₁, .refl k₁, hstates, .refl _ n, h k₁ hk⟩

theorem bind {f : α → Checking α'} {g : β → Checking β'} {R : Correspondence → α' → β' → Prop} (hxy : InStep k files c x y Q)
    (hfg : ∀ k₁ a b, k.Grows k₁ → Q k₁ a b → InStep k₁ files c (f a) (g b) R) : InStep k files c (x >>= f) (y >>= g) R := by
  intro k₁ m s n t hk hc hstates
  obtain ⟨k₂, hk₂, hstates₂, hframe₂, hQ⟩ := hxy k₁ m s n t hk hc hstates
  obtain ⟨k₃, hk₃, hstates₃, hframe₃, hR⟩ := hfg k₂ _ _ (hk.trans hk₂) hQ k₂ _ _ _ _ (.refl k₂) (hc.mono hk₂) hstates₂
  exact ⟨k₃, hk₂.trans hk₃, hstates₃, hframe₂.trans hframe₃, hR⟩

theorem given (h : ∀ k₁ s t, k.Grows k₁ → k₁.Between s t → InStep k₁ files c x y Q) : InStep k files c x y Q :=
  fun k₁ m s n t hk hc hstates => h k₁ s t hk hstates.tables k₁ m s n t (.refl k₁) hc hstates

/-! ### Table and context -/

theorem lift {x : Build α} {y : Build β} (h : Build.InStep k x y Q) :
    InStep k files c (liftM x : Checking α) (liftM y : Checking β) Q := by
  intro k₁ m s n t hk _ hstates
  obtain ⟨k₂, hk₂, htables, hcalm, hQ⟩ := h k₁ s t hk hstates.tables hstates.calm
  exact ⟨k₂, hk₂, ⟨htables, hcalm, hstates.notes.mono hk₂⟩, .refl _ n, hQ⟩

theorem readTable {f : Table → Checking α} {g : Table → Checking β}
    (hfg : ∀ k₁ s t, k.Grows k₁ → k₁.Between s t → InStep k₁ files c (f s) (g t) Q) :
    InStep k files c (getThe Table >>= f) (getThe Table >>= g) Q :=
  fun k₁ m s n t hk hc hstates => hfg k₁ s t hk hstates.tables k₁ m s n t (.refl k₁) hc hstates

theorem change {f g : Table → Table}
    (hfg : ∀ k₁ s t, k.Grows k₁ → k₁.Between s t → t.Calm → k₁.Between (f s) (g t) ∧ (g t).Calm) :
    InStep k files c (Checking.change f) (Checking.change g) fun _ _ _ => True := by
  intro k₁ m s n t hk _ hstates
  obtain ⟨htables, hcalm⟩ := hfg k₁ s t hk hstates.tables hstates.calm
  exact ⟨k₁, .refl k₁, ⟨htables, hcalm, hstates.notes⟩, .refl _ n, trivial⟩

theorem readContext {f : Context → Checking α} {g : Context → Checking β} (hfg : InStep k files c (f c) (g c) Q) :
    InStep k files c (read >>= f) (read >>= g) Q :=
  fun k₁ m s n t hk hc hstates => hfg k₁ m s n t hk hc hstates

/-! ### Records -/

theorem modifyInfo {f g : FileInfo → FileInfo}
    (hfg : ∀ k₁ x y, k.Grows k₁ → FileInfo.Alike k₁ x y → (f x).Alike k₁ (g y)) :
    InStep k files c (Checking.modifyInfo f) (Checking.modifyInfo g) fun _ _ _ => True := by
  intro k₁ m s n t hk _ hstates
  refine ⟨k₁, .refl k₁, ⟨hstates.tables, hstates.calm, hstates.notes.scope, hstates.notes.locals, fun i hi => ?_⟩,
    ⟨rfl, rfl, fun i hi => ?_⟩, trivial⟩
  · show Option.Rel _ (m.infos.modify c.file.index f)[i]? (n.infos.modify c.file.index g)[i]?
    rw [Array.getElem?_modify, Array.getElem?_modify]
    have hinfo := hstates.notes.infos i hi
    split
    · rcases optionRel_cases hinfo with ⟨hm, hn⟩ | ⟨x, y, hm, hn, hxy⟩ <;> rw [hm, hn]
      · exact .none
      · exact .some (hfg k₁ x y hk hxy)
    · exact hinfo
  · show (n.infos.modify c.file.index g)[i]? = _
    rw [Array.getElem?_modify, if_neg (Ne.symm hi)]

theorem noteType (id : Nat) {a b : TypeId} (hab : k.types a b) :
    InStep k files c (Checking.noteType id a) (Checking.noteType id b) fun _ _ _ => True :=
  modifyInfo fun _ _ _ hk hxy => ⟨.cons ⟨rfl, hk.types hab⟩ hxy.types, hxy.selections, hxy.uses, hxy.defs⟩

theorem noteUse (id : Nat) {x y : Object} (hxy : x.Alike k y) :
    InStep k files c (Checking.noteUse id x) (Checking.noteUse id y) fun _ _ _ => True :=
  modifyInfo fun _ _ _ hk h => ⟨h.types, h.selections, .cons ⟨rfl, hxy.mono hk⟩ h.uses, h.defs⟩

theorem noteSelection (id : Nat) {x y : Selection} (hxy : x.Alike k y) :
    InStep k files c (Checking.noteSelection id x) (Checking.noteSelection id y) fun _ _ _ => True :=
  modifyInfo fun _ _ _ hk h => ⟨h.types, .cons ⟨rfl, hxy.mono hk⟩ h.selections, h.uses, h.defs⟩

theorem noteDef (pos : Pos) {x y : Object} (hxy : x.Alike k y) :
    InStep k files c (Checking.noteDef pos x) (Checking.noteDef pos y) fun _ _ _ => True :=
  modifyInfo fun _ _ _ hk h =>
    ⟨h.types, h.selections, h.uses, .cons ⟨rfl, hxy.mono hk⟩ (filter_keyed (· != pos) h.defs)⟩

theorem askInfo {f : FileInfo → α} {g : FileInfo → β}
    (hfg : ∀ k₁ s t x y, k.Grows k₁ → k₁.Between s t → FileInfo.Alike k₁ x y → Q k₁ (f x) (g y)) :
    InStep k files c (Checking.askInfo f) (Checking.askInfo g) Q :=
  fun k₁ _ s n t hk hc hstates => ⟨k₁, .refl k₁, hstates, .refl _ n,
    hfg k₁ s t _ _ hk hstates.tables (rel_getD (hstates.notes.infos _ hc.known) FileInfo.alike_empty)⟩

theorem useOf? (id : Nat) :
    InStep k files c (Checking.useOf? id) (Checking.useOf? id) fun k => Option.Rel (Object.Alike k) :=
  askInfo fun _ _ _ _ _ _ _ hxy => lookup_keyed hxy.uses id

theorem knownTypes :
    InStep k files c Checking.knownTypes Checking.knownTypes fun k f g => ∀ id, Option.Rel k.types (f id) (g id) :=
  askInfo fun _ _ _ _ _ _ hst hxy id => hxy.type? hst id

/-! ### Scopes -/

theorem inScope (h : InStep k files c x y Q) : InStep k files c (Checking.inScope x) (Checking.inScope y) Q := by
  intro k₁ m s n t hk hc hstates
  have hnotes : Notes.Alike k₁ files { m with locals := .empty :: m.locals } { n with locals := .empty :: n.locals } :=
    ⟨hstates.notes.scope, .cons Scope.alike_empty hstates.notes.locals, hstates.notes.infos⟩
  obtain ⟨k₂, hk₂, hstates₂, hframe, hQ⟩ := h k₁ _ s _ t hk hc ⟨hstates.tables, hstates.calm, hnotes⟩
  refine ⟨k₂, hk₂, ⟨hstates₂.tables, hstates₂.calm, hstates₂.notes.scope, forall₂_tail hstates₂.notes.locals, hstates₂.notes.infos⟩,
    ⟨hframe.scope, ?_, hframe.infos⟩, hQ⟩
  show (y.eval c { n with locals := .empty :: n.locals } t).1.2.locals.tail.length = _
  rw [List.length_tail, hframe.locals]
  rfl

theorem defineLocal (name : String) {x y : Object} (hxy : x.Alike k y) :
    InStep k files c (Checking.defineLocal name x) (Checking.defineLocal name y) fun _ _ _ => True := by
  intro k₁ m s n t hk _ hstates
  rw [eval_defineLocal, eval_defineLocal]
  have hlocals : ∀ {xs ys : List Scope}, List.Forall₂ (Scope.Alike k₁) xs ys →
      List.Forall₂ (Scope.Alike k₁) (xs.modifyHead (·.insert name x)) (ys.modifyHead (·.insert name y)) := by
    intro xs ys hxys
    cases hxys with
    | nil => exact .nil
    | cons hscope h => exact .cons (hscope.insert name (hxy.mono hk)) h
  exact ⟨k₁, .refl k₁, ⟨hstates.tables, hstates.calm, hstates.notes.scope, hlocals hstates.notes.locals, hstates.notes.infos⟩,
    ⟨rfl, List.length_modifyHead, fun _ _ => rfl⟩, trivial⟩

theorem findSome?_scopes {xs ys : List Scope} (h : List.Forall₂ (Scope.Alike k) xs ys) (name : String) :
    Option.Rel (Object.Alike k) (xs.findSome? (·.find? name)) (ys.findSome? (·.find? name)) := by
  induction h with
  | nil => exact .none
  | cons hxy _ ih =>
    rw [List.findSome?_cons, List.findSome?_cons]
    rcases optionRel_cases (hxy.find? name) with ⟨hx, hy⟩ | ⟨a, b, hx, hy, hab⟩ <;> rw [hx, hy]
    · exact ih
    · exact .some hab

theorem lookup (name : String) :
    InStep k files c (Checking.lookup name) (Checking.lookup name) fun k => Option.Rel (Object.Alike k) := by
  intro k₁ m s n t _ hc hstates
  refine ⟨k₁, .refl k₁, hstates, .refl _ n, findSome?_scopes ?_ name⟩
  exact List.rel_append hstates.notes.locals
    (.cons hc.file (.cons hstates.notes.scope (.cons (Scope.alike_predeclared hstates.tables) .nil)))

theorem innermost? (name : String) :
    InStep k files c (Checking.innermost? name) (Checking.innermost? name) fun k => Option.Rel (Object.Alike k) := by
  intro k₁ m s n t _ _ hstates
  refine ⟨k₁, .refl k₁, hstates, .refl _ n, ?_⟩
  have hlocals := hstates.notes.locals
  show Option.Rel _ (m.locals.head?.bind (·.find? name)) (n.locals.head?.bind (·.find? name))
  generalize m.locals = xs at hlocals
  generalize n.locals = ys at hlocals
  cases hlocals with
  | nil => exact .none
  | cons hxy _ => exact hxy.find? name

theorem packageLevel? (name : String) :
    InStep k files c (Checking.packageLevel? name) (Checking.packageLevel? name) fun k => Option.Rel (Object.Alike k) :=
  fun k₁ _ _ n _ _ _ hstates => ⟨k₁, .refl k₁, hstates, .refl _ n, hstates.notes.scope.find? name⟩

theorem member (id : PackageId) (name : String) :
    InStep k files c (Checking.member id name) (Checking.member id name) fun k => Option.Rel (Object.Alike k) := by
  intro k₁ m s n t _ hc hstates
  refine ⟨k₁, .refl k₁, hstates, .refl _ n, ?_⟩
  show Option.Rel _ (c.packages[id.index]?.bind (·.scope.find? name)) (c.packages[id.index]?.bind (·.scope.find? name))
  cases hp : c.packages[id.index]? with
  | none => exact .none
  | some p => exact (hc.packages _ p hp).find? name

end InStep

end Checking

/-! ## The logic -/

theorem answers_of_between {k : Correspondence} {s t : Table} (h : k.Between s t) : k.Answers s t where
  toReads := h.reads
  lookup name hab := h.lookup hab name
  unify hparams hab hab' hm := h.unify hparams hab hab' hm

theorem Ty.closed_of_isPlain {ty : Ty} (h : ty.isPlain = true) : ty.isWrapping = false ∧ ty.isOpen = false := by
  cases ty with
  | array | map | chan | signature | struct | tuple | union => exact ⟨rfl, rfl⟩
  | _ => cases h

/-- States that correspond are led to states that correspond. Only local names are entered. -/
def inStep (files : Nat → Prop) : Logic where
  World := Correspondence
  corr := id
  Later := Correspondence.Grows
  refl := .refl
  trans := .trans
  grows := id
  declares _ _ := True
  records _ := True
  denotes _ _ := True
  methods k := k.funcs
  methods_later hk := hk.funcs
  Holds m k c _ _ x y Q := m ≠ some .package → Checking.InStep k files c x y Q
  weaken h hk hm := (h hm).weaken hk
  pure h _ := .pure h
  bind hxy hfg hm := (hxy hm).bind fun k₁ a b hk hab => hfg k₁ a b hk hab hm
  given h hm := .given fun k₁ s t hk hst => h k₁ s t hk (answers_of_between hst) hm
  readTable h hm := .readTable fun k₁ s t hk hst => h k₁ s t hk (answers_of_between hst) hm
  readContext h hm := .readContext (h hm)
  noteType id h _ := .noteType id h
  noteUse id h _ := .noteUse id h
  noteSelection id h _ _ := .noteSelection id h
  noteDef _ h _ _ := .noteDef _ h
  useOf? id _ := .useOf? id
  knownTypes _ := .knownTypes
  inScope h _ := .inScope (h nofun)
  defineLocal name h _ := .defineLocal name h
  definePackageLevel _ _ hm := absurd rfl hm
  lookup name _ := .lookup name
  innermost? name _ := .innermost? name
  packageLevel? name _ := .packageLevel? name
  member id name _ := .member id name
  push h hplain _ :=
    .lift (Build.inStep_push h (Ty.closed_of_isPlain hplain).1 (h.isOpen.trans (Ty.closed_of_isPlain hplain).2))
  pointer h _ := .lift (Build.inStep_pointer h)
  slice h _ := .lift (Build.inStep_slice h)
  interface hmethods hembedded _ := .lift (Build.inStep_interface hmethods hembedded)
  instantiate h hargs _ := .lift (Build.inStep_instantiate h hargs)
  subst hmap h _ := .lift (Build.inStep_subst hmap h)
  newMethod h _ _ _ _ _ hrest hm := by
    refine .bind (.lift (Build.inStep_newFunc h)) fun k₁ f g hk₁ hfg => ?_
    exact .bind (.noteDef _ (.func hfg)) fun k₂ _ _ hk₂ _ => hrest k₂ f g (hk₁.trans hk₂) (hk₂.funcs hfg) hm
  newNamed {_ _ _ _ _ name package _ _ _} hrest hm := by
    refine .given fun k₁ _ _ hk₁ hst => ?_
    have hinvalid := hst.reads.invalid
    have hnew : Types.Named.Alike k₁
        { name, package, rhs := .invalid, methods := [], typeParams := [], origin := none, typeArgs := [], expanded := true }
        { name, package, rhs := .invalid, methods := [], typeParams := [], origin := none, typeArgs := [], expanded := true } :=
      ⟨rfl, rfl, hinvalid, .nil, .nil, .none, .nil, rfl⟩
    refine .bind (.lift (Build.inStep_pushNew (.named hnew) rfl fun _ => rfl)) fun k₂ a b hk₂ hab => ?_
    refine hrest k₂ a b (hk₁.trans hk₂) hab.1 (fun {_ k₃ a' b'} hk₃ hab' _ => .change fun k₄ s t hk₄ hst hcalm => ⟨?_, ?_⟩) hm
    · -- the type is new, so it may be changed
      refine hst.modifyNamed ((hk₃.trans hk₄).types hab.1) ?_ (fun d e hde => ?_) (fun _ => ⟨rfl, rfl⟩) fun _ => ⟨rfl, rfl⟩
      · rw [(hk₃.trans hk₄).base]
        exact hab.2
      · exact { hde with rhs := hk₄.types hab' }
    · exact hcalm.modifyNamed fun _ => ⟨rfl, rfl⟩

/-! ## Bodies -/

section

variable {k : Correspondence} {files : Nat → Prop} {c : Context}

theorem inStep_checkFunc (f : FuncDecl) {id : FuncId} (hid : k.funcs id id) :
    Checking.InStep k files c (checkFunc f id) (checkFunc f id) fun _ _ _ => True :=
  holds_checkFunc (L := inStep files) (m := none) f hid (fun _ _ => trivial) (fun _ _ => trivial) nofun

theorem inStep_checkMethod {m : AttachedMethod} (hid : k.funcs m.id m.id) (howner : k.types m.owner m.owner) :
    Checking.InStep k files c (checkMethod m) (checkMethod m) fun _ _ _ => True :=
  holds_checkMethod (L := inStep files) (m := none) hid howner (fun _ _ => trivial) (fun _ _ => trivial)
    (fun _ _ => trivial) nofun

end

end UnusedMethods.Typing
