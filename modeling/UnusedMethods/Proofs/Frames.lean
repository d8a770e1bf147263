import UnusedMethods.Proofs.BodyRules
import UnusedMethods.Proofs.Checking

/-!
# What checking does to scopes and records

An expression is checked without a change of any scope: the scopes that a function literal opens are closed again.
A statement only enters names into the innermost local scope; a statement with a block or with clauses does not even
do that, as it opens a scope of its own.

Meanwhile it is recorded what the declared names denote, by the place of the name in its file. Nothing is recorded at a place
that is not among the `places` of the syntax that is checked. So what has been recorded about a name stays as it is while
other pieces of syntax are checked.

All this is a logic, so it is enough to show what the single steps do.
-/

namespace UnusedMethods

namespace Typing

open Syntax UnusedMethods.Types

/-- The scopes that are open. -/
def Notes.scopes (n : Notes) : Scope × List Scope := (n.scope, n.locals)

/-- The scopes that are open, without the innermost local one. -/
def Notes.outerScopes (n : Notes) : Scope × List Scope := (n.scope, n.locals.tail)

/-- What the name declared at a place of a file denotes, as far as it is recorded. -/
def Notes.def? (n : Notes) (file : Nat) (pos : Pos) : Option Object := n.infos[file]?.bind (·.def? pos)

/-- Package-level names and all local scopes but the innermost are as they were. Names have been entered into that one. -/
def Notes.Entered (n n' : Notes) : Prop := n'.scope = n.scope ∧
  ∃ bindings, n'.locals = n.locals.modifyHead (·.insertAll ⟨bindings⟩)

theorem Notes.entered_of_scopes {n n' : Notes} (h : n'.scopes = n.scopes) : n.Entered n' := by
  obtain ⟨hscope, hlocals⟩ := Prod.mk.inj h
  refine ⟨hscope, [], ?_⟩
  rw [hlocals]
  cases n.locals <;> rfl

theorem Notes.Entered.trans {n n' n'' : Notes} (h : n.Entered n') (h' : n'.Entered n'') : n.Entered n'' := by
  obtain ⟨hscope, bindings, hlocals⟩ := h
  obtain ⟨hscope', bindings', hlocals'⟩ := h'
  refine ⟨hscope'.trans hscope, bindings ++ bindings', ?_⟩
  -- names that are entered by one step and then by another are entered by both
  rw [hlocals', hlocals]
  cases n.locals with
  | nil => rfl
  | cons s rest => simp [Scope.insertAll, List.foldl_append]

/-- The number of files about which there are records, and what is on record at a place of one of them. -/
def Notes.recordAt (n : Notes) (file : Nat) (pos : Pos) : Nat × Option Object := (n.infos.size, n.def? file pos)

namespace Checking

variable {α β γ : Type}

/-! ## Parts of the notes that stay as they are -/

/-- The step leaves a part of the notes as it is. -/
def Keeps (part : Notes → γ) (x : Checking α) : Prop := ∀ c n t, part (x.eval c n t).1.2 = part n

namespace Keeps

variable {part : Notes → γ}

theorem pure (a : α) : Keeps part (Pure.pure a : Checking α) := fun _ _ _ => rfl

theorem bind {x : Checking α} {f : α → Checking β} (hx : Keeps part x) (hf : ∀ a, Keeps part (f a)) :
    Keeps part (x >>= f) := by
  intro c n t
  rw [eval_bind, hf _ c _ _]
  exact hx c n t

theorem lift (x : Build α) : Keeps part (liftM x : Checking α) := fun _ _ _ => rfl

theorem ask (f : Table → α) : Keeps part (Checking.ask f) := fun _ _ _ => rfl

theorem change (f : Table → Table) : Keeps part (Checking.change f) := fun _ _ _ => rfl

theorem readContext : Keeps part (read : Checking Context) := fun _ _ _ => rfl

theorem lookup (name : String) : Keeps part (Checking.lookup name) := fun _ _ _ => rfl

theorem inFile {file : CurrentFile} {x : Checking α} (hx : Keeps part x) : Keeps part (Checking.inFile file x) :=
  fun c n t => hx { c with file } n t

theorem forM {f : α → Checking Unit} {as : List α} (hf : ∀ a ∈ as, Keeps part (f a)) : Keeps part (as.forM f) := by
  induction as with
  | nil => exact pure ()
  | cons a as ih => exact bind (hf a (by simp)) fun _ => ih fun a' ha' => hf a' (by simp [ha'])

theorem forEach {items : List (CurrentFile × α)} {f : α → Checking Unit} (hf : ∀ p ∈ items, Keeps part (f p.2)) :
    Keeps part (Checking.forEach items f) :=
  forM fun p hp => inFile (hf p hp)

theorem mapM {f : α → Checking β} {as : List α} (hf : ∀ a ∈ as, Keeps part (f a)) : Keeps part (as.mapM f) := by
  induction as with
  | nil =>
    rw [List.mapM_nil]
    exact pure []
  | cons a as ih =>
    rw [List.mapM_cons]
    exact bind (hf a (by simp)) fun _ => bind (ih fun a' ha' => hf a' (by simp [ha'])) fun _ => pure _

end Keeps

/-! ## Records -/

section

variable {P : Pos → Prop}

/-- The step records what names denote at places of the current file with the property `P`, and nowhere else. -/
structure Records (P : Pos → Prop) (x : Checking α) : Prop where
  size : Keeps (fun n => n.infos.size) x
  def? : ∀ c n t file pos, (c.file.index = file → ¬ P pos) → (x.eval c n t).1.2.def? file pos = n.def? file pos

namespace Records

theorem ofKeeps {x : Checking α} (h : Keeps Notes.infos x) : Records P x where
  size c n t := congrArg Array.size (h c n t)
  def? c n t file pos _ := by rw [Notes.def?, h c n t, Notes.def?]

theorem bind {x : Checking α} {f : α → Checking β} (hx : Records P x) (hf : ∀ a, Records P (f a)) :
    Records P (x >>= f) where
  size := hx.size.bind fun a => (hf a).size
  def? c n t file pos h := by
    rw [eval_bind, (hf _).def? c _ _ file pos h]
    exact hx.def? c n t file pos h

theorem modifyInfo {f : FileInfo → FileInfo} (hf : ∀ info pos, ¬ P pos → (f info).def? pos = info.def? pos) :
    Records P (Checking.modifyInfo f) where
  size c n t := Array.size_modify
  def? c n t file pos h := by
    show ((n.infos.modify c.file.index f)[file]?.bind fun info => info.def? pos) = _
    rw [Array.getElem?_modify, Notes.def?]
    split
    · rename_i hfile
      rw [Option.bind_map]
      exact Option.bind_congr fun info _ => hf info pos (h hfile)
    · rfl

theorem lookup_filter_ne {defs : List (Pos × Object)} {pos pos' : Pos} (h : pos ≠ pos') :
    (defs.filter fun d => d.1 != pos').lookup pos = defs.lookup pos := by
  induction defs with
  | nil => rfl
  | cons d defs ih =>
    by_cases hd : d.1 = pos'
    · rw [List.filter_cons_of_neg (by simpa using hd), ih, List.lookup_cons]
      have hpos : (pos == d.1) = false := by simpa [hd] using h
      rw [hpos]
    · rw [List.filter_cons_of_pos (by simpa using hd), List.lookup_cons, List.lookup_cons, ih]

theorem noteDef {pos : Pos} (hpos : P pos) (obj : Object) : Records P (Checking.noteDef pos obj) := by
  refine modifyInfo fun info pos' hpos' => ?_
  have hne : pos' ≠ pos := fun h => hpos' (h ▸ hpos)
  show ((pos, obj) :: info.defs.filter fun d => d.1 != pos).lookup pos' = info.defs.lookup pos'
  have hhead : (pos' == pos) = false := by simpa using hne
  rw [List.lookup_cons, hhead]
  exact lookup_filter_ne hne

/-- A step in a file records nothing at other places, and nothing in other files. -/
theorem keeps_inFile {x : Checking α} (hx : Records P x) {file : CurrentFile} {i : Nat} {pos : Pos}
    (h : file.index = i → ¬ P pos) : Keeps (fun n => n.recordAt i pos) (Checking.inFile file x) :=
  fun c n t => Prod.ext (hx.size { c with file } n t) (hx.def? { c with file } n t i pos h)

end Records

end

section RecordAt

variable {x : Checking α} {i : Nat} {pos : Pos}

theorem Keeps.size (h : Keeps (fun n => n.recordAt i pos) x) : Keeps (fun n => n.infos.size) x :=
  fun c n t => congrArg Prod.fst (h c n t)

theorem Keeps.def? (h : Keeps (fun n => n.recordAt i pos) x) : Keeps (fun n => n.def? i pos) x :=
  fun c n t => congrArg Prod.snd (h c n t)

end RecordAt

/-! ## Scopes -/

/-- The step leaves the package-level names and all local scopes but the innermost as they are, and only enters names
into the innermost. -/
def Extends (x : Checking α) : Prop := ∀ c n t, (x.eval c n t).1.2.scope = n.scope ∧
  ∃ bindings, (x.eval c n t).1.2.locals = n.locals.modifyHead (·.insertAll ⟨bindings⟩)

theorem Keeps.extends {x : Checking α} (h : Keeps Notes.scopes x) : Extends x := fun c n t => Notes.entered_of_scopes (h c n t)

namespace Extends

theorem bind {x : Checking α} {f : α → Checking β} (hx : Extends x) (hf : ∀ a, Extends (f a)) : Extends (x >>= f) :=
  fun c n t => Notes.Entered.trans (hx c n t) (hf _ c _ _)

theorem defineLocal (name : String) (obj : Object) : Extends (Checking.defineLocal name obj) := by
  intro c n t
  rw [eval_defineLocal]
  exact ⟨rfl, [(name, obj)], rfl⟩

/-- A scope that a step opens is closed again, with all names that have been entered into it. -/
theorem inScope {x : Checking α} (h : Extends x) : Keeps Notes.scopes (Checking.inScope x) := by
  intro c n t
  obtain ⟨hscope, bindings, hlocals⟩ := h c { n with locals := .empty :: n.locals } t
  exact Prod.ext hscope (congrArg List.tail hlocals)

theorem outer {x : Checking α} (h : Extends x) : Keeps Notes.outerScopes x := by
  intro c n t
  obtain ⟨hscope, bindings, hlocals⟩ := h c n t
  refine Prod.ext hscope ?_
  show (x.eval c n t).1.2.locals.tail = n.locals.tail
  rw [hlocals]
  cases n.locals <;> rfl

end Extends

/-! ## Quiet steps, and steps that enter names -/

variable {P : Pos → Prop} {level : Level}

/-- The step leaves scopes alone, and records what names denote at places with the property `P` only. -/
structure Quiet (P : Pos → Prop) (x : Checking α) : Prop where
  scopes : Keeps Notes.scopes x
  records : Records P x

/-- The step enters names at a level, and records what names denote at places with the property `P` only. -/
structure Enters (level : Level) (P : Pos → Prop) (x : Checking α) : Prop where
  scopes : level = .local → Extends x
  records : Records P x

namespace Quiet

/-- A step that leaves the notes alone. -/
theorem reads {x : Checking α} (h : Keeps id x) : Quiet P x where
  scopes c n t := congrArg Notes.scopes (h c n t)
  records := .ofKeeps fun c n t => congrArg Notes.infos (h c n t)

theorem pure (a : α) : Quiet P (Pure.pure a : Checking α) := reads (.pure a)

theorem lift (x : Build α) : Quiet P (liftM x : Checking α) := reads (.lift x)

theorem ask (f : Table → α) : Quiet P (Checking.ask f) := reads (.ask f)

theorem change (f : Table → Table) : Quiet P (Checking.change f) := reads (.change f)

theorem lookup (name : String) : Quiet P (Checking.lookup name) := reads (.lookup name)

theorem askInfo (f : FileInfo → α) : Quiet P (Checking.askInfo f) := reads fun _ _ _ => rfl

theorem bind {x : Checking α} {f : α → Checking β} (hx : Quiet P x) (hf : ∀ a, Quiet P (f a)) : Quiet P (x >>= f) :=
  ⟨hx.scopes.bind fun a => (hf a).scopes, hx.records.bind fun a => (hf a).records⟩

theorem discard {x : Checking α} (hx : Quiet P x) : Quiet P (do let _ ← x) := hx.bind fun _ => pure _

theorem noteType (id : Nat) (type : TypeId) : Quiet P (Checking.noteType id type) :=
  ⟨fun _ _ _ => rfl, .modifyInfo fun _ _ _ => rfl⟩

theorem noteUse (id : Nat) (obj : Object) : Quiet P (Checking.noteUse id obj) :=
  ⟨fun _ _ _ => rfl, .modifyInfo fun _ _ _ => rfl⟩

theorem noteSelection (id : Nat) (s : Selection) : Quiet P (Checking.noteSelection id s) :=
  ⟨fun _ _ _ => rfl, .modifyInfo fun _ _ _ => rfl⟩

theorem noteDef {pos : Pos} (hpos : P pos) (obj : Object) : Quiet P (Checking.noteDef pos obj) :=
  ⟨fun _ _ _ => rfl, .noteDef hpos obj⟩

theorem forM {f : α → Checking Unit} {as : List α} (hf : ∀ a ∈ as, Quiet P (f a)) : Quiet P (as.forM f) := by
  induction as with
  | nil => exact pure ()
  | cons a as ih => exact bind (hf a (by simp)) fun _ => ih fun a' ha' => hf a' (by simp [ha'])

theorem inScope {x : Checking α} (hx : Enters .local P x) : Quiet P (Checking.inScope x) where
  scopes := (hx.scopes rfl).inScope
  records :=
    { size := fun c n t => hx.records.size c { n with locals := .empty :: n.locals } t
      def? := fun c n t => hx.records.def? c { n with locals := .empty :: n.locals } t }

theorem enters {x : Checking α} (hx : Quiet P x) : Enters level P x := ⟨fun _ => hx.scopes.extends, hx.records⟩

end Quiet

namespace Enters

variable {f : α → Checking β}

theorem pure (a : α) : Enters level P (Pure.pure a : Checking α) := (Quiet.pure a).enters

theorem bind {x : Checking α} (hx : Enters level P x) (hf : ∀ a, Enters level P (f a)) : Enters level P (x >>= f) :=
  ⟨fun h => (hx.scopes h).bind fun a => (hf a).scopes h, hx.records.bind fun a => (hf a).records⟩

theorem after {x : Checking α} (hx : Quiet P x) (hf : ∀ a, Enters level P (f a)) : Enters level P (x >>= f) :=
  bind hx.enters hf

theorem defineLocal (name : String) (obj : Object) : Enters level P (Checking.defineLocal name obj) :=
  ⟨fun _ => .defineLocal name obj, .ofKeeps fun _ _ _ => rfl⟩

theorem definePackageLevel (name : String) (obj : Object) : Enters .package P (Checking.definePackageLevel name obj) :=
  ⟨nofun, .ofKeeps fun _ _ _ => rfl⟩

theorem declare (level : Level) {name : Ident} (hname : P name.pos) (obj : Object) :
    Enters level P (Checking.declare level name obj) := by
  unfold Checking.declare
  split
  · cases level with
    | package => exact .bind (definePackageLevel _ _) fun _ => (Quiet.noteDef hname obj).enters
    | «local» => exact .bind (defineLocal _ _) fun _ => (Quiet.noteDef hname obj).enters
  · exact pure _

theorem forM {f : α → Checking Unit} {as : List α} (hf : ∀ a ∈ as, Enters level P (f a)) : Enters level P (as.forM f) := by
  induction as with
  | nil => exact pure ()
  | cons a as ih => exact bind (hf a (by simp)) fun _ => ih fun a' ha' => hf a' (by simp [ha'])

theorem mapM {as : List α} (hf : ∀ a ∈ as, Enters level P (f a)) : Enters level P (as.mapM f) := by
  induction as with
  | nil =>
    rw [List.mapM_nil]
    exact pure []
  | cons a as ih =>
    rw [List.mapM_cons]
    exact bind (hf a (by simp)) fun _ => bind (ih fun a' ha' => hf a' (by simp [ha'])) fun _ => pure _

end Enters

end Checking

open Checking (Keeps Records Extends Quiet Enters)

/-! ## The logic -/

section

variable {P : Pos → Prop} {α : Type}

variable {m : Option Level} {c : Context}

/-- What a step may do to notes, depending on the level at which it enters names. -/
structure Notes.Frame (m : Option Level) (P : Pos → Prop) (file : Nat) (n n' : Notes) : Prop where
  scopes : m = none → n'.scopes = n.scopes
  locals : m = some .local → n.Entered n'
  size : n'.infos.size = n.infos.size
  def? : ∀ i pos, (file = i → ¬ P pos) → n'.def? i pos = n.def? i pos

theorem Notes.Frame.trans {file : Nat} {n n' n'' : Notes} (h : n.Frame m P file n') (h' : n'.Frame m P file n'') :
    n.Frame m P file n'' where
  scopes hm := (h'.scopes hm).trans (h.scopes hm)
  locals hm := (h.locals hm).trans (h'.locals hm)
  size := h'.size.trans h.size
  def? i pos hpos := (h'.def? i pos hpos).trans (h.def? i pos hpos)

theorem Checking.Quiet.frame {x : Checking α} (h : Quiet P x) (m : Option Level) (c : Context) (n : Notes) (t : Table) :
    n.Frame m P c.file.index (x.eval c n t).1.2 where
  scopes _ := h.scopes c n t
  locals _ := Notes.entered_of_scopes (h.scopes c n t)
  size := h.records.size c n t
  def? := h.records.def? c n t

theorem Checking.Enters.frame {level : Level} {x : Checking α} (h : Enters level P x) (c : Context) (n : Notes) (t : Table) :
    n.Frame (some level) P c.file.index (x.eval c n t).1.2 where
  scopes := nofun
  locals hm := h.scopes (Option.some.inj hm) c n t
  size := h.records.size c n t
  def? := h.records.def? c n t

/-- Types and functions stand for themselves. -/
theorem answers_same (t : Table) : (Correspondence.same .predeclared).Answers t t := by
  refine Correspondence.Reads.answers ⟨?_, ?_, ?_, fun _ => rfl⟩
  · exact ⟨fun _ _ _ h h' => h.trans h'.symm, fun _ _ _ h h' => h.symm.trans h'⟩
  · rintro a _ rfl
    exact Ty.alike_self (fun _ _ => rfl) (fun _ _ => rfl) fun _ _ => rfl
  · rintro f _ rfl
    exact Func.alike_self (fun _ _ => rfl) fun _ _ => rfl

theorem alike_same (x : Object) : x.Alike (.same .predeclared) x := by
  cases x with
  | var a => exact .var rfl
  | const a => exact .const rfl
  | typeName a => exact .typeName rfl
  | func f => exact .func rfl
  | package id => exact .package id
  | builtin b => exact .builtin b
  | nil => exact .nil

theorem rel_same (o : Option Object) : Option.Rel (Object.Alike (.same .predeclared)) o o := by
  cases o with
  | none => exact .none
  | some x => exact .some (alike_same x)

/-- Two steps are the same, and change notes only as they may. -/
def Framing (P : Pos → Prop) (m : Option Level) (c : Context) {α β : Type} (x : Checking α) (y : Checking β)
    (Q : α → β → Prop) : Prop :=
  ∀ n t, n.Frame m P c.file.index (x.eval c n t).1.2 ∧ (y.eval c n t).1.2 = (x.eval c n t).1.2 ∧
    (y.eval c n t).2 = (x.eval c n t).2 ∧ Q (x.eval c n t).1.1 (y.eval c n t).1.1

theorem Checking.Quiet.framing {x : Checking α} {Q : α → α → Prop} (h : Quiet P x) (hQ : ∀ a, Q a a) : Framing P m c x x Q :=
  fun n t => ⟨h.frame m c n t, rfl, rfl, hQ _⟩

theorem Framing.bind {α' β β' : Type} {x : Checking α} {y : Checking β} {f : α → Checking α'} {g : β → Checking β'}
    {Q : α → β → Prop} {R : α' → β' → Prop} (hxy : Framing P m c x y Q) (hfg : ∀ a b, Q a b → Framing P m c (f a) (g b) R) :
    Framing P m c (x >>= f) (y >>= g) R := by
  intro n t
  obtain ⟨hframe, hnotes, htable, hQ⟩ := hxy n t
  obtain ⟨hframe', hsame⟩ := hfg _ _ hQ (x.eval c n t).1.2 (x.eval c n t).2
  rw [Checking.eval_bind, Checking.eval_bind, hnotes, htable]
  exact ⟨hframe.trans hframe', hsame⟩

theorem Framing.inScope {β : Type} {x : Checking α} {y : Checking β} {Q : α → β → Prop} (h : Framing P (some .local) c x y Q) :
    Framing P m c (Checking.inScope x) (Checking.inScope y) Q := by
  intro n t
  obtain ⟨hframe, hnotes, htable, hQ⟩ := h { n with locals := .empty :: n.locals } t
  obtain ⟨hscope, bindings, hlocals⟩ := hframe.locals rfl
  have hscopes : ((Checking.inScope x).eval c n t).1.2.scopes = n.scopes := Prod.ext hscope (congrArg List.tail hlocals)
  refine ⟨⟨fun _ => hscopes, fun _ => Notes.entered_of_scopes hscopes, hframe.size, hframe.def?⟩, ?_, htable, hQ⟩
  exact congrArg (fun n : Notes => { n with locals := n.locals.tail }) hnotes

/-- Scopes are left alone or extended, and records are made at certain places only. -/
def framing (P : Pos → Prop) : Logic where
  World := Unit
  corr _ := .same .predeclared
  Later _ _ := True
  refl _ := trivial
  trans _ _ := trivial
  grows _ := .refl _
  declares _ _ := True
  records := P
  denotes _ _ := True
  methods _ := Eq
  methods_later _ h := h
  Holds m _ c _ _ x y Q := Framing P m c x y (Q ())
  weaken h _ := h
  pure h := fun n t => ⟨(Quiet.pure _).frame _ _ n t, rfl, rfl, h () trivial⟩
  bind hxy hfg := hxy.bind fun a b hab => hfg () a b trivial hab
  given h := h () _ _ trivial (answers_same .predeclared)
  readTable h := fun n t => h () t t trivial (answers_same t) n t
  readContext h := h
  noteType _ h := by
    cases h
    exact (Quiet.noteType _ _).framing fun _ => trivial
  noteUse _ h := by
    obtain rfl := h.eq
    exact (Quiet.noteUse _ _).framing fun _ => trivial
  noteSelection _ h _ := by
    obtain rfl := h.eq
    exact (Quiet.noteSelection _ _).framing fun _ => trivial
  noteDef hpos h _ := by
    obtain rfl := h.eq
    exact (Quiet.noteDef hpos _).framing fun _ => trivial
  useOf? _ := (Quiet.askInfo _).framing rel_same
  knownTypes := (Quiet.askInfo _).framing fun f id => by cases f id with | none => exact .none | some a => exact .some rfl
  inScope h := h.inScope
  defineLocal _ h := by
    obtain rfl := h.eq
    exact fun n t => ⟨(Enters.defineLocal _ _).frame _ n t, rfl, rfl, trivial⟩
  definePackageLevel _ h := by
    obtain rfl := h.eq
    exact fun n t => ⟨(Enters.definePackageLevel _ _).frame _ n t, rfl, rfl, trivial⟩
  lookup name := (Quiet.lookup name).framing rel_same
  innermost? _ := (Quiet.reads fun _ _ _ => rfl).framing rel_same
  packageLevel? _ := (Quiet.reads fun _ _ _ => rfl).framing rel_same
  member _ _ := (Quiet.reads fun _ _ _ => rfl).framing rel_same
  push h hplain := by
    obtain rfl := h.eq_of_isPlain hplain
    exact (Quiet.lift _).framing fun _ => rfl
  pointer h := by
    cases h
    exact (Quiet.lift _).framing fun _ => rfl
  slice h := by
    cases h
    exact (Quiet.lift _).framing fun _ => rfl
  interface hmethods hembedded := by
    obtain rfl := eq_of_forall₂ (fun _ _ => id) hmethods
    obtain rfl := eq_of_forall₂ (fun _ _ => id) hembedded
    exact (Quiet.lift _).framing fun _ => rfl
  instantiate h hargs := by
    cases h
    obtain rfl := eq_of_forall₂ (fun _ _ => id) hargs
    exact (Quiet.lift _).framing fun _ => rfl
  subst hmap h := by
    cases h
    obtain rfl := eq_of_forall₂ (fun _ _ hpq => Prod.ext hpq.1 hpq.2) hmap
    exact (Quiet.lift _).framing fun _ => rfl
  newMethod h _ _ _ _ hpos hrest := by
    obtain rfl := h.eq
    refine ((Quiet.lift _).framing (Q := Eq) fun _ => rfl).bind fun a b hab => ?_
    cases hab
    exact ((Quiet.noteDef hpos _).framing (Q := Eq) fun _ => rfl).bind fun _ _ _ => hrest () a a trivial rfl
  newNamed hrest := by
    refine ((Quiet.lift _).framing (Q := Eq) fun _ => rfl).bind fun a b hab => ?_
    cases hab
    refine hrest () a a trivial rfl fun _ h => ?_
    cases h
    exact (Quiet.change _).framing fun _ => trivial

/-! ## Types, expressions and declarations -/

theorem quiet_of_holds {x : Checking α} {Q : Unit → α → α → Prop} (h : ∀ c, (framing P).Holds none () c x x Q) :
    Quiet P x where
  scopes c n t := (h c n t).1.scopes rfl
  records := ⟨fun c n t => (h c n t).1.size, fun c n t => (h c n t).1.def?⟩

theorem enters_of_holds {level : Level} {x : Checking α} {Q : Unit → α → α → Prop}
    (h : ∀ c, (framing P).Holds (some level) () c x x Q) : Enters level P x where
  scopes hlevel c n t := (h c n t).1.locals (congrArg some hlevel)
  records := ⟨fun c n t => (h c n t).1.size, fun c n t => (h c n t).1.def?⟩

theorem framing_notes {names : List Ident} (h : ∀ x ∈ names, P x.pos) : ∀ x ∈ names, (framing P).Notes c x :=
  fun x hx => ⟨trivial, h x hx⟩

theorem framing_covers {places : List Pos} (h : ∀ p ∈ places, P p) (names : List Ident) :
    (framing P).Covers c names places := ⟨fun _ _ => trivial, h⟩

theorem quiet_resolveType (e : TypeExpr) (h : ∀ x ∈ e.funcNames, P x.pos) : Quiet P (resolveType e) :=
  quiet_of_holds fun _ => holds_resolveType e (framing_notes h)

theorem quiet_resolveTypes (es : List TypeExpr) (h : ∀ x ∈ TypeExpr.funcNamesAll es, P x.pos) : Quiet P (resolveTypes es) :=
  quiet_of_holds fun _ => holds_resolveTypes es (framing_notes h)

theorem quiet_resolveSignature (sig : FuncType) (h : ∀ x ∈ sig.funcNames, P x.pos) : Quiet P (resolveSignature sig) :=
  quiet_of_holds fun _ => holds_resolveSignature sig (framing_notes h)

theorem quiet_resolveMethods (ms : List MethodSpec) (h : ∀ x ∈ MethodSpec.funcNamesAll ms, P x.pos) :
    Quiet P (resolveMethods ms) :=
  quiet_of_holds fun _ => holds_resolveMethods ms (framing_notes h)

theorem enters_bindTypeParams (idents : List Ident) (params : List TypeId) : Enters .local P (bindTypeParams idents params) :=
  enters_of_holds fun _ => holds_bindTypeParams idents (List.forall₂_same.2 fun _ _ => rfl)

theorem rel_hint (hint : Option TypeId) : Option.Rel ((framing P).types ()) hint hint := by
  cases hint with
  | none => exact .none
  | some a => exact .some rfl

theorem quiet_checkExprs (hint : Option TypeId) (es : List Expr) (h : ∀ p ∈ Expr.placesAll es, P p) :
    Quiet P (checkExprs hint es) :=
  quiet_of_holds fun _ => holds_checkExprs es (rel_hint hint) (framing_covers h _)

theorem enters_checkVarSpec (level : Level) (s : ValueSpec) (h : ∀ p ∈ s.places, P p) :
    Enters level P (checkVarSpec level s) :=
  enters_of_holds fun _ => holds_checkVarSpec level s (framing_covers h _) fun _ _ _ _ _ => trivial

theorem enters_checkConstSpecs (level : Level) (ss : List ValueSpec) (h : ∀ p ∈ ValueSpec.placesAll ss, P p) :
    Enters level P (checkConstSpecs level none ss) :=
  enters_of_holds fun _ => holds_checkConstSpecs level ss (framing_covers h _) (by simp) fun _ _ _ _ _ _ _ => trivial

theorem forall_placesOf {idents : List Ident} : (∀ p ∈ placesOf idents, P p) ↔ ∀ x ∈ idents, P x.pos :=
  List.forall_mem_map

end

/-! ## Names after a check -/

/-- After the step every name denotes what it denoted before. -/
def Checking.SameNames {α : Type} (x : Checking α) : Prop := ∀ c n t name,
  (Checking.eval (x >>= fun _ => Checking.lookup name) c n t).1.1 = ((Checking.lookup name).eval c n t).1.1

theorem Checking.Keeps.sameNames {α : Type} {x : Checking α} (h : Keeps Notes.scopes x) : x.SameNames := by
  intro c n t name
  obtain ⟨hscope, hlocals⟩ := Prod.mk.inj (h c n t)
  -- a name is looked up in the open scopes and in the context, and in nothing else
  show ((x.eval c n t).1.2.locals ++ [c.file.scope, (x.eval c n t).1.2.scope, .predeclared]).findSome? (·.find? name) =
    (n.locals ++ [c.file.scope, n.scope, .predeclared]).findSome? (·.find? name)
  rw [hscope, hlocals]

/-- A statement leaves the package-level names, the context and all open scopes but the innermost as they are, and only
enters names into the innermost. An expression leaves that one as it is, too. So names denote after a block, a loop,
a clause or an expression, such as a function literal, what they denoted before. -/
theorem scopes_after_check (c : Context) (n : Notes) (t : Table) :
    (∀ (s : Stmt) (inner : Scope) (outer : List Scope), n.locals = inner :: outer →
      ∃ bindings, ((checkStmt s).eval c n t).1.2.scopes = (n.scope, inner.insertAll ⟨bindings⟩ :: outer)) ∧
    (∀ s : Stmt, (Checking.eval (checkStmt s >>= fun _ => read) c n t).1.1 = c) ∧
    (∀ (e : Expr) (hint : Option TypeId),
      ((recorded e (checkExpr e hint)).eval c n t).1.2.scopes = n.scopes ∧
      (Checking.eval (recorded e (checkExpr e hint) >>= fun _ => read) c n t).1.1 = c) ∧
    (∀ s : Stmt, s.opensScope → (checkStmt s).SameNames) ∧
    (∀ clauses, (checkCaseClauses clauses).SameNames) ∧
    (∀ binding subject clauses, (checkTypeClauses binding subject clauses).SameNames) ∧
    (∀ clauses, (checkCommClauses clauses).SameNames) ∧
    ∀ (e : Expr) (hint : Option TypeId), (recorded e (checkExpr e hint)).SameNames := by
  -- the scopes are the same wherever something is recorded
  have hany {c : Context} (names : List Ident) (places : List Pos) : (framing fun _ => True).Covers c names places :=
    framing_covers (fun _ _ => trivial) names
  have hexpr (e : Expr) (hint : Option TypeId) : Keeps Notes.scopes (recorded e (checkExpr e hint)) :=
    (quiet_of_holds fun _ => holds_recorded e (holds_checkExpr e (rel_hint hint) (hany _ _))).scopes
  refine ⟨fun s inner outer hopen => ?_, fun _ => rfl, fun e hint => ⟨hexpr e hint c n t, rfl⟩, ?_, ?_, ?_, ?_, ?_⟩
  · obtain ⟨hscope, bindings, hlocals⟩ :=
      (enters_of_holds fun _ => holds_checkStmt s (fun _ => rfl) (hany _ _)).scopes rfl c n t
    rw [hopen] at hlocals
    exact ⟨bindings, Prod.ext hscope hlocals⟩
  · intro s hopens
    have hm : s.opensScope = false → none = some Level.local := by simp [hopens]
    exact (quiet_of_holds fun _ => holds_checkStmt s hm (hany _ _)).scopes.sameNames
  · exact fun clauses => (quiet_of_holds fun _ => holds_checkCaseClauses clauses (hany _ _)).scopes.sameNames
  · intro binding subject clauses
    refine (quiet_of_holds fun _ => holds_checkTypeClauses binding clauses rfl ?_ (hany _ _)).scopes.sameNames
    exact fun _ _ => trivial
  · exact fun clauses => (quiet_of_holds fun _ => holds_checkCommClauses clauses (hany _ _)).scopes.sameNames
  · exact fun e hint => (hexpr e hint).sameNames

/-- Two open scopes, of which the inner one has a name. -/
def Notes.twoScopes : Notes := { scope := .empty, locals := [⟨[("x", .nil)]⟩, .empty], infos := #[.empty] }

/-- A file that is checked in no particular package. -/
def Context.single : Context := { path := "p", packages := #[], file := { index := 0, id := 0, scope := .empty } }

/-- The statement `x := 1`. -/
def defineOne : Stmt := .define [.ident ⟨1, ⟨1, 1⟩⟩ "x"] [.lit ⟨0, ⟨1, 6⟩⟩ .int]

/-- A definition in the inner one of two scopes, and a labeled loop around it. -/
theorem scopes_after_check_define :
    (∃ bindings, ((checkStmt defineOne).eval .single .twoScopes .predeclared).1.2.scopes =
      (.empty, Scope.insertAll ⟨[("x", .nil)]⟩ ⟨bindings⟩ :: [.empty])) ∧
    (checkStmt (.labeled (.for none none none [defineOne]))).SameNames := by
  obtain ⟨hstmt, -, -, hscoped, -⟩ := scopes_after_check .single .twoScopes .predeclared
  exact ⟨hstmt _ _ _ rfl, hscoped _ rfl⟩

end Typing

end UnusedMethods
