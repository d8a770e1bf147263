import UnusedMethods.Proofs.CheckingInStep
import UnusedMethods.Proofs.Erasure

/-!
# Bodies that nobody looks at

A package is checked twice, once as it is and once without the bodies in some files. Until the bodies come, both checks do
the same. From then on they go through the same bodies; where one has been taken away, the second check does nothing, while
the first may add types to the table and record what it likes about the file. As long as no instance of a generic type is
among what it adds, the checks stay in step: tables correspond, and the same is known about all other files.
-/

namespace UnusedMethods.Typing

open Syntax UnusedMethods.Types Checking
open Types.Correspondence (identity)

/-! ## Everything corresponds to itself -/

section Identity

variable {t : Table}

theorem Object.alike_identity {x : Object} (h : x.WF t) : x.Alike (identity t) x := by
  cases x with
  | var id => exact .var ⟨h, rfl⟩
  | const id => exact .const ⟨h, rfl⟩
  | typeName id => exact .typeName ⟨h, rfl⟩
  | func f => exact .func ⟨h, rfl⟩
  | package id => exact .package id
  | builtin b => exact .builtin b
  | nil => exact .nil

theorem Scope.alike_identity {x : Scope} (h : x.WF t) : x.Alike (identity t) x :=
  Scope.alike_self fun e he => Object.alike_identity (h e he)

theorem Selection.alike_identity {x : Selection} (h : x.WF t) : x.Alike (identity t) x := by
  refine ⟨rfl, ⟨h.recv, rfl⟩, ?_, ⟨h.type, rfl⟩⟩
  cases hmethod : x.method with
  | none => exact .none
  | some m => exact .some ⟨(h.method m hmethod).1, rfl⟩

theorem FileInfo.alike_identity {names : Ident → Prop} {x : FileInfo} (h : x.WF names t) : x.Alike (identity t) x where
  types := List.forall₂_same.2 fun e he => ⟨rfl, h.types e he, rfl⟩
  selections := List.forall₂_same.2 fun e he => ⟨rfl, Selection.alike_identity (h.selections e he)⟩
  uses := List.forall₂_same.2 fun e he => ⟨rfl, Object.alike_identity (h.uses e he)⟩
  defs := List.forall₂_same.2 fun e he => ⟨rfl, Object.alike_identity (h.defs e he)⟩

theorem Notes.alike_identity {plan : Plan} {n : Notes} (h : n.WF plan t) (files : Nat → Prop) :
    n.Alike (identity t) files n where
  scope := Scope.alike_identity h.scope
  locals := List.forall₂_same.2 fun s hs => Scope.alike_identity (h.locals s hs)
  infos i _ := by
    cases hinfo : n.infos[i]? with
    | none => exact .none
    | some info => exact .some (FileInfo.alike_identity (h.infos i info hinfo))

theorem Context.alike_identity {c : Context} (h : c.WF t) {files : Nat → Prop} (hfile : files c.file.index) :
    c.Alike (identity t) files :=
  ⟨hfile, Scope.alike_identity h.file, fun i p hp => Scope.alike_identity (h.packages i p hp)⟩

theorem Checking.Ready.states {plan : Plan} {c : Context} {n : Notes} (h : Ready plan c n t) (hcalm : t.Calm)
    (files : Nat → Prop) : States (identity t) files n t n t :=
  ⟨.identity h.wf, hcalm, n.alike_identity h.notes files⟩

end Identity

/-! ## One body -/

namespace Body

variable {plan : Plan} {k : Correspondence} {files : Nat → Prop} {c : Context} {b : Body}

/-- The function or method to which the body belongs is the same in both tables. -/
def Shared (k : Correspondence) : Body → Prop
  | .func _ id => k.funcs id id
  | .method m => k.funcs m.id m.id ∧ k.types m.owner m.owner

theorem Shared.mono {k' : Correspondence} (h : b.Shared k) (hk : k.Grows k') : b.Shared k' := by
  cases b with
  | func f id => exact hk.funcs h
  | method m => exact ⟨hk.funcs h.1, hk.types h.2⟩

theorem WF.shared {names : Ident → Prop} {t : Table} (h : b.WF names t) : b.Shared (identity t) := by
  cases b with
  | func f id => exact ⟨h.1, rfl⟩
  | method m => exact ⟨⟨AttachedMethod.WF.id h, rfl⟩, AttachedMethod.WF.owner h, rfl⟩

theorem inStep_check (h : b.Shared k) : InStep k files c b.check b.check fun _ _ _ => True := by
  cases b with
  | func f id => exact inStep_checkFunc f h
  | method m => exact inStep_checkMethod h.1 h.2

/-- While a body is checked, what is in the table and what is known about other files stays as it is. -/
theorem leaves {n : Notes} {t : Table} (hready : Ready plan c n t) (hcalm : t.Calm)
    (hb : b.WF (plan.declares c.file.index) t) :
    t.Stays (b.check.eval c n t).2 ∧ (b.check.eval c n t).2.Calm ∧ n.Framed c.file.index (b.check.eval c n t).1.2 := by
  -- the check is in step with itself, on a correspondence whose base is the table before
  have hstep : InStep (identity t) (fun _ => True) c b.check b.check fun _ _ _ => True := inStep_check hb.shared
  obtain ⟨k', hk', hstates, hframed, -⟩ := hstep (identity t) n t n t (.refl _)
    (Context.alike_identity hready.context trivial) (hready.states hcalm _)
  have hbase := hstates.tables.base
  rw [hk'.base] at hbase
  exact ⟨hbase, hstates.calm, hframed⟩

end Body

/-- Nothing that is known about the given files changes when something is recorded about another one. -/
theorem Notes.Alike.of_framed {k : Correspondence} {files : Nat → Prop} {m n n' : Notes} {file : Nat}
    (h : m.Alike k files n) (hframed : n.Framed file n') (hfile : ¬ files file) (hlocals : n.locals = []) :
    m.Alike k files n' where
  scope := by
    rw [hframed.scope]
    exact h.scope
  locals := by
    have hlocals' : n'.locals = n.locals := by
      rw [hlocals, ← List.length_eq_zero_iff, hframed.locals, hlocals, List.length_nil]
    rw [hlocals']
    exact h.locals
  infos i hi := by
    rw [hframed.infos i fun heq => hfile (heq ▸ hi)]
    exact h.infos i hi

theorem isInstance_of_grows {t t' : Table} (h : t.Grows t') {id : TypeId} (hid : (t.get id).isInstance = true) :
    (t'.get id).isInstance = true := by
  cases hget : t.get id with
  | named d =>
    obtain ⟨d', hget', -, -, horigin, -⟩ := h.named hget
    rw [hget] at hid
    rw [hget', Ty.isInstance, horigin]
    exact hid
  | _ =>
    rw [hget] at hid
    cases hid

/-- Between two bodies everything is ready, and no local scope is open. -/
structure Waiting (plan : Plan) (c : Context) (bodies : List (CurrentFile × Body)) (n : Notes) (t : Table) : Prop where
  ready : Ready plan c n t
  bodies : BodiesWF plan t bodies
  calm : t.Calm
  locals : n.locals = []

namespace Waiting

variable {plan : Plan} {c : Context} {bodies : List (CurrentFile × Body)} {n : Notes} {t : Table}
variable {file : CurrentFile} {b : Body}

theorem readyIn (h : Waiting plan c bodies n t) (hb : (file, b) ∈ bodies) :
    Ready plan { c with file } n t ∧ b.WF (plan.declares file.index) t :=
  ⟨h.ready.inFile (h.bodies _ hb).1, (h.bodies _ hb).2⟩

theorem check (h : Waiting plan c bodies n t) (hb : (file, b) ∈ bodies) :
    Waiting plan c bodies (b.check.eval { c with file } n t).1.2 (b.check.eval { c with file } n t).2 := by
  obtain ⟨hready, hwf⟩ := h.readyIn hb
  obtain ⟨hready', hstep, -, -⟩ := hready.step (Body.sound_check hwf)
  obtain ⟨-, hcalm, hframed⟩ := Body.leaves hready h.calm hwf
  refine ⟨⟨hready'.wf, h.ready.context.of_grows hstep.grows, hready'.notes⟩, h.bodies.of_grows hstep.grows, hcalm, ?_⟩
  rw [← List.length_eq_zero_iff, hframed.locals, h.locals, List.length_nil]

end Waiting

/-! ## Two checks of a package -/

theorem eval_map {α β : Type} (g : α → β) (x : Checking α) (c : Context) (n : Notes) (t : Table) :
    (g <$> x).eval c n t = ((g (x.eval c n t).1.1, (x.eval c n t).1.2), (x.eval c n t).2) := rfl

theorem eval_forEach_nil {α : Type} (f : α → Checking Unit) (c : Context) (n : Notes) (t : Table) :
    (Checking.forEach [] f).eval c n t = (((), n), t) := rfl

theorem eval_forEach_take_succ {α : Type} {items : List (CurrentFile × α)} {f : α → Checking Unit} {i : Nat}
    {file : CurrentFile} {a : α} (h : items[i]? = some (file, a)) (c : Context) (n : Notes) (t : Table) :
    (Checking.forEach (items.take (i + 1)) f).eval c n t =
      (f a).eval { c with file } ((Checking.forEach (items.take i) f).eval c n t).1.2
        ((Checking.forEach (items.take i) f).eval c n t).2 := by
  have htake : items.take (i + 1) = items.take i ++ [(file, a)] := by
    rw [List.take_add_one, h]
    rfl
  rw [htake, forEach_append, eval_bind]
  rfl

namespace PackageCheck

/-- The heads have been checked: the bodies that are left, the notes and the table. -/
def declared (p : PackageCheck) : (List (CurrentFile × Body) × Notes) × Table :=
  (declareFiles (p.source.currentFiles p.packages p.byPath)).eval p.context p.source.start p.table

/-- The bodies to be checked. -/
def bodies (p : PackageCheck) : List (CurrentFile × Body) := p.declared.1.1

/-- The first `i` bodies have been checked. -/
def bodiesAt (p : PackageCheck) (i : Nat) : (Unit × Notes) × Table :=
  (Checking.forEach (p.bodies.take i) Body.check).eval p.context p.declared.1.2 p.declared.2

/-- The same check without the bodies in files that the filter leaves out. -/
def bare (p : PackageCheck) (filter : PathFilter) : PackageCheck :=
  { p with source := p.source.withoutBodies filter }

/-- No instance of a generic type is made for a body in a file that the filter leaves out. -/
def NoHiddenInstances (p : PackageCheck) (filter : PathFilter) : Prop :=
  ∀ i file b, p.bodies[i]? = some (file, b) → p.source.ignored filter file.index = true →
    ∀ id, ((p.bodiesAt (i + 1)).2.get id).isInstance = true → ((p.bodiesAt i).2.get id).isInstance = true

variable (p : PackageCheck) (filter : PathFilter)

/-! ### The bodies of one check -/

theorem waiting_declared :
    Waiting p.source.openPlan p.context p.bodies p.declared.1.2 p.declared.2 := by
  obtain ⟨hready, hstep, hleads, hbodies⟩ := p.ready_start.step
    (sound_declareFiles p.source.open_openPlan (p.source.currentFiles_wf p.stage.wf.2 p.byPath))
  rw [bodies, declared]
  refine ⟨hready, hbodies, ⟨hstep.known p.stage.methodSetsKnown, hstep.filled p.stage.instancesFilled⟩, ?_⟩
  exact List.length_eq_zero_iff.1 hleads.locals

theorem bodiesAt_zero : p.bodiesAt 0 = (((), p.declared.1.2), p.declared.2) := by
  rw [bodiesAt, List.take_zero, eval_forEach_nil]

theorem bodiesAt_succ {p : PackageCheck} {i : Nat} {file : CurrentFile} {b : Body} (h : p.bodies[i]? = some (file, b)) :
    p.bodiesAt (i + 1) = b.check.eval { p.context with file } (p.bodiesAt i).1.2 (p.bodiesAt i).2 :=
  eval_forEach_take_succ h ..

theorem bodiesAt_length : p.bodiesAt p.bodies.length = (((), p.finalNotes), p.final) := by
  rw [final_eq, finalNotes, checkFiles_eq, eval_bind, bodiesAt, List.take_length, bodies, declared]

theorem bodiesAt_of_length_le {i : Nat} (h : p.bodies.length ≤ i) : p.bodiesAt (i + 1) = p.bodiesAt i := by
  rw [bodiesAt, bodiesAt, List.take_of_length_le h, List.take_of_length_le (Nat.le_succ_of_le h)]

theorem waiting (i : Nat) :
    Waiting p.source.openPlan p.context p.bodies (p.bodiesAt i).1.2 (p.bodiesAt i).2 := by
  induction i with
  | zero =>
    simp only [bodiesAt_zero]
    exact p.waiting_declared
  | succ i ih =>
    cases hb : p.bodies[i]? with
    | none =>
      rw [p.bodiesAt_of_length_le (List.getElem?_eq_none_iff.1 hb)]
      exact ih
    | some q =>
      obtain ⟨file, b⟩ := q
      rw [bodiesAt_succ hb]
      exact ih.check (List.mem_of_getElem? hb)

theorem grows_bodiesAt_succ (i : Nat) : (p.bodiesAt i).2.Grows (p.bodiesAt (i + 1)).2 := by
  cases hb : p.bodies[i]? with
  | none =>
    rw [p.bodiesAt_of_length_le (List.getElem?_eq_none_iff.1 hb)]
    exact .refl _
  | some q =>
    obtain ⟨file, b⟩ := q
    obtain ⟨hready, hwf⟩ := (p.waiting i).readyIn (List.mem_of_getElem? hb)
    obtain ⟨-, hstep, -, -⟩ := hready.step (Body.sound_check hwf)
    rw [bodiesAt_succ hb]
    exact hstep.grows

theorem grows_final {i : Nat} (hi : i ≤ p.bodies.length) : (p.bodiesAt i).2.Grows p.final := by
  have hgrows : (p.bodiesAt i).2.Grows (p.bodiesAt p.bodies.length).2 :=
    Nat.le_induction (.refl _) (fun j _ ih => ih.trans (p.grows_bodiesAt_succ j)) _ hi
  rw [bodiesAt_length] at hgrows
  exact hgrows

theorem noHiddenInstances_of_final (h : ∀ ty ∈ p.final.types, ty.isInstance = false) : p.NoHiddenInstances filter := by
  intro i file b hb _ id hid
  obtain ⟨hi, -⟩ := List.getElem?_eq_some_iff.1 hb
  have hfinal := isInstance_of_grows (p.grows_final hi) hid
  have hhas : p.final.HasType id := Table.hasType_of_get_ne_invalid fun hinvalid => by
    rw [hinvalid] at hfinal
    cases hfinal
  cases (h _ (Array.mem_of_getElem? hhas.getElem?)).symm.trans hfinal

/-! ### Two checks in step -/

theorem context_bare : (p.bare filter).context = p.context := rfl

theorem declared_bare : (p.bare filter).declared =
    ((p.bodies.map (strip (p.source.ignored filter) Body.withoutBody), p.declared.1.2), p.declared.2) := by
  have hfiles : declareFiles ((p.bare filter).source.currentFiles p.packages p.byPath) =
      List.map (strip (p.source.ignored filter) Body.withoutBody) <$>
        declareFiles (p.source.currentFiles p.packages p.byPath) := by
    rw [← declareFiles_strip, ← PackageSource.currentFiles_withoutBodies]
    rfl
  have hstart : (p.bare filter).source.start = p.source.start := p.source.start_withoutBodies filter
  unfold bodies declared
  rw [hstart, context_bare]
  show (declareFiles ((p.bare filter).source.currentFiles p.packages p.byPath)).eval p.context p.source.start p.table = _
  rw [hfiles, eval_map]

theorem getElem?_bodies_bare {i : Nat} {file : CurrentFile} {b : Body} (h : p.bodies[i]? = some (file, b)) :
    (p.bare filter).bodies[i]? = some (strip (p.source.ignored filter) Body.withoutBody (file, b)) := by
  rw [bodies, declared_bare, List.getElem?_map, h]
  rfl

/-- The files of which both checks know the same. -/
def visible (index : Nat) : Prop := p.source.ignored filter index = false

/-- The two checks are in step after `i` bodies. -/
def InStepAt (k : Correspondence) (i : Nat) : Prop :=
  (identity p.declared.2).Grows k ∧
    States k (p.visible filter) ((p.bare filter).bodiesAt i).1.2 ((p.bare filter).bodiesAt i).2
      (p.bodiesAt i).1.2 (p.bodiesAt i).2

variable {p filter} {k : Correspondence} {i : Nat} {file : CurrentFile} {b : Body}

theorem context_alike (hk : (identity p.declared.2).Grows k) (hb : p.bodies[i]? = some (file, b))
    (hfile : p.visible filter file.index) : Context.Alike k (p.visible filter) { p.context with file } := by
  have hready := (p.waiting_declared.readyIn (List.mem_of_getElem? hb)).1
  exact (Context.alike_identity hready.context hfile).mono hk

/-- A body of a file about which the same is known is checked in step. -/
theorem InStepAt.visible (h : p.InStepAt filter k i) (hb : p.bodies[i]? = some (file, b))
    (hfile : p.visible filter file.index) : ∃ k', p.InStepAt filter k' (i + 1) := by
  obtain ⟨hk, hstates⟩ := h
  have hb' : (p.bare filter).bodies[i]? = some (file, b) := by
    rw [getElem?_bodies_bare p filter hb, strip, if_neg (by rw [hfile]; exact Bool.false_ne_true)]
  have hshared : b.Shared k := (p.waiting_declared.readyIn (List.mem_of_getElem? hb)).2.shared.mono hk
  obtain ⟨k', hk', hstates', -⟩ :=
    Body.inStep_check (c := { p.context with file }) hshared k _ _ _ _ (.refl k) (context_alike hk hb hfile) hstates
  refine ⟨k', hk.trans hk', ?_⟩
  rw [bodiesAt_succ hb, bodiesAt_succ hb', context_bare]
  exact hstates'

/-- A body that has been taken away from one of the checks makes no difference, if it makes no instances. -/
theorem InStepAt.hidden (h : p.InStepAt filter k i) (hb : p.bodies[i]? = some (file, b))
    (hfile : p.source.ignored filter file.index = true) (hquiet : p.NoHiddenInstances filter) :
    p.InStepAt filter k (i + 1) := by
  obtain ⟨hk, hstates⟩ := h
  have hb' : (p.bare filter).bodies[i]? = some (file, b.withoutBody) := by
    rw [getElem?_bodies_bare p filter hb, strip, if_pos hfile]
  have hsame : (p.bare filter).bodiesAt (i + 1) = (p.bare filter).bodiesAt i := by
    rw [bodiesAt_succ hb', Body.check_withoutBody]
    rfl
  obtain ⟨hready, hwf⟩ := (p.waiting i).readyIn (List.mem_of_getElem? hb)
  obtain ⟨hstays, hcalm, hframed⟩ := Body.leaves hready (p.waiting i).calm hwf
  rw [← bodiesAt_succ hb] at hstays hcalm hframed
  have hvisible : ¬ p.visible filter file.index := by
    rw [PackageCheck.visible, hfile]
    exact Bool.false_ne_true.symm
  have hwf' := (p.waiting (i + 1)).ready.wf
  refine ⟨hk, ?_⟩
  rw [hsame]
  exact ⟨hstates.tables.stays hstays (fun {id} _ hc => (hwf'.get id).parts _ hc) fun {id} hid => hquiet i file b hb hfile id hid,
    hcalm, hstates.notes.of_framed hframed hvisible (p.waiting i).locals⟩

theorem exists_inStepAt (hquiet : p.NoHiddenInstances filter) (hi : i ≤ p.bodies.length) : ∃ k, p.InStepAt filter k i := by
  induction i with
  | zero =>
    refine ⟨identity p.declared.2, .refl _, ?_⟩
    simp only [bodiesAt_zero, declared_bare]
    exact p.waiting_declared.ready.states p.waiting_declared.calm _
  | succ i ih =>
    obtain ⟨k, hk⟩ := ih (Nat.le_of_succ_le hi)
    obtain ⟨⟨file, b⟩, hb⟩ : ∃ q, p.bodies[i]? = some q := ⟨_, List.getElem?_eq_getElem hi⟩
    cases hfile : p.source.ignored filter file.index with
    | true => exact ⟨k, hk.hidden hb hfile hquiet⟩
    | false => exact hk.visible hb hfile

/-- When both checks are over, tables correspond, and the same is known about all files that are not left out. -/
theorem exists_states_final (hquiet : p.NoHiddenInstances filter) :
    ∃ k, (identity p.declared.2).Grows k ∧
      States k (p.visible filter) (p.bare filter).finalNotes (p.bare filter).final p.finalNotes p.final := by
  obtain ⟨k, hk, hstates⟩ := exists_inStepAt hquiet (Nat.le_refl _)
  have hlength : (p.bare filter).bodies.length = p.bodies.length := by
    rw [bodies, declared_bare, List.length_map]
  have hbare := (p.bare filter).bodiesAt_length
  rw [hlength] at hbare
  simp only [hbare, p.bodiesAt_length] at hstates
  exact ⟨k, hk, hstates⟩

end PackageCheck

end UnusedMethods.Typing
