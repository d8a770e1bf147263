import UnusedMethods.Proofs.DeclarationsEnd
import UnusedMethods.Proofs.Packages

/-!
# Finished tables

Between the checks of two packages nothing in the table is half built: no declarations are being read, no instance waits
to be filled in, and of every interface the method set is known. The check of a package starts with such a table and ends
with one. Between that, while declarations are being read, instances and interfaces wait; what is never given up is that
all references are in range.
-/

namespace UnusedMethods.Types.Table

variable {t : Table}

/-- All references are in range, no declarations are being read, and nothing waits to be filled in or completed. -/
structure Finished (t : Table) : Prop where
  wf : t.WF
  deferring : t.deferring = false
  unexpanded : t.unexpanded = []
  incomplete : t.incomplete = []
  interfaces : ∀ id i, t.get id = .interface i → i.complete = true ∧ i.explicit ⊆ i.methods ∧
    i.methods.Pairwise fun a b => (t.func a).name ≤ (t.func b).name
  instances : ∀ id d, t.get id = .named d → d.origin.isSome = true → d.expanded = true

theorem mem_unexpanded_iff {id : TypeId} : id ∈ t.unexpanded ↔ ∃ d, t.get id = .named d ∧ d.expanded = false := by
  rw [unexpanded, mem_idsWhere rfl]
  cases t.get id <;> simp

namespace Finished

theorem methodSetsKnown (h : t.Finished) : t.MethodSetsKnown := by
  intro _ id
  rw [← Bool.not_eq_true, ← mem_incomplete, h.incomplete]
  exact List.not_mem_nil

theorem instancesFilled (h : t.Finished) : t.InstancesFilled := by
  intro _ id
  by_contra hopen
  have hmem := mem_unexpanded (by simpa using hopen)
  rw [h.unexpanded] at hmem
  cases hmem

theorem tidy (h : t.Finished) : t.Tidy := by
  intro id
  cases hget : t.get id with
  | named d =>
    intro _
    by_contra hopen
    have hmem : id ∈ t.unexpanded := mem_unexpanded_iff.2 ⟨d, hget, by simpa using hopen⟩
    rw [h.unexpanded] at hmem
    cases hmem
  | interface i =>
    obtain ⟨hcomplete, hmethods⟩ := h.interfaces id i hget
    exact ⟨fun _ => hmethods, by simp [hcomplete]⟩
  | _ => trivial

/-- When no declarations are being read, a tidy table in which nothing waits is finished. -/
theorem of_tidy (hwf : t.WF) (hdeferring : t.deferring = false) (hknown : t.MethodSetsKnown) (hfilled : t.InstancesFilled)
    (htidy : t.Tidy) : t.Finished := by
  have hexpanded : ∀ id d, t.get id = .named d → d.expanded = true := by
    intro id d hget
    have hclosed := hfilled hdeferring id
    have hdeclared := htidy id
    rw [hget] at hclosed hdeclared
    cases horigin : d.origin with
    | none => exact hdeclared horigin
    | some origin => simpa [Ty.isUnexpanded, horigin] using hclosed
  refine ⟨hwf, hdeferring, ?_, ?_, fun id i hget => ?_, fun id d hget _ => hexpanded id d hget⟩
  · refine List.eq_nil_iff_forall_not_mem.2 fun id hid => ?_
    obtain ⟨d, hget, hopen⟩ := mem_unexpanded_iff.1 hid
    rw [hexpanded id d hget] at hopen
    cases hopen
  · refine List.eq_nil_iff_forall_not_mem.2 fun id hid => ?_
    rw [mem_incomplete, hknown hdeferring id] at hid
    cases hid
  · have hclosed := hknown hdeferring id
    have hmethods := htidy id
    rw [hget] at hclosed hmethods
    have hcomplete : i.complete = true := by simpa [Ty.isIncomplete] using hclosed
    exact ⟨hcomplete, hmethods.1 hcomplete⟩

theorem predeclared : Table.predeclared.Finished :=
  of_tidy .predeclared rfl methodSetsKnown_predeclared instancesFilled_predeclared tidy_predeclared

end Finished

end UnusedMethods.Types.Table

namespace UnusedMethods.Typing

open Syntax UnusedMethods.Types Checking

variable {plan : Plan} {c : Context} {n : Notes} {t : Table}

variable {files : List (CurrentFile × SourceFile)}

/-! ## Declarations end and do not begin again -/

/-- Reads the declarations of files, up to the point where they end. The result has the order in which interfaces are to be
completed. -/
def readFiles (files : List (CurrentFile × SourceFile)) :
    Checking (List (CurrentFile × Entry) × List (CurrentFile × AttachedMethod) × List TypeId) := do
  let entries ← enterAll (declarationsIn files)
  Build.beginDeclarations
  resolveAliases entries
  resolveDeclaredTypes entries
  let r ← resolveMembers entries
  return (entries, r)

theorem checkFiles_eq_readFiles (files : List (CurrentFile × SourceFile)) :
    checkFiles files = (do
      let r ← readFiles files
      Build.endDeclarations r.2.2
      checkValueDecls r.1
      Checking.forEach (bodiesOf r.1 r.2.1) Body.check) := by
  simp only [checkFiles, checkEntries, readFiles, checkMembers_eq, checkHeads_eq, bind_assoc, pure_bind]

theorem sound_readFiles {t₀ : Table} (hopen : plan.Open) (hfiles : FilesWF plan t₀ files) :
    Sound plan c t₀ (readFiles files) fun r t => EntriesWF plan t r.1 ∧ MethodsWF plan t r.2.1 := by
  unfold readFiles
  refine .bind (sound_enterAll hopen.denotes hfiles.declarationsIn) fun entries t₁ h₁ _ hentries => ?_
  refine .andThen (sound_beginDeclarations hopen.steady) (.andThen (sound_resolveAliases hentries) (.andThen
    (sound_resolveDeclaredTypes hentries fun id _ => hopen.settled id) ?_))
  refine .bind (sound_resolveMembers hentries) fun r t₂ h₂ _ hmethods => ?_
  exact .pure fun t ht _ => ⟨hentries.of_grows (h₂.trans ht), hmethods.of_grows ht⟩

/-- Once declarations have ended, they do not begin again, and what they say about the types stays. -/
theorem step_checkFiles (h : Ready plan c n t) (hopen : plan.Open) (hfiles : FilesWF plan t files) :
    plan.Step t ((readFiles files).eval c n t).2 ∧
      plan.Step ((readFiles files).eval c n t).2
        ((Build.endDeclarations ((readFiles files).eval c n t).1.1.2.2).run ((readFiles files).eval c n t).2).2 ∧
      (plan.settling ((readFiles files).eval c n t).2.HasType True).Step
        ((Build.endDeclarations ((readFiles files).eval c n t).1.1.2.2).run ((readFiles files).eval c n t).2).2
        ((checkFiles files).eval c n t).2 := by
  rw [checkFiles_eq_readFiles, eval_bind]
  obtain ⟨h₁, hstep₁, -, hentries, hmethods⟩ := h.step (sound_readFiles hopen hfiles)
  generalize (readFiles files).eval c n t = r at h₁ hstep₁ hentries hmethods ⊢
  obtain ⟨⟨⟨entries, methods, order⟩, n₁⟩, t₁⟩ := r
  obtain ⟨h₂, hstep₂, -⟩ := h₁.step (sound_endDeclarations hopen.steady order)
  rw [eval_bind]
  have hhas : ∀ id, t₁.HasType id → _ := fun _ hid => hstep₂.grows.hasType hid
  have hsettled := h₂.settle hhas True
  have hentries := (hentries.of_grows hstep₂.grows).settling t₁.HasType True
  have hmethods := hmethods.of_grows hstep₂.grows
  obtain ⟨-, hstep₃, -⟩ := hsettled.step (Checking.Sound.andThen (sound_checkValueDecls (c := c) hentries)
    (sound_checkBodies (bodiesOf_wf hentries hmethods)))
  exact ⟨hstep₁, hstep₂, hstep₃⟩

theorem deferring_checkFiles (h : Ready plan c n t) (hopen : plan.Open) (hfiles : FilesWF plan t files) :
    ((checkFiles files).eval c n t).2.deferring = false :=
  ((step_checkFiles h hopen hfiles).2.2.steady trivial).trans (Build.deferring_endDeclarations _ _)

/-! ## From one finished table to the next -/

/-- After the check of a package, nothing waits to be filled in or completed. -/
theorem finished_of_checkPackage (ht : t.Finished) {packages : Array Package} (hpackages : ∀ p ∈ packages, p.WF t)
    (byPath : ImportMap) (id : PackageId) (source : PackageSource) :
    ((checkPackage packages byPath id source).run t).2.Finished := by
  obtain ⟨hstep, -⟩ := checkPackage_wf ht.wf hpackages byPath id source
  have hready : Ready source.openPlan (source.context packages) source.start t :=
    ⟨ht.wf, source.context_wf hpackages, source.start_wf⟩
  have hdeferring : ((checkPackage packages byPath id source).run t).2.deferring = false := by
    rw [run_checkPackage]
    dsimp only
    exact deferring_checkFiles hready source.open_openPlan (source.currentFiles_wf hpackages byPath)
  exact .of_tidy hstep.wf hdeferring (hstep.known ht.methodSetsKnown) (hstep.filled ht.instancesFilled) (hstep.tidy ht.tidy)

/-- Between packages, nothing waits to be filled in or completed. -/
theorem Stage.finished {packages : Array Package} (h : Stage t packages) : t.Finished := by
  induction h with
  | start => exact .predeclared
  | checked h byPath id source ih => exact finished_of_checkPackage ih h.wf.2 byPath id source
  | unknown _ _ _ ih => exact ih

end UnusedMethods.Typing
