import UnusedMethods.Proofs.GenericDefinitions
import UnusedMethods.Proofs.VisitingOrder

/-!
# The order in which embeddings are entered

When the declarations of a package have been read, it is recorded which of its interfaces embeds which. The interfaces are
visited one after the other for this, and nothing says in which order. Here the check of a package is taken with any order
of visits.

Where interfaces embed each other in a circle, the order of visits decides which of them is the first to lose its
embeddings. The ones from which it is taken do not depend on the order. If no interface on a circle embeds two interfaces
of the package, the outcome of the check is the same for all orders.
-/

namespace UnusedMethods.Typing

open Syntax UnusedMethods.Types

/-! ## Checks with any order of visits -/

/-- The interfaces among declared types. -/
def interfacesAmong (t : Table) (declared : List TypeId) : List TypeId :=
  declared.filter fun u => (interfaceBody? t u).isSome

/-- The interfaces that lose their embeddings, the first one first, and the order of completion. -/
def breakEmbeddings (arrange : List TypeId → List TypeId) (t : Table) (interfaces : List TypeId) :
    List TypeId × List TypeId :=
  (embeddingGraph t interfaces (arrange interfaces)).breakCycles

/-- `orderInterfaces`, with the order in which interfaces are visited. -/
def orderInterfacesBy (arrange : List TypeId → List TypeId) (declared : List TypeId) : Build (List TypeId) := do
  let t ← get
  let (cut, order) := breakEmbeddings arrange t (interfacesAmong t declared)
  let body (u : TypeId) : Option TypeId := (t.named? u).map (·.rhs)
  modify fun t => (cut.filterMap body).foldl Table.clearEmbedded t
  return order.reverse.filterMap body

/-- Reads declarations up to the point where interfaces are put in order. -/
def readDeclarations (files : List (CurrentFile × SourceFile)) :
    Checking (List (CurrentFile × Entry) × List (CurrentFile × AttachedMethod)) := do
  let entries ← enterAll (declarationsIn files)
  Build.beginDeclarations
  resolveAliases entries
  resolveDeclaredTypes entries
  let methods ← attachMethods entries
  Checking.forEach entries fun
    | .func f id => resolveFunc f id
    | _ => pure ()
  return (entries, methods)

/-- Completes the interfaces in the given order, and checks values and bodies. -/
def checkRest (declared : List (CurrentFile × Entry) × List (CurrentFile × AttachedMethod)) (order : List TypeId) :
    Checking Unit := do
  Build.endDeclarations order
  checkValueDecls declared.1
  Checking.forEach (bodiesOf declared.1 declared.2) Body.check

/-- `checkFiles`, with the order in which interfaces are visited. -/
def checkFilesBy (arrange : List TypeId → List TypeId) (files : List (CurrentFile × SourceFile)) : Checking Unit := do
  let declared ← readDeclarations files
  let order ← orderInterfacesBy arrange (declaredTypes declared.1)
  checkRest declared order

/-- `checkPackage`, with the order in which interfaces are visited. -/
def checkPackageBy (arrange : List TypeId → List TypeId) (packages : Array Package) (byPath : ImportMap) (id : PackageId)
    (source : PackageSource) : Build Package := do
  let files := source.currentFiles packages byPath
  let ((), notes) ← ((checkFilesBy arrange files).run (source.context packages)).run source.start
  return source.package id notes

/-- The table when the declarations of a package have been read, and the interfaces among these. -/
def PackageSource.interfaces (source : PackageSource) (packages : Array Package) (byPath : ImportMap) (t : Table) :
    Table × List TypeId :=
  let r := (readDeclarations (source.currentFiles packages byPath)).eval (source.context packages) source.start t
  (r.2, interfacesAmong r.2 (declaredTypes r.1.1.1))

theorem checkFilesBy_id (files : List (CurrentFile × SourceFile)) : checkFilesBy id files = checkFiles files := by
  have horder : ∀ declared, orderInterfacesBy id declared = orderInterfaces declared := fun _ => rfl
  -- what is left are the same cases, of which each definition has its own
  simp only [checkFilesBy, readDeclarations, checkRest, checkFiles, checkEntries, checkMembers_eq, checkHeads_eq, resolveMembers,
    bind_assoc, pure_bind, horder] <;> rfl

theorem checkPackageBy_id (packages : Array Package) (byPath : ImportMap) (pkg : PackageId) (source : PackageSource) :
    checkPackageBy id packages byPath pkg source = checkPackage packages byPath pkg source := by
  rw [checkPackageBy, checkFilesBy_id]
  rfl

/-! ## The graph of embeddings -/

/-- The interfaces of a package that one of them embeds. -/
def embeddings (t : Table) (interfaces : List TypeId) (u : TypeId) : List TypeId :=
  if u ∈ interfaces then embeddedDeclarations t interfaces u else []

theorem drawnBy_embeddingGraph (t : Table) {interfaces visit : List TypeId} (hnodup : interfaces.Nodup)
    (hvisit : visit.Perm interfaces) :
    Digraph.DrawnBy interfaces (embeddings t interfaces) visit (embeddingGraph t interfaces visit) := by
  have hedges : embeddingGraph t interfaces visit =
      .ofEdges interfaces (visit.flatMap fun u => (embeddings t interfaces u).map (u, ·)) := by
    rw [embeddingGraph]
    congr 1
    refine List.flatMap_congr fun u hu => ?_
    rw [embeddings, if_pos (hvisit.mem_iff.1 hu)]
  rw [hedges]
  refine .ofEdges hnodup (fun u hu => if_neg hu) (fun u v hv => ?_) hvisit
  rw [embeddings] at hv
  split at hv
  · exact List.contains_iff_mem.1 (List.mem_filter.1 hv).2
  · cases hv

/-- Every declared type has been entered once. -/
theorem PackageSource.nodup_interfaces (source : PackageSource) (packages : Array Package) (byPath : ImportMap) (t : Table) :
    (source.interfaces packages byPath t).2.Nodup := by
  obtain ⟨n', heval, -⟩ := eval_enterAll (declarationsIn (source.currentFiles packages byPath)) (source.context packages)
    source.start t
  have hentries : ((readDeclarations (source.currentFiles packages byPath)).eval (source.context packages) source.start t).1.1.1 =
      ((enterAll (declarationsIn (source.currentFiles packages byPath))).eval (source.context packages) source.start t).1.1 :=
    rfl
  refine List.Nodup.filter _ ?_
  rw [hentries, heval, declaredTypes_entriesFrom]
  exact (List.nodup_range' ..).map fun _ _ h => TypeId.mk.inj h

theorem run_orderInterfacesBy {arrange arrange' : List TypeId → List TypeId} {declared : List TypeId} {t : Table}
    (h : breakEmbeddings arrange t (interfacesAmong t declared) = breakEmbeddings arrange' t (interfacesAmong t declared)) :
    (orderInterfacesBy arrange declared).run t = (orderInterfacesBy arrange' declared).run t := by
  have hrun : ∀ arrange, (orderInterfacesBy arrange declared).run t =
      ((breakEmbeddings arrange t (interfacesAmong t declared)).2.reverse.filterMap fun u => (t.named? u).map (·.rhs),
        ((breakEmbeddings arrange t (interfacesAmong t declared)).1.filterMap fun u => (t.named? u).map (·.rhs)).foldl
          Table.clearEmbedded t) := fun _ => rfl
  rw [hrun, hrun, h]

theorem eval_checkFilesBy (arrange : List TypeId → List TypeId) {files : List (CurrentFile × SourceFile)} {c : Context}
    {n n' : Notes} {t t' : Table} {declared : List (CurrentFile × Entry) × List (CurrentFile × AttachedMethod)}
    (hread : (readDeclarations files).eval c n t = ((declared, n'), t')) :
    (checkFilesBy arrange files).eval c n t =
      (checkRest declared ((orderInterfacesBy arrange (declaredTypes declared.1)).run t').1).eval c n'
        ((orderInterfacesBy arrange (declaredTypes declared.1)).run t').2 := by
  have hlift : ∀ (x : Build (List TypeId)) (c : Context) (n : Notes) (t : Table),
      (liftM x : Checking (List TypeId)).eval c n t = (((x.run t).1, n), (x.run t).2) := fun _ _ _ _ => rfl
  rw [checkFilesBy, Checking.eval_bind, hread, Checking.eval_bind, hlift]

/-- If the same interfaces lose their embeddings, and the rest is completed in the same order, the check goes on in the same
way. -/
theorem run_checkPackageBy {arrange arrange' : List TypeId → List TypeId} {packages : Array Package} {byPath : ImportMap}
    {source : PackageSource} {t t' : Table} {interfaces : List TypeId}
    (hread : source.interfaces packages byPath t = (t', interfaces))
    (h : breakEmbeddings arrange t' interfaces = breakEmbeddings arrange' t' interfaces) (pkg : PackageId) :
    (checkPackageBy arrange packages byPath pkg source).run t = (checkPackageBy arrange' packages byPath pkg source).run t := by
  have hrun : ∀ arrange, (checkPackageBy arrange packages byPath pkg source).run t =
      (source.package pkg
        ((checkFilesBy arrange (source.currentFiles packages byPath)).eval (source.context packages) source.start t).1.2,
        ((checkFilesBy arrange (source.currentFiles packages byPath)).eval (source.context packages) source.start t).2) :=
    fun _ => rfl
  obtain ⟨⟨⟨declared, n'⟩, t₁⟩, hr⟩ : ∃ r,
      (readDeclarations (source.currentFiles packages byPath)).eval (source.context packages) source.start t = r := ⟨_, rfl⟩
  rw [PackageSource.interfaces, hr] at hread
  obtain ⟨rfl, rfl⟩ := Prod.mk.inj hread
  rw [hrun, hrun, eval_checkFilesBy arrange hr, eval_checkFilesBy arrange' hr, run_orderInterfacesBy h]

/-- An order of visits that begins with a given interface. -/
def visitFirst (v : TypeId) (interfaces : List TypeId) : List TypeId :=
  if v ∈ interfaces then v :: interfaces.erase v else interfaces

theorem visitFirst_perm (v : TypeId) (interfaces : List TypeId) : (visitFirst v interfaces).Perm interfaces := by
  rw [visitFirst]
  split
  · rename_i hv
    exact (List.perm_cons_erase hv).symm
  · exact .refl interfaces

/-- For all orders of visits: the first interface to lose its embeddings is the one that is visited first, of those which may
be reported, and so it can be any of these. If no interface on a circle embeds two interfaces of the package, the check has
the same outcome as in the order of declarations. -/
theorem checkPackageBy_arrange {arrange : List TypeId → List TypeId} (harrange : ∀ l, (arrange l).Perm l)
    (packages : Array Package) (byPath : ImportMap) (pkg : PackageId) (source : PackageSource) (t : Table)
    {t' : Table} {interfaces : List TypeId} (hread : source.interfaces packages byPath t = (t', interfaces)) :
    (breakEmbeddings arrange t' interfaces).1.head? =
      (arrange interfaces).find? (Digraph.reportable interfaces (embeddings t' interfaces)).contains ∧
    (∀ v ∈ Digraph.reportable interfaces (embeddings t' interfaces), ∃ other : List TypeId → List TypeId,
      (∀ l, (other l).Perm l) ∧ (breakEmbeddings other t' interfaces).1.head? = some v) ∧
    (Digraph.Unbranched (embeddings t' interfaces) →
      (checkPackageBy arrange packages byPath pkg source).run t = (checkPackage packages byPath pkg source).run t) := by
  have hnodup : interfaces.Nodup := by
    have h := source.nodup_interfaces packages byPath t
    rwa [hread] at h
  have hdrawn : ∀ arrange : List TypeId → List TypeId, (∀ l, (arrange l).Perm l) → Digraph.DrawnBy interfaces
      (embeddings t' interfaces) (arrange interfaces) (embeddingGraph t' interfaces (arrange interfaces)) :=
    fun _ harrange => drawnBy_embeddingGraph t' hnodup (harrange interfaces)
  refine ⟨(hdrawn arrange harrange).head?_breakCycles, fun v hv => ?_, fun hunbranched => ?_⟩
  · -- the interface is visited before all others
    refine ⟨visitFirst v, visitFirst_perm v, ?_⟩
    have hdrawn := hdrawn _ (visitFirst_perm v)
    rw [breakEmbeddings, hdrawn.head?_breakCycles, visitFirst, if_pos (hdrawn.mem_of_mem_reportable hv)]
    exact List.find?_cons_of_pos (List.contains_iff_mem.2 hv)
  · rw [← checkPackageBy_id]
    refine run_checkPackageBy hread ?_ pkg
    exact (hdrawn arrange harrange).breakCycles_eq (hdrawn id fun l => .refl l) hunbranched

/-- An interface on two circles. -/
def twoCircles : String :=
  "package app

type U interface \x7b
	P
	u()
\x7d

type P interface \x7b
	Q
	U
	p()
\x7d

type Q interface \x7b
	U
	q()
\x7d
"

/-- The first interface to lose its embeddings is another one, if another one is visited first. -/
theorem twoCircles_cut : ∃ t', (PackageSource.ofText twoCircles).interfaces #[] [] .predeclared = (t', [⟨31⟩, ⟨32⟩, ⟨33⟩]) ∧
    (breakEmbeddings id t' [⟨31⟩, ⟨32⟩, ⟨33⟩]).1.head? = some ⟨32⟩ ∧
    (breakEmbeddings (visitFirst ⟨33⟩) t' [⟨31⟩, ⟨32⟩, ⟨33⟩]).1.head? = some ⟨33⟩ := by
  have h : ((PackageSource.ofText twoCircles).interfaces #[] [] .predeclared).2 = [⟨31⟩, ⟨32⟩, ⟨33⟩] ∧
      Digraph.reportable [⟨31⟩, ⟨32⟩, ⟨33⟩]
        (embeddings ((PackageSource.ofText twoCircles).interfaces #[] [] .predeclared).1 [⟨31⟩, ⟨32⟩, ⟨33⟩]) =
          [⟨32⟩, ⟨33⟩] := by
    decide +kernel
  obtain ⟨⟨t', interfaces⟩, hread⟩ : ∃ r, (PackageSource.ofText twoCircles).interfaces #[] [] .predeclared = r := ⟨_, rfl⟩
  rw [hread] at h
  obtain ⟨rfl, hreportable⟩ := h
  have hdeclared : ∀ l : List TypeId, (id l).Perm l := fun l => .refl l
  refine ⟨t', hread, ?_, ?_⟩
  · rw [(checkPackageBy_arrange hdeclared #[] [] ⟨0⟩ _ _ hread).1, hreportable]
    rfl
  · rw [(checkPackageBy_arrange (visitFirst_perm ⟨33⟩) #[] [] ⟨0⟩ _ _ hread).1, hreportable]
    rfl

end UnusedMethods.Typing
