import Mathlib.Data.Nat.Find
import UnusedMethods.Proofs.FinishedTables
import UnusedMethods.Proofs.SameAnswers

/-!
# Members at the least depth

A type has the members of its embedded fields too. They stand at depths: the depth of a member is the number of embedded
fields on the way to it, and of the members with a name, the one at the least depth is meant. Here the members at each depth
are all counted, also those that are reached twice, so that it can be said whether there is only one.

A search depth by depth passes over declared types that it has seen before. This changes neither the least depth at which
there is a member nor the first member there: what lies below a type that was seen is found by way of its first occurrence,
and not deeper.
-/

namespace UnusedMethods.Types

/-! ## The first of a sequence of lists -/

/-- All lists before the one at a place are empty, and this one starts with a value. -/
def FirstAt {α : Type} (lists : Nat → List α) (n : Nat) (a : α) : Prop :=
  (∀ m < n, lists m = []) ∧ (lists n).head? = some a

section FirstAt

variable {α : Type} {lists lists' : Nat → List α} {n n' : Nat} {a a' : α}

theorem FirstAt.ne_nil (h : FirstAt lists n a) : lists n ≠ [] := by
  intro hnil
  have hhead := h.2
  simp [hnil] at hhead

theorem FirstAt.unique (h : FirstAt lists n a) (h' : FirstAt lists n' a') : n = n' ∧ a = a' := by
  have hn : n = n' := by
    by_contra hne
    rcases Nat.lt_or_gt_of_ne hne with hlt | hlt
    · exact h.ne_nil (h'.1 n hlt)
    · exact h'.ne_nil (h.1 n' hlt)
  subst hn
  have heads : some a = some a' := h.2.symm.trans h'.2
  exact ⟨rfl, Option.some.inj heads⟩

theorem exists_firstAt (lists : Nat → List α) (h : lists n ≠ []) : ∃ m ≤ n, ∃ a, FirstAt lists m a := by
  classical
  have hex : ∃ m, lists m ≠ [] := ⟨n, h⟩
  obtain ⟨a, rest, heq⟩ := List.exists_cons_of_ne_nil (Nat.find_spec hex)
  refine ⟨Nat.find hex, Nat.find_min' hex h, a, fun m hm => ?_, by rw [heq, List.head?_cons]⟩
  simpa using Nat.find_min hex hm

theorem firstAt_succ_iff (h : lists 0 = []) : FirstAt lists (n + 1) a ↔ FirstAt (fun n => lists (n + 1)) n a := by
  refine and_congr_left fun _ => ⟨fun hbefore m hm => hbefore (m + 1) (by omega), fun hbefore m hm => ?_⟩
  cases m with
  | zero => exact h
  | succ m => exact hbefore m (by omega)

/-- Parts of the lists can be left out, if each of them is preceded by something: by a value in front of it in the same list,
or by a list that is not empty. -/
theorem firstAt_of_preceded {front part back : Nat → List α}
    (h : ∀ n, part n ≠ [] → front n ≠ [] ∨ ∃ m < n, front m ++ (part m ++ back m) ≠ []) :
    FirstAt (fun n => front n ++ (part n ++ back n)) n a ↔ FirstAt (fun n => front n ++ back n) n a := by
  -- where nothing comes before, both lists are empty or start with the same value
  have hsame : ∀ n, (∀ m < n, front m ++ (part m ++ back m) = []) →
      (front n ++ (part n ++ back n)).head? = (front n ++ back n).head? := by
    intro n hbefore
    cases hfront : front n with
    | cons b rest => simp
    | nil =>
      have hpart : part n = [] := by
        by_contra hne
        rcases h n hne with hne | ⟨m, hm, hne⟩
        · exact hne hfront
        · exact hne (hbefore m hm)
      simp [hpart]
  constructor
  · rintro ⟨hbefore, hhead⟩
    refine ⟨fun m hm => ?_, ?_⟩
    · have hm := hbefore m hm
      simp only [List.append_eq_nil_iff] at hm ⊢
      exact ⟨hm.1, hm.2.2⟩
    · rw [← hsame n hbefore]
      exact hhead
  · rintro ⟨hbefore, hhead⟩
    have hall : ∀ m < n, front m ++ (part m ++ back m) = [] := by
      intro m
      induction m using Nat.strong_induction_on with
      | _ m ih =>
        intro hm
        have heads := hsame m fun k hk => ih k hk (Nat.lt_trans hk hm)
        have hnil : front m ++ back m = [] := hbefore m hm
        rw [hnil, List.head?_nil, List.head?_eq_none_iff] at heads
        exact heads
    exact ⟨hall, (hsame n hall).trans hhead⟩

end FirstAt

namespace Table

variable {t : Table} {name : String}

variable {id : TypeId} {p : TypeId × Bool} {indirect : Bool} {next : List (TypeId × Bool)}

/-! ## Members by depth -/

/-- All members with a name that a type has of itself: methods attached to it, fields, and methods of the interface that
it is. -/
def ownMembers (t : Table) (name : String) (id : TypeId) : List Member :=
  let attached := (t.named? id).elim [] fun d => d.methods.filter fun f => (t.func f).name = name
  let id :=
    match t.get id with
    | .typeParam p => p.constraint
    | _ => id
  attached.map .method ++
    match t.get (t.underlying id) with
    | .struct fields => (fields.filter (·.name = name)).map (.field ·.type)
    | .interface i => (i.methodList.filter fun f => (t.func f).name = name).map .method
    | _ => []

/-- All members with a name that are reached from a type through so many embedded fields, in the order of the fields. -/
def membersAt (t : Table) (name : String) : Nat → TypeId × Bool → List Lookup
  | 0, (id, indirect) => (t.ownMembers name id).map fun member => { member, indirect }
  | depth + 1, (id, indirect) =>
    (t.embeddedTypes id).flatMap fun (id, ptr) => t.membersAt name depth (id, indirect || ptr)

/-- The members of several types. -/
def membersOf (t : Table) (name : String) (depth : Nat) (items : List (TypeId × Bool)) : List Lookup :=
  items.flatMap (t.membersAt name depth)

theorem head?_ownMembers (t : Table) (name : String) (id : TypeId) : (t.ownMembers name id).head? = t.ownMember? name id := by
  unfold ownMembers ownMember?
  have hattached : ((t.named? id).elim [] fun d => d.methods.filter fun f => (t.func f).name = name).head? =
      (t.named? id).elim none fun d => t.funcNamed? name d.methods := by
    cases t.named? id with
    | none => rfl
    | some d => exact List.head?_filter
  dsimp only
  rw [← hattached]
  generalize ((t.named? id).elim [] fun d => d.methods.filter fun f => (t.func f).name = name) = attached
  cases attached with
  | cons f rest => rfl
  | nil =>
    rw [List.map_nil, List.nil_append, List.head?_nil]
    generalize t.underlying _ = under
    dsimp only
    cases t.get under <;> simp [funcNamed?, List.head?_filter]

theorem ownMembers_eq_nil : t.ownMembers name id = [] ↔ t.ownMember? name id = none := by
  rw [← head?_ownMembers, List.head?_eq_none_iff]

theorem membersAt_zero : t.membersAt name 0 p = (t.ownMembers name p.1).map fun m => ⟨m, p.2⟩ := rfl

theorem membersAt_succ {n : Nat} :
    t.membersAt name (n + 1) p = t.membersOf name n ((t.embeddedTypes p.1).map fun q => (q.1, p.2 || q.2)) := by
  unfold membersOf
  rw [List.flatMap_map]
  rfl

theorem membersAt_eq_nil_iff (n : Nat) (id : TypeId) (b b' : Bool) :
    t.membersAt name n (id, b) = [] ↔ t.membersAt name n (id, b') = [] := by
  induction n generalizing id b b' with
  | zero => simp [membersAt_zero]
  | succ n ih =>
    simp only [membersAt, List.flatMap_eq_nil_iff]
    exact forall₂_congr fun p _ => ih p.1 _ _

@[simp]
theorem membersOf_nil {n : Nat} : t.membersOf name n [] = [] := rfl

@[simp]
theorem membersOf_cons {n : Nat} {items : List (TypeId × Bool)} :
    t.membersOf name n (p :: items) = t.membersAt name n p ++ t.membersOf name n items := rfl

theorem membersOf_append {n : Nat} {items items' : List (TypeId × Bool)} :
    t.membersOf name n (items ++ items') = t.membersOf name n items ++ t.membersOf name n items' :=
  List.flatMap_append

/-! ## One depth -/

/-- Types that have been seen do not have the member, and what lies below them comes too late: there is something in front
that is not deeper. -/
def Passed (t : Table) (name : String) (items : List (TypeId × Bool)) (seen : List TypeId) : Prop :=
  ∀ s ∈ seen, t.ownMembers name s = [] ∧
    ∀ n, t.membersAt name (n + 1) (s, false) ≠ [] → ∃ m ≤ n, t.membersOf name m items ≠ []

/-- The same in the middle of a depth: some types are still to be looked at, and what the others embed is at the next depth. -/
def PassedHalf (t : Table) (name : String) (items next : List (TypeId × Bool)) (seen : List TypeId) : Prop :=
  ∀ s ∈ seen, t.ownMembers name s = [] ∧ ∀ n, t.membersAt name (n + 1) (s, false) ≠ [] →
    t.membersOf name n next ≠ [] ∨ ∃ m < n, t.membersOf name m next ++ t.membersOf name (m + 1) items ≠ []

variable {items : List (TypeId × Bool)} {front front' : Frontier} {seen : List TypeId} {n : Nat} {found : Lookup}

/-- The member that is found at a depth is the first there, and if none is found, there is none. -/
theorem head?_membersOf_zero (items : List (TypeId × Bool)) (front : Frontier)
    (hseen : ∀ s ∈ front.seen, t.ownMembers name s = []) :
    (t.membersOf name 0 items).head? = (t.searchLevel name items front).getLeft? := by
  induction items generalizing front with
  | nil => rfl
  | cons p items ih =>
    obtain ⟨id, indirect⟩ := p
    rw [searchLevel, membersOf_cons, membersAt_zero]
    dsimp only
    split
    · rename_i hskip
      have hid : id ∈ front.seen := by simpa using (Bool.and_eq_true_iff.1 hskip).2
      rw [hseen id hid]
      exact ih front hseen
    · split
      · rename_i member hmember
        rw [← head?_ownMembers] at hmember
        simp [List.head?_append, hmember]
      · rename_i hnone
        have hown : t.ownMembers name id = [] := ownMembers_eq_nil.2 hnone
        rw [hown]
        refine ih _ fun s hs => ?_
        dsimp only at hs
        split at hs
        · rcases List.mem_cons.1 hs with rfl | hs
          · exact hown
          · exact hseen s hs
        · exact hseen s hs

theorem PassedHalf.skip (h : t.PassedHalf name ((id, indirect) :: items) next seen) (hid : id ∈ seen) :
    t.PassedHalf name items next seen ∧ ∀ n found,
      FirstAt (fun n => t.membersOf name n next ++ t.membersOf name (n + 1) ((id, indirect) :: items)) n found ↔
        FirstAt (fun n => t.membersOf name n next ++ t.membersOf name (n + 1) items) n found := by
  have hfirst : ∀ n found,
      FirstAt (fun n => t.membersOf name n next ++ t.membersOf name (n + 1) ((id, indirect) :: items)) n found ↔
        FirstAt (fun n => t.membersOf name n next ++ t.membersOf name (n + 1) items) n found := by
    intro n found
    refine firstAt_of_preceded fun n hne => (h id hid).2 n ?_
    exact fun hnil => hne ((membersAt_eq_nil_iff (n + 1) id indirect false).2 hnil)
  refine ⟨fun s hs => ⟨(h s hs).1, fun n hn => ?_⟩, hfirst⟩
  rcases (h s hs).2 n hn with hnext | ⟨m, hm, hne⟩
  · exact .inl hnext
  · -- what comes before is still there at the least depth, where nothing was left out
    obtain ⟨m', hm', found, hfound⟩ :=
      exists_firstAt (fun n => t.membersOf name n next ++ t.membersOf name (n + 1) ((id, indirect) :: items)) hne
    exact .inr ⟨m', by omega, ((hfirst m' found).1 hfound).ne_nil⟩

theorem membersOf_next :
    t.membersOf name n (next ++ (t.embeddedTypes id).map fun q => (q.1, indirect || q.2)) ++ t.membersOf name (n + 1) items =
      t.membersOf name n next ++ t.membersOf name (n + 1) ((id, indirect) :: items) := by
  rw [membersOf_append, membersOf_cons, membersAt_succ, List.append_assoc]

theorem PassedHalf.expand (h : t.PassedHalf name ((id, indirect) :: items) next seen) (hid : t.ownMembers name id = []) :
    t.PassedHalf name items (next ++ (t.embeddedTypes id).map fun q => (q.1, indirect || q.2)) (id :: seen) := by
  intro s hs
  have hold : ∀ n, t.membersOf name n next ≠ [] →
      t.membersOf name n (next ++ (t.embeddedTypes id).map fun q => (q.1, indirect || q.2)) ≠ [] := by
    intro n hne
    rw [membersOf_append]
    exact List.append_ne_nil_of_left_ne_nil hne _
  rcases List.mem_cons.1 hs with rfl | hs
  · refine ⟨hid, fun n hn => .inl ?_⟩
    rw [membersOf_append, ← membersAt_succ (p := (s, indirect))]
    exact List.append_ne_nil_of_right_ne_nil _ fun hnil => hn ((membersAt_eq_nil_iff (n + 1) s indirect false).1 hnil)
  · refine ⟨(h s hs).1, fun n hn => ?_⟩
    rcases (h s hs).2 n hn with hnext | ⟨m, hm, hne⟩
    · exact .inl (hold n hnext)
    · refine .inr ⟨m, hm, ?_⟩
      rw [membersOf_next]
      exact hne

theorem PassedHalf.subset {seen' : List TypeId} (h : t.PassedHalf name items next seen) (hsub : ∀ s ∈ seen', s ∈ seen) :
    t.PassedHalf name items next seen' := fun s hs => h s (hsub s hs)

/-- A depth without the member: its first occurrence is one depth less deep below the next types. -/
theorem searchLevel_eq_inr (h : t.PassedHalf name items front.next front.seen)
    (hlevel : t.searchLevel name items front = .inr front') :
    t.PassedHalf name [] front'.next front'.seen ∧ ∀ n found,
      FirstAt (fun n => t.membersOf name n front.next ++ t.membersOf name (n + 1) items) n found ↔
        FirstAt (fun n => t.membersOf name n front'.next) n found := by
  induction items generalizing front with
  | nil =>
    cases hlevel
    refine ⟨h, fun n found => ?_⟩
    simp
  | cons p items ih =>
    obtain ⟨id, indirect⟩ := p
    unfold searchLevel at hlevel
    dsimp only at hlevel
    split at hlevel
    · rename_i hskip
      have hid : id ∈ front.seen := by simpa using (Bool.and_eq_true_iff.1 hskip).2
      obtain ⟨hrest, hfirst⟩ := h.skip hid
      obtain ⟨hafter, hsame⟩ := ih hrest hlevel
      exact ⟨hafter, fun n found => (hfirst n found).trans (hsame n found)⟩
    · split at hlevel
      · cases hlevel
      · rename_i hnone
        have hown : t.ownMembers name id = [] := ownMembers_eq_nil.2 hnone
        have hexpand := h.expand hown
        have hrest := ih (hexpand.subset ?_) hlevel
        · obtain ⟨hafter, hsame⟩ := hrest
          refine ⟨hafter, fun n found => ?_⟩
          rw [← hsame n found]
          simp only [membersOf_next]
        · intro s hs
          dsimp only at hs
          split at hs
          · exact hs
          · exact List.mem_cons_of_mem _ hs

/-! ## All depths -/

/-- The search finds the first member at the least depth, if this is less than the number of depths that are searched. -/
theorem searchWithin_eq_some_iff {k : Nat} {front : Frontier} (h : t.Passed name front.next front.seen) :
    t.searchWithin name k front = some found ↔
      ∃ n < k, FirstAt (fun n => t.membersOf name n front.next) n found := by
  induction k generalizing front with
  | zero => simp [searchWithin]
  | succ k ih =>
    rw [searchWithin]
    split
    · rename_i hempty
      have hnil : front.next = [] := by simpa using hempty
      simp [hnil, FirstAt]
    · have hseen : ∀ s ∈ front.seen, t.ownMembers name s = [] := fun s hs => (h s hs).1
      have hhead := head?_membersOf_zero front.next { front with next := [] } hseen
      cases hlevel : t.searchLevel name front.next { front with next := [] } with
      | inl found' =>
        rw [hlevel] at hhead
        have hfirst : FirstAt (fun n => t.membersOf name n front.next) 0 found' := ⟨by simp, hhead⟩
        constructor
        · intro heq
          cases heq
          exact ⟨0, by omega, hfirst⟩
        · rintro ⟨n, -, hn⟩
          rw [(hn.unique hfirst).2]
      | inr front' =>
        rw [hlevel] at hhead
        have hzero : t.membersOf name 0 front.next = [] := List.head?_eq_none_iff.1 hhead
        -- nothing is at this depth, so what comes before that which was seen is deeper
        have hhalf : t.PassedHalf name front.next [] front.seen := by
          intro s hs
          refine ⟨hseen s hs, fun n hn => .inr ?_⟩
          obtain ⟨m, hm, hne⟩ := (h s hs).2 n hn
          cases m with
          | zero => exact absurd hzero hne
          | succ m => exact ⟨m, by omega, hne⟩
        obtain ⟨hafter, hsame⟩ := searchLevel_eq_inr hhalf hlevel
        have hpassed : t.Passed name front'.next front'.seen := by
          intro s hs
          refine ⟨(hafter s hs).1, fun n hn => ?_⟩
          rcases (hafter s hs).2 n hn with hne | ⟨m, hm, hne⟩
          · exact ⟨n, by omega, hne⟩
          · exact ⟨m, by omega, by simpa using hne⟩
        have hdeeper : ∀ n found, FirstAt (fun n => t.membersOf name n front.next) (n + 1) found ↔
            FirstAt (fun n => t.membersOf name n front'.next) n found := by
          intro n found
          rw [← hsame n found, firstAt_succ_iff hzero]
          simp
        dsimp only
        rw [ih hpassed]
        constructor
        · rintro ⟨n, hn, hfirst⟩
          exact ⟨n + 1, by omega, (hdeeper n found).2 hfirst⟩
        · rintro ⟨n, hn, hfirst⟩
          cases n with
          | zero => exact absurd hzero hfirst.ne_nil
          | succ n => exact ⟨n, by omega, (hdeeper n found).1 hfirst⟩

theorem lookup_eq_some_iff (hwf : t.WF) :
    t.lookup id name = some found ↔ ∃ n, FirstAt (fun n => t.membersAt name n (t.deref id)) n found := by
  have hpassed : t.Passed name [t.deref id] [] := by
    intro s hs
    cases hs
  have holder : ∀ id c, c ∈ (t.get id).parts → c.index < id.index := fun id c hc => (hwf.get id).parts c hc
  have hlists : (fun n => t.membersAt name n (t.deref id)) = fun n => t.membersOf name n [t.deref id] := by
    funext n
    simp
  rw [hlists]
  constructor
  · intro h
    obtain ⟨n, -, hfirst⟩ := (searchWithin_eq_some_iff hpassed).1 h
    exact ⟨n, hfirst⟩
  · rintro ⟨n, hfirst⟩
    -- more depths make no difference
    have hmore : t.lookup id name = t.searchWithin name (n + 1 + (t.types.size + 2)) ⟨[t.deref id], []⟩ :=
      searchWithin_of_le holder (by omega) (by omega)
    rw [hmore]
    exact (searchWithin_eq_some_iff hpassed).2 ⟨n, by omega, hfirst⟩

/-! ## Method sets -/

/-- Whether a type is a pointer to an interface. -/
def pointsToInterface (t : Table) (id : TypeId) : Bool :=
  match t.get id with
  | .pointer elem => t.isInterface elem
  | _ => false

/-- The only member with a name at the least depth is a method, and if its receiver is a pointer, the way to it goes through
a pointer. A pointer to an interface has no methods. -/
def InMethodSet (t : Table) (id : TypeId) (name : String) (m : FuncId) : Prop :=
  t.pointsToInterface id = false ∧ ∃ depth indirect, (∀ d < depth, t.membersAt name d (t.deref id) = []) ∧
    t.membersAt name depth (t.deref id) = [⟨.method m, indirect⟩] ∧ ((t.func m).hasPointerRecv = true → indirect = true)

/-- There are several members with a name at the least depth. -/
def Ambiguous (t : Table) (id : TypeId) (name : String) : Prop :=
  ∃ depth, (∀ d < depth, t.membersAt name d (t.deref id) = []) ∧ 2 ≤ (t.membersAt name depth (t.deref id)).length

/-- The first member with a name at the least depth is a method, and if its receiver is a pointer, the way to it goes through
a pointer. -/
def IsFirstMethod (t : Table) (id : TypeId) (name : String) (m : FuncId) : Prop :=
  ∃ depth indirect, FirstAt (fun n => t.membersAt name n (t.deref id)) depth ⟨.method m, indirect⟩ ∧
    ((t.func m).hasPointerRecv = true → indirect = true)

theorem hasMethod_iff (hwf : t.WF) {sig : TypeId} : t.hasMethod id name sig false = true ↔
    ∃ m, t.IsFirstMethod id name m ∧ t.identical (t.func m).sig sig = true := by
  unfold hasMethod
  split
  · rename_i m indirect hlookup
    obtain ⟨n, hfirst⟩ := (lookup_eq_some_iff hwf).1 hlookup
    have hiff : t.IsFirstMethod id name m ↔ ((t.func m).hasPointerRecv = true → indirect = true) := by
      constructor
      · rintro ⟨n', indirect', hfirst', hrecv⟩ hpointer
        obtain ⟨-, heq⟩ := hfirst'.unique hfirst
        cases heq
        exact hrecv hpointer
      · exact fun hrecv => ⟨n, indirect, hfirst, hrecv⟩
    have honly : ∀ m', t.IsFirstMethod id name m' → m' = m := by
      rintro m' ⟨n', indirect', hfirst', -⟩
      obtain ⟨-, heq⟩ := hfirst'.unique hfirst
      cases heq
      rfl
    have hcounts : (if ((t.func m).hasPointerRecv && !(false || indirect)) = true then false
        else t.identical (t.func m).sig sig) = true ↔
          ((t.func m).hasPointerRecv = true → indirect = true) ∧ t.identical (t.func m).sig sig = true := by
      cases (t.func m).hasPointerRecv <;> cases indirect <;> simp
    refine hcounts.trans ⟨fun h => ⟨m, hiff.2 h.1, h.2⟩, ?_⟩
    rintro ⟨m', hm', hidentical⟩
    obtain rfl := honly m' hm'
    exact ⟨hiff.1 hm', hidentical⟩
  · rename_i hother
    constructor
    · intro h
      cases h
    · rintro ⟨m, ⟨n, indirect, hfirst, -⟩, -⟩
      exact absurd ((lookup_eq_some_iff hwf).2 ⟨n, hfirst⟩) (hother m indirect)

/-- A type implements an interface if for each method, the first member with its name at the least depth is a method with an
identical signature. -/
theorem implements_iff (hwf : t.WF) {iface : TypeId} {i : Interface} (hi : t.interface? iface = some i)
    (hterms : i.hasTerms = false) (hvalid : t.isInvalid (t.underlying id) = false) :
    t.implements id iface = true ↔ ∀ j ∈ i.methodList,
      ∃ m, t.IsFirstMethod id (t.func j).name m ∧ t.identical (t.func m).sig (t.func j).sig = true := by
  unfold implements implementsWith
  rw [hi]
  simp only [hterms, hvalid, Bool.or_self, Bool.false_eq_true, if_false, List.all_eq_true]
  exact forall₂_congr fun j _ => hasMethod_iff hwf

/-- The first method is in the method set, unless there is another member beside it or the type is a pointer to an interface. -/
theorem isFirstMethod_iff {m : FuncId} : t.IsFirstMethod id name m ↔
    t.InMethodSet id name m ∨ (t.pointsToInterface id = true ∨ t.Ambiguous id name) ∧ t.IsFirstMethod id name m := by
  constructor
  · intro h
    by_cases hpointer : t.pointsToInterface id = true
    · exact .inr ⟨.inl hpointer, h⟩
    · obtain ⟨depth, indirect, ⟨hbefore, hhead⟩, hrecv⟩ := h
      obtain ⟨rest, heq⟩ : ∃ rest, t.membersAt name depth (t.deref id) = ⟨.method m, indirect⟩ :: rest := by
        simpa [List.head?_eq_some_iff] using hhead
      cases rest with
      | nil => exact .inl ⟨by simpa using hpointer, depth, indirect, hbefore, heq, hrecv⟩
      | cons other rest =>
        refine .inr ⟨.inr ⟨depth, hbefore, ?_⟩, depth, indirect, ⟨hbefore, hhead⟩, hrecv⟩
        rw [heq]
        simp
  · rintro (⟨-, depth, indirect, hbefore, heq, hrecv⟩ | ⟨-, h⟩)
    · exact ⟨depth, indirect, ⟨hbefore, by simp [heq]⟩, hrecv⟩
    · exact h

end Table

end UnusedMethods.Types

namespace UnusedMethods.Typing

open UnusedMethods.Types

/-- At every stage, a type is found to implement an interface if each method of the interface is in its method set with an
identical signature. It is also found to have methods that are not in its method set, but only in two cases: the type is a
pointer to an interface, or a name is ambiguous, and the first member in question is such a method. -/
theorem implements_by_methodSet {t : Table} {packages : Array Package} (hstage : Stage t packages) {id iface : TypeId}
    {i : Interface} (hi : t.interface? iface = some i) (hterms : i.hasTerms = false)
    (hvalid : t.isInvalid (t.underlying id) = false) :
    (t.implements id iface = true ↔ ∀ j ∈ i.methods, ∃ m, t.identical (t.func m).sig (t.func j).sig = true ∧
      (t.InMethodSet id (t.func j).name m ∨
        (t.pointsToInterface id = true ∨ t.Ambiguous id (t.func j).name) ∧ t.IsFirstMethod id (t.func j).name m)) ∧
    (t.pointsToInterface id = false → (∀ j ∈ i.methods, ¬ t.Ambiguous id (t.func j).name) →
      (t.implements id iface = true ↔
        ∀ j ∈ i.methods, ∃ m, t.identical (t.func m).sig (t.func j).sig = true ∧ t.InMethodSet id (t.func j).name m)) := by
  have hlist : i.methodList = i.methods := by
    have hget : t.get (t.underlying iface) = .interface i := by
      unfold Table.interface? at hi
      split at hi
      · rename_i heq
        cases hi
        exact heq
      · cases hi
    rw [Interface.methodList, if_pos (hstage.finished.interfaces _ i hget).1]
  have himplements := Table.implements_iff hstage.wf.1 hi hterms hvalid
  rw [hlist] at himplements
  have hexact : t.implements id iface = true ↔ ∀ j ∈ i.methods, ∃ m, t.identical (t.func m).sig (t.func j).sig = true ∧
      (t.InMethodSet id (t.func j).name m ∨
        (t.pointsToInterface id = true ∨ t.Ambiguous id (t.func j).name) ∧ t.IsFirstMethod id (t.func j).name m) := by
    rw [himplements]
    refine forall₂_congr fun j _ => exists_congr fun m => ?_
    rw [← Table.isFirstMethod_iff, and_comm]
  refine ⟨hexact, fun hpointer hclear => hexact.trans (forall₂_congr fun j hj => exists_congr fun m => ?_)⟩
  refine and_congr_right fun _ => or_iff_left fun hother => ?_
  rcases hother.1 with hother | hother
  · rw [hpointer] at hother
    cases hother
  · exact hclear j hj hother

/-- A struct that embeds two types with the same method. -/
def twoMethods : String :=
  "package app

type I interface \x7b M() \x7d

type A struct\x7b\x7d

func (A) M() \x7b\x7d

type B struct\x7b\x7d

func (B) M() \x7b\x7d

type C struct \x7b
	A
	B
\x7d
"

/-- The method of the first embedded type is taken, though the struct has no such method: the name is ambiguous. -/
theorem ambiguous_method_taken : ∃ c iface i,
    (checkText twoMethods).1.scope.find? "C" = some (.typeName c) ∧
    (checkText twoMethods).1.scope.find? "I" = some (.typeName iface) ∧
    (checkText twoMethods).2.interface? iface = some i ∧ i.hasTerms = false ∧
    (checkText twoMethods).2.isInvalid ((checkText twoMethods).2.underlying c) = false ∧
    (checkText twoMethods).2.implements c iface = true ∧
    ∃ j ∈ i.methods, (∀ m, ¬ (checkText twoMethods).2.InMethodSet c ((checkText twoMethods).2.func j).name m) ∧
      (checkText twoMethods).2.Ambiguous c ((checkText twoMethods).2.func j).name ∧
      ∃ m, (checkText twoMethods).2.IsFirstMethod c ((checkText twoMethods).2.func j).name m := by
  have h : (checkText twoMethods).1.scope.find? "C" = some (.typeName ⟨34⟩) ∧
      (checkText twoMethods).1.scope.find? "I" = some (.typeName ⟨31⟩) ∧
      ((checkText twoMethods).2.interface? ⟨31⟩).map (fun i => (i.hasTerms, i.methods)) = some (false, [⟨1⟩]) ∧
      (checkText twoMethods).2.isInvalid ((checkText twoMethods).2.underlying ⟨34⟩) = false ∧
      (checkText twoMethods).2.implements ⟨34⟩ ⟨31⟩ = true ∧ (checkText twoMethods).2.pointsToInterface ⟨34⟩ = false ∧
      (checkText twoMethods).2.membersAt ((checkText twoMethods).2.func ⟨1⟩).name 0 ((checkText twoMethods).2.deref ⟨34⟩) = [] ∧
      ((checkText twoMethods).2.membersAt ((checkText twoMethods).2.func ⟨1⟩).name 1
        ((checkText twoMethods).2.deref ⟨34⟩)).length = 2 := by
    decide +kernel
  obtain ⟨hc, hiface, hi, hvalid, himplements, hpointer, hzero, hone⟩ := h
  obtain ⟨i, hi, hboth⟩ := Option.map_eq_some_iff.1 hi
  obtain ⟨hterms, hmethods⟩ := Prod.mk.inj hboth
  have hj : (⟨1⟩ : FuncId) ∈ i.methods := by simp [hmethods]
  obtain ⟨m, -, hm⟩ := (implements_by_methodSet (stage_checkText twoMethods) hi hterms hvalid).1.1 himplements ⟨1⟩ hj
  generalize (checkText twoMethods).2 = t at *
  have hambiguous : t.Ambiguous ⟨34⟩ (t.func ⟨1⟩).name := ⟨1, by simpa using hzero, by omega⟩
  have hnone : ∀ m, ¬ t.InMethodSet ⟨34⟩ (t.func ⟨1⟩).name m := by
    rintro m ⟨-, depth, indirect, hbefore, heq, -⟩
    -- the least depth is that of the two embedded types
    have hdepth : depth = 1 := by
      have hne : depth ≠ 0 := by
        rintro rfl
        rw [hzero] at heq
        cases heq
      by_contra hother
      have hnil := hbefore 1 (by omega)
      rw [hnil] at hone
      cases hone
    subst hdepth
    rw [heq] at hone
    cases hone
  refine ⟨⟨34⟩, ⟨31⟩, i, hc, hiface, hi, hterms, hvalid, himplements, ⟨1⟩, hj, hnone, hambiguous, m, ?_⟩
  rcases hm with hm | hm
  · exact absurd hm (hnone m)
  · exact hm.2

end UnusedMethods.Typing
