import UnusedMethods.Proofs.Correspondence

/-!
# Tables that correspond give the same answers

What can be asked about a type of a table has the same answer for the type of another table that corresponds to it: a
truth value is the same, and a type or a function is one that corresponds. Some questions are pursued for as many steps as
the table has entries, and the tables differ in size; for these it is shown first that more steps bring no other answer.
-/

namespace UnusedMethods.Types

namespace Correspondence.Between

variable {k : Correspondence} {s t : Table} {a b : TypeId}

variable {as bs : List TypeId}

/-! ## Types -/

theorem isPointer (h : k.Between s t) (hab : k.types a b) : t.isPointer b = s.isPointer a := by
  have hget := h.get hab
  unfold Table.isPointer
  generalize s.get a = x at hget
  generalize t.get b = y at hget
  cases hget <;> rfl

theorem interface? (h : k.Between s t) (hab : k.types a b) :
    Option.Rel (Interface.Alike k) (s.interface? a) (t.interface? b) := by
  have hget := h.get (h.reads.underlying hab)
  unfold Table.interface?
  generalize s.get (s.underlying a) = x at hget
  generalize t.get (t.underlying b) = y at hget
  cases hget with
  | interface hij => exact .some hij
  | _ => exact .none

theorem isInterface (h : k.Between s t) (hab : k.types a b) : t.isInterface b = s.isInterface a :=
  isSome_of_optionRel (h.interface? hab)

theorem isStringerSignature (h : k.Between s t) (hab : k.types a b) :
    t.isStringerSignature b = s.isStringerSignature a := by
  have hsig := h.reads.signature? hab
  unfold Table.isStringerSignature
  generalize s.signature? a = x at hsig
  generalize t.signature? b = y at hsig
  cases hsig with
  | none => rfl
  | @some sig sig' hsig =>
    obtain ⟨params, results, variadic⟩ := sig
    obtain ⟨params', results', variadic'⟩ := sig'
    cases hsig.params with
    | cons _ _ => rfl
    | nil =>
      cases hsig.results with
      | nil => rfl
      | cons hr hrest =>
        cases hrest with
        | cons _ _ => rfl
        | nil =>
          have hget := h.get hr
          dsimp only
          generalize s.get _ = x at hget
          generalize t.get _ = y at hget
          cases hget <;> rfl

/-! ## Functions -/

theorem hasPointerRecv (h : k.Between s t) {f g : FuncId} (hfg : k.funcs f g) :
    (t.func g).hasPointerRecv = (s.func f).hasPointerRecv := by
  have hkind := (h.func hfg).kind
  unfold Func.hasPointerRecv
  generalize (s.func f).kind = x at hkind
  generalize (t.func g).kind = y at hkind
  cases hkind <;> rfl

theorem inheritMethods (h : k.Between s t) {ms ms' fs gs : List FuncId} (hms : List.Forall₂ k.funcs ms ms')
    (hfg : List.Forall₂ k.funcs fs gs) :
    List.Forall₂ k.funcs (s.inheritMethods ms fs) (t.inheritMethods ms' gs) := by
  refine List.rel_foldl (P := List.Forall₂ k.funcs) (R := k.funcs) ?_ hms hfg
  intro ms ms' hms f g hfg
  have hany : (ms'.any fun e => (t.func e).name = (t.func g).name) = ms.any fun e => (s.func e).name = (s.func f).name := by
    induction hms with
    | nil => rfl
    | cons hee _ ih =>
      rw [List.any_cons, List.any_cons, ih, h.reads.name hee, h.reads.name hfg]
  dsimp only
  rw [hany]
  split
  · exact hms
  · exact List.rel_append hms (.cons hfg .nil)

theorem mergeSort_rel {α β : Type} {R : α → β → Prop} {le : α → α → Bool} {le' : β → β → Bool}
    (hle : ∀ x y x' y', R x y → R x' y' → le' y y' = le x x') {xs : List α} {ys : List β} (h : List.Forall₂ R xs ys) :
    List.Forall₂ R (xs.mergeSort le) (ys.mergeSort le') := by
  -- the pairs are sorted, and the two sides are read off
  have hpairs : ∀ p ∈ xs.zip ys, R p.1 p.2 := fun p hp => List.forall₂_zip h hp
  have hfst : (xs.zip ys).map Prod.fst = xs := List.map_fst_zip (le_of_eq h.length_eq)
  have hsnd : (xs.zip ys).map Prod.snd = ys := List.map_snd_zip (le_of_eq h.length_eq.symm)
  have hleft := List.map_mergeSort (r := fun p q => le p.1 q.1) (s := le) (f := Prod.fst) (l := xs.zip ys)
    fun _ _ _ _ => rfl
  have hright := List.map_mergeSort (r := fun p q => le p.1 q.1) (s := le') (f := Prod.snd) (l := xs.zip ys)
    fun p hp q hq => (hle _ _ _ _ (hpairs p hp) (hpairs q hq)).symm
  rw [hfst] at hleft
  rw [hsnd] at hright
  rw [← hleft, ← hright, List.forall₂_map_left_iff, List.forall₂_map_right_iff]
  exact List.forall₂_same.2 fun p hp => hpairs p (List.mem_mergeSort.1 hp)

theorem sortMethods (h : k.Between s t) {fs gs : List FuncId} (hfg : List.Forall₂ k.funcs fs gs) :
    List.Forall₂ k.funcs (s.sortMethods fs) (t.sortMethods gs) := by
  refine mergeSort_rel (fun f g f' g' hfg hfg' => ?_) hfg
  rw [h.reads.name hfg, h.reads.name hfg']

/-! ## Identical types -/

theorem listEq_iff (h : k.Between s t) {as' bs' : List TypeId} (hab : List.Forall₂ k.types as bs)
    (hab' : List.Forall₂ k.types as' bs') : bs = bs' ↔ as = as' :=
  (Relator.rel_eq h.types.forall₂ hab hab').symm

theorem funcListEq_iff (h : k.Between s t) {fs fs' gs gs' : List FuncId} (hfg : List.Forall₂ k.funcs fs gs)
    (hfg' : List.Forall₂ k.funcs fs' gs') : gs = gs' ↔ fs = fs' :=
  (Relator.rel_eq h.funcs.forall₂ hfg hfg').symm

theorem askAll_rel {answer answer' : TypePair → Option Bool} (h : ∀ p q, Pairs k p q → answer' q = answer p)
    {qs qs' : List (Option TypePair)} (hqs : List.Forall₂ (Option.Rel (Pairs k)) qs qs') :
    askAll answer' qs' = askAll answer qs := by
  induction hqs with
  | nil => rfl
  | cons hq _ ih =>
    cases hq with
    | none => rfl
    | some hpq =>
      rw [askAll, askAll, h _ _ hpq, ih]

theorem zipQuestions_rel {α β : Type} {R : α → β → Prop} {question : α → α → Option TypePair}
    {question' : β → β → Option TypePair}
    (h : ∀ x x' y y', R x x' → R y y' → Option.Rel (Pairs k) (question x y) (question' x' y')) {xs ys : List α}
    {xs' ys' : List β} (hxs : List.Forall₂ R xs xs') (hys : List.Forall₂ R ys ys') :
    List.Forall₂ (Option.Rel (Pairs k)) (zipQuestions question xs ys) (zipQuestions question' xs' ys') := by
  unfold zipQuestions
  rw [hxs.length_eq, hys.length_eq]
  split
  · clear * - h hxs hys
    induction hxs generalizing ys ys' with
    | nil => exact .nil
    | cons hx _ ih =>
      cases hys with
      | nil => exact .nil
      | cons hy hys => exact .cons (h _ _ _ _ hx hy) (ih hys)
  · exact .cons .none .nil

/-- The comparison of types that are built alike asks corresponding questions. -/
theorem tyQuestions (h : k.Between s t) {x x' y y' : Ty} (hx : x.Alike k x') (hy : y.Alike k y') :
    List.Forall₂ (Option.Rel (Pairs k)) (x.questions s y) (x'.questions t y') := by
  have hno : List.Forall₂ (Option.Rel (Pairs k)) [none] [none] := .cons .none .nil
  have hone : ∀ {a b a' b'}, k.types a b → k.types a' b' →
      List.Forall₂ (Option.Rel (Pairs k)) [some (a, a')] [some (b, b')] :=
    fun hab hab' => .cons (.some ⟨hab, hab'⟩) .nil
  have hids : ∀ {as as' bs bs' : List TypeId}, List.Forall₂ k.types as bs → List.Forall₂ k.types as' bs' →
      List.Forall₂ (Option.Rel (Pairs k)) (zipQuestions (fun x y => some (x, y)) as as')
        (zipQuestions (fun x y => some (x, y)) bs bs') :=
    fun hab hab' => zipQuestions_rel (R := k.types) (fun _ _ _ _ hx hy => .some (show Pairs k _ _ from ⟨hx, hy⟩)) hab hab'
  cases hx with
  | invalid => cases hy <;> exact hno
  | typeParam _ => cases hy <;> exact hno
  | basic kind =>
    cases hy with
    | basic kind' =>
      simp only [Ty.questions]
      split
      · exact .nil
      · exact hno
    | _ => exact hno
  | named hd =>
    cases hy with
    | named he =>
      simp only [Ty.questions]
      rcases optionRel_cases hd.origin with ⟨ho, ho'⟩ | ⟨o, o', ho, ho', hoo⟩ <;> rw [ho, ho']
      · exact hno
      rcases optionRel_cases he.origin with ⟨hp, hp'⟩ | ⟨p, p', hp, hp', hpp⟩ <;> rw [hp, hp']
      · exact hno
      simp only [h.reads.eq_iff hoo hpp]
      split
      · exact hids hd.typeArgs he.typeArgs
      · exact hno
    | _ => exact hno
  | pointer hab =>
    cases hy with
    | pointer hab' => exact hone hab hab'
    | _ => exact hno
  | slice hab =>
    cases hy with
    | slice hab' => exact hone hab hab'
    | _ => exact hno
  | array len hab =>
    cases hy with
    | array len' hab' =>
      simp only [Ty.questions]
      split
      · exact hone hab hab'
      · exact hno
    | _ => exact hno
  | map hkey hvalue =>
    cases hy with
    | map hkey' hvalue' => exact .cons (.some ⟨hkey, hkey'⟩) (hone hvalue hvalue')
    | _ => exact hno
  | chan dir hab =>
    cases hy with
    | chan dir' hab' =>
      simp only [Ty.questions]
      split
      · exact hone hab hab'
      · exact hno
    | _ => exact hno
  | signature hs =>
    cases hy with
    | signature hs' =>
      simp only [Ty.questions]
      rw [hs.variadic, hs'.variadic]
      split
      · exact List.rel_append (hids hs.params hs'.params) (hids hs.results hs'.results)
      · exact hno
    | _ => exact hno
  | interface hi =>
    cases hy with
    | interface hi' =>
      simp only [Ty.questions]
      rw [hi.hasTerms, hi'.hasTerms]
      split
      · exact hno
      · refine zipQuestions_rel (fun f g f' g' hfg hfg' => ?_) hi.methodList hi'.methodList
        rw [h.reads.name hfg, h.reads.name hfg']
        split
        · exact .some ⟨(h.func hfg).sig, (h.func hfg').sig⟩
        · exact .none
    | _ => exact hno
  | struct hfs =>
    cases hy with
    | struct hfs' =>
      refine zipQuestions_rel (fun f g f' g' hfg hfg' => ?_) hfs hfs'
      rw [hfg.name, hfg'.name, hfg.embedded, hfg'.embedded]
      split
      · exact .some ⟨hfg.type, hfg'.type⟩
      · exact .none
    | _ => exact hno
  | tuple has =>
    cases hy with
    | tuple has' => exact hids has has'
    | _ => exact hno
  | union hts =>
    cases hy with
    | union hts' =>
      refine zipQuestions_rel (fun f g f' g' hfg hfg' => ?_) hts hts'
      rw [hfg.tilde, hfg'.tilde]
      split
      · exact .some ⟨hfg.type, hfg'.type⟩
      · exact .none
    | _ => exact hno

theorem compareWithin (h : k.Between s t) (n : Nat) {p q : TypePair} (hpq : Pairs k p q) :
    t.compareWithin n q = s.compareWithin n p := by
  induction n generalizing p q with
  | zero => rfl
  | succ n ih =>
    rw [Table.compareWithin_succ, Table.compareWithin_succ]
    refine askAll_rel (fun p q hpq => ih hpq) ?_
    unfold Table.questions
    simp only [h.reads.eq_iff hpq.1 hpq.2]
    split
    · exact .nil
    · exact h.tyQuestions (h.get hpq.1) (h.get hpq.2)

theorem identical (h : k.Between s t) {a' b' : TypeId} (hab : k.types a b) (hab' : k.types a' b') :
    t.identical b b' = s.identical a a' := by
  have hpairs : Pairs k (a, a') (b, b') := ⟨hab, hab'⟩
  rw [Bool.eq_iff_iff]
  constructor
  · intro hid
    obtain ⟨n, hn⟩ := Table.identical_iff.1 hid
    exact Table.identical_iff.2 ⟨n, (h.compareWithin n hpairs).symm.trans hn⟩
  · intro hid
    obtain ⟨n, hn⟩ := Table.identical_iff.1 hid
    exact Table.identical_iff.2 ⟨n, (h.compareWithin n hpairs).trans hn⟩

theorem identicalLists (h : k.Between s t) {as' bs' : List TypeId} (hab : List.Forall₂ k.types as bs)
    (hab' : List.Forall₂ k.types as' bs') : t.identicalLists bs bs' = s.identicalLists as as' := by
  rw [Bool.eq_iff_iff, Table.identicalLists_iff, Table.identicalLists_iff]
  induction hab generalizing as' bs' with
  | nil => cases hab' <;> simp
  | cons hx _ ih =>
    cases hab' with
    | nil => simp
    | cons hy hrest => rw [List.forall₂_cons, List.forall₂_cons, ih hrest, h.identical hx hy]

/-! ## Instances -/

/-- An instance that is asked for is found in both tables or in none. -/
theorem instance? (h : k.Between s t) (hab : k.types a b) (hargs : List.Forall₂ k.types as bs) :
    Option.Rel k.types (s.instance? a as) (t.instance? b bs) := by
  have hmatch : ∀ {x y}, k.types x y → t.isMatch b bs (t.get y) = s.isMatch a as (s.get x) := by
    intro x y hxy
    have hget := h.get hxy
    generalize s.get x = tx at hget
    generalize t.get y = ty at hget
    cases hget with
    | named hde =>
      unfold Table.isMatch
      dsimp only
      rw [h.identicalLists hde.typeArgs hargs]
      congr 1
      rcases optionRel_cases hde.origin with ⟨ho, ho'⟩ | ⟨o, o', ho, ho', hoo⟩ <;> rw [ho, ho']
      · simp
      · simp [h.reads.eq_iff hoo hab]
    | _ => rfl
  have hinstance : ∀ {u : Table} {g id args}, u.isMatch g args (u.get id) = true → (u.get id).isInstance = true := by
    intro u g id args hid
    cases hget : u.get id with
    | named d =>
      rw [hget] at hid
      have horigin : d.origin = some g := by
        have := (Bool.and_eq_true_iff.1 hid).1
        simpa using this
      simp [Ty.isInstance, horigin]
    | _ =>
      rw [hget] at hid
      cases hid
  show Option.Rel k.types (s.find? (s.isMatch a as)) (t.find? (t.isMatch b bs))
  cases hs : s.find? (s.isMatch a as) with
  | none =>
    cases ht : t.find? (t.isMatch b bs) with
    | none => exact .none
    | some q =>
      -- what is found in the second table corresponds to an instance of the first
      have hq := Table.get_of_find? ht
      obtain ⟨p, hpq⟩ := h.instances (hinstance hq)
      have hp := Table.get_eq_false_of_find? hs (h.hasType hpq).1
      rw [← hmatch hpq, hq] at hp
      cases hp
  | some p =>
    have hp := Table.get_of_find? hs
    obtain ⟨q, hpq⟩ := h.total (Build.hasType_of_find? hs)
    have hq : t.isMatch b bs (t.get q) = true := (hmatch hpq).trans hp
    cases ht : t.find? (t.isMatch b bs) with
    | none =>
      have hfalse := Table.get_eq_false_of_find? ht (h.hasType hpq).2
      rw [hq] at hfalse
      cases hfalse
    | some q' =>
      have hq' := Table.get_of_find? ht
      obtain ⟨p', hpq'⟩ := h.instances (hinstance hq')
      have hp' : s.isMatch a as (s.get p') = true := (hmatch hpq').symm.trans hq'
      have hle := Table.index_le_of_find? hs (h.hasType hpq').1 hp'
      have hle' := Table.index_le_of_find? ht (h.hasType hpq).2 hq
      -- the first in the one table is the first in the other, as instances stand in the same order
      rcases Nat.lt_or_eq_of_le hle with hlt | heq
      · have hlt' := h.order hpq hpq' (hinstance hp) (hinstance hp') hlt
        omega
      · obtain rfl := TypeId.eq_of_index_eq heq
        rw [h.types.2 hpq' hpq]
        exact .some hpq

end Correspondence.Between

/-! ## How far members are looked for -/

namespace Table

variable {t : Table} {name : String} {start : TypeId}

variable {p : TypeId × Bool} {past : Finset TypeId} {items : List (TypeId × Bool)} {front front' : Frontier} {n m : Nat}

/-- What a search has been through: the types at which it has looked do not have the member, and what they embed has been
looked at or is to be looked at next. -/
structure Searched (t : Table) (name : String) (start : TypeId) (past : Finset TypeId) (front : Frontier) : Prop where
  noMember : ∀ x ∈ past, t.ownMember? name x = none
  closed : ∀ x ∈ past, ∀ p ∈ t.embeddedTypes x, p.1 ∈ past ∨ p.1 ∈ front.next.map (·.1)
  seen : ∀ x ∈ front.seen, x ∈ past
  pastRange : ∀ x ∈ past, x = start ∨ t.HasType x
  nextRange : ∀ p ∈ front.next, p.1 = start ∨ t.HasType p.1

theorem hasType_embeddedTypes (holder : ∀ id c, c ∈ (t.get id).parts → c.index < id.index) {id : TypeId}
    (hp : p ∈ t.embeddedTypes id) : t.HasType p.1 := by
  have hpart : ∀ id c, c ∈ (t.get id).parts → t.HasType c := by
    intro id c hc
    refine Nat.lt_trans (holder id c hc) (hasType_of_get_ne_invalid fun hinvalid => ?_)
    rw [hinvalid] at hc
    cases hc
  unfold embeddedTypes at hp
  dsimp only at hp
  split at hp
  · rename_i fields hget
    obtain ⟨f, hf, rfl⟩ := List.mem_map.1 hp
    have htype : t.HasType f.type := by
      generalize t.underlying _ = struct at hget
      refine hpart struct f.type ?_
      rw [hget]
      exact List.mem_map_of_mem (List.mem_of_mem_filter hf)
    unfold deref
    split
    · rename_i elem helem
      exact hpart f.type elem (by rw [helem]; exact List.mem_singleton_self _)
    · exact htype
  · cases hp

theorem Searched.searchLevel (holder : ∀ id c, c ∈ (t.get id).parts → c.index < id.index)
    (h : t.Searched name start past ⟨items ++ front.next, front.seen⟩)
    (hlevel : t.searchLevel name items front = .inr front') :
    t.Searched name start (past ∪ (items.map (·.1)).toFinset) front' := by
  induction items generalizing past front with
  | nil =>
    cases hlevel
    simpa using h
  | cons item items ih =>
    obtain ⟨id, indirect⟩ := item
    have hunion : past ∪ (((id, indirect) :: items).map (·.1)).toFinset = insert id past ∪ (items.map (·.1)).toFinset := by
      ext x
      simp
    rw [hunion]
    unfold Table.searchLevel at hlevel
    dsimp only at hlevel
    have hid : id = start ∨ t.HasType id := h.nextRange (id, indirect) (by simp)
    split at hlevel
    · -- a declared type that has been seen is passed over
      rename_i hseen
      have hpast : id ∈ past := h.seen id (by simpa using (Bool.and_eq_true_iff.1 hseen).2)
      rw [Finset.insert_eq_of_mem hpast]
      refine ih ⟨h.noMember, fun x hx p hp => ?_, h.seen, h.pastRange, fun p hp => h.nextRange p (by simp_all)⟩ hlevel
      rcases h.closed x hx p hp with hmem | hmem
      · exact .inl hmem
      · rcases List.mem_cons.1 hmem with heq | hmem
        · exact .inl (heq ▸ hpast)
        · exact .inr hmem
    · split at hlevel
      · cases hlevel
      · rename_i hnone
        refine ih ⟨?_, ?_, ?_, ?_, ?_⟩ hlevel
        · intro x hx
          rcases Finset.mem_insert.1 hx with rfl | hx
          · exact hnone
          · exact h.noMember x hx
        · intro x hx p hp
          rcases Finset.mem_insert.1 hx with rfl | hx
          · refine .inr (List.mem_map.2 ⟨(p.1, indirect || p.2), ?_, rfl⟩)
            simp only [List.mem_append, List.mem_map]
            exact .inr (.inr ⟨p, hp, rfl⟩)
          · rcases h.closed x hx p hp with hmem | hmem
            · exact .inl (Finset.mem_insert_of_mem hmem)
            · simp only [List.cons_append, List.map_cons, List.mem_cons, List.map_append, List.mem_append] at hmem ⊢
              rcases hmem with heq | hmem | hmem
              · exact .inl (Finset.mem_insert.2 (.inl heq))
              · exact .inr (.inl hmem)
              · exact .inr (.inr (.inl hmem))
        · intro x hx
          dsimp only at hx
          split at hx
          · rcases List.mem_cons.1 hx with rfl | hx
            · exact Finset.mem_insert_self _ _
            · exact Finset.mem_insert_of_mem (h.seen x hx)
          · exact Finset.mem_insert_of_mem (h.seen x hx)
        · intro x hx
          rcases Finset.mem_insert.1 hx with rfl | hx
          · exact hid
          · exact h.pastRange x hx
        · intro p hp
          simp only [List.mem_append, List.mem_map] at hp
          rcases hp with hp | hp | ⟨q, hq, rfl⟩
          · exact h.nextRange p (by simp [hp])
          · exact h.nextRange p (by simp [hp])
          · exact .inr (hasType_embeddedTypes holder (p := q) hq)

/-- What is to be looked at after a depth is embedded in a type of that depth. -/
theorem mem_next_searchLevel (hlevel : t.searchLevel name items front = .inr front') (hp : p ∈ front'.next) :
    p ∈ front.next ∨ ∃ item ∈ items, ∃ q ∈ t.embeddedTypes item.1, q.1 = p.1 := by
  induction items generalizing front with
  | nil =>
    cases hlevel
    exact .inl hp
  | cons item items ih =>
    unfold Table.searchLevel at hlevel
    dsimp only at hlevel
    have hrest : (∃ item ∈ items, ∃ q ∈ t.embeddedTypes item.1, q.1 = p.1) →
        ∃ i ∈ item :: items, ∃ q ∈ t.embeddedTypes i.1, q.1 = p.1 := by
      rintro ⟨i, hi, hq⟩
      exact ⟨i, List.mem_cons_of_mem _ hi, hq⟩
    split at hlevel
    · exact (ih hlevel).imp_right hrest
    · split at hlevel
      · cases hlevel
      · rcases ih hlevel with hp | hp
        · rcases List.mem_append.1 hp with hp | hp
          · exact .inl hp
          · obtain ⟨q, hq, rfl⟩ := List.mem_map.1 hp
            exact .inr ⟨item, List.mem_cons_self, q, hq, rfl⟩
        · exact .inr (hrest hp)

theorem exists_searchLevel (h : ∀ p ∈ items, t.ownMember? name p.1 = none) (front : Frontier) :
    ∃ front', t.searchLevel name items front = .inr front' := by
  induction items generalizing front with
  | nil => exact ⟨front, rfl⟩
  | cons item items ih =>
    obtain ⟨hitem, hitems⟩ := List.forall_mem_cons.1 h
    unfold Table.searchLevel
    dsimp only
    rw [hitem]
    split
    · exact ih hitems front
    · exact ih hitems _

theorem Searched.searchFront (holder : ∀ id c, c ∈ (t.get id).parts → c.index < id.index)
    (h : t.Searched name start past front) (hlevel : t.searchLevel name front.next { front with next := [] } = .inr front') :
    t.Searched name start (past ∪ (front.next.map (·.1)).toFinset) front' := by
  refine Searched.searchLevel holder ?_ hlevel
  simpa using h

/-- A search that has come back to where it has been finds nothing. -/
theorem Searched.searchWithin_eq_none (holder : ∀ id c, c ∈ (t.get id).parts → c.index < id.index) (n : Nat)
    (h : t.Searched name start past front) (hback : ∀ p ∈ front.next, p.1 ∈ past) : t.searchWithin name n front = none := by
  induction n generalizing front with
  | zero => rfl
  | succ n ih =>
    rw [Table.searchWithin]
    split
    · rfl
    · obtain ⟨front', hlevel⟩ := exists_searchLevel (fun p hp => h.noMember p.1 (hback p hp)) { front with next := [] }
      rw [hlevel]
      have hpast : past ∪ (front.next.map (·.1)).toFinset = past := by
        refine Finset.union_eq_left.2 fun x hx => ?_
        obtain ⟨p, hp, rfl⟩ := List.mem_map.1 (List.mem_toFinset.1 hx)
        exact hback p hp
      have hafter := h.searchFront holder hlevel
      refine ih (hpast ▸ hafter) fun p hp => ?_
      rcases mem_next_searchLevel hlevel hp with hp | ⟨item, hitem, q, hq, heq⟩
      · cases hp
      · rcases h.closed item.1 (hback item hitem) q hq with hmem | hmem
        · exact heq ▸ hmem
        · obtain ⟨r, hr, hrq⟩ := List.mem_map.1 hmem
          exact heq ▸ hrq ▸ hback r hr

theorem Searched.card_le (h : t.Searched name start past front) : past.card ≤ t.types.size + 1 := by
  have hsub : past ⊆ insert start ((Finset.range t.types.size).image TypeId.mk) := by
    intro x hx
    rcases h.pastRange x hx with rfl | hhas
    · exact Finset.mem_insert_self _ _
    · exact Finset.mem_insert_of_mem (Finset.mem_image.2 ⟨x.index, Finset.mem_range.2 hhas, rfl⟩)
  calc past.card
    _ ≤ (insert start ((Finset.range t.types.size).image TypeId.mk)).card := Finset.card_le_card hsub
    _ ≤ ((Finset.range t.types.size).image TypeId.mk).card + 1 := Finset.card_insert_le _ _
    _ ≤ t.types.size + 1 := Nat.succ_le_succ (Finset.card_image_le.trans (Finset.card_range _).le)

/-- Every depth leads to a type that the search has not been at, or to no new depth: more depths than there are types left
make no difference. -/
theorem Searched.searchWithin_eq (holder : ∀ id c, c ∈ (t.get id).parts → c.index < id.index)
    (h : t.Searched name start past front) (hn : t.types.size + 2 ≤ n + past.card) (hm : t.types.size + 2 ≤ m + past.card) :
    t.searchWithin name n front = t.searchWithin name m front := by
  induction n generalizing m front past with
  | zero =>
    have hcard := h.card_le
    omega
  | succ n ih =>
    cases m with
    | zero =>
      have hcard := h.card_le
      omega
    | succ m =>
      rw [Table.searchWithin, Table.searchWithin]
      split
      · rfl
      · rename_i hne
        split
        · rfl
        · rename_i front' hlevel
          have hafter := h.searchFront holder hlevel
          by_cases hback : ∀ p ∈ front.next, p.1 ∈ past
          · -- nothing was new at this depth
            have hleft := h.searchWithin_eq_none holder (n + 1) hback
            have hright := h.searchWithin_eq_none holder (m + 1) hback
            rw [Table.searchWithin, if_neg hne, hlevel] at hleft hright
            exact hleft.trans hright.symm
          · have hcard : past.card < (past ∪ (front.next.map (·.1)).toFinset).card := by
              refine Finset.card_lt_card ⟨Finset.subset_union_left, fun hsub => hback fun p hp => ?_⟩
              exact hsub (Finset.mem_union_right _ (List.mem_toFinset.2 (List.mem_map_of_mem hp)))
            exact ih hafter (by omega) (by omega)

/-- The number of depths does not matter if it is larger than the table. -/
theorem searchWithin_of_le (holder : ∀ id c, c ∈ (t.get id).parts → c.index < id.index) (hn : t.types.size + 2 ≤ n)
    (hm : t.types.size + 2 ≤ m) : t.searchWithin name n ⟨[p], []⟩ = t.searchWithin name m ⟨[p], []⟩ := by
  have hstart : t.Searched name p.1 ∅ ⟨[p], []⟩ :=
    ⟨by simp, by simp, by simp, by simp, fun q hq => .inl (by rw [List.mem_singleton.1 hq])⟩
  exact hstart.searchWithin_eq holder (by simpa using hn) (by simpa using hm)

/-! ## How far types are compared with those of arguments -/

/-- The number of levels does not matter if it is larger than the index of the type, as its parts stand before it. -/
theorem unifyWithin_of_lt (holder : ∀ id c, c ∈ (t.get id).parts → c.index < id.index) {typeParams : List TypeId}
    {param arg : TypeId} {bound : Subst} (hn : param.index < n) (hm : param.index < m) :
    t.unifyWithin typeParams n param arg bound = t.unifyWithin typeParams m param arg bound := by
  induction n generalizing m param arg bound with
  | zero => exact absurd hn (Nat.not_lt_zero _)
  | succ n ih =>
    cases m with
    | zero => exact absurd hm (Nat.not_lt_zero _)
    | succ m =>
      have hpart : ∀ {p a bound}, p ∈ (t.get param).parts →
          t.unifyWithin typeParams n p a bound = t.unifyWithin typeParams m p a bound := by
        intro p a bound hp
        have hlt := holder param p hp
        exact ih (by omega) (by omega)
      have hlists : ∀ (bound : Subst) {ps as : List TypeId}, (∀ p ∈ ps, p ∈ (t.get param).parts) →
          (ps.zip as).foldl (fun bound pa => t.unifyWithin typeParams n pa.1 pa.2 bound) bound =
            (ps.zip as).foldl (fun bound pa => t.unifyWithin typeParams m pa.1 pa.2 bound) bound := by
        intro bound ps as hps
        exact List.foldl_ext _ _ _ fun bound pa hpa => hpart (hps _ (List.of_mem_zip hpa).1)
      rw [unifyWithin, unifyWithin]
      dsimp only
      split
      · rfl
      · split <;> rename_i hp _
        · exact hpart (by simp [hp, Ty.parts])
        · exact hpart (by simp [hp, Ty.parts])
        · exact hpart (by simp [hp, Ty.parts])
        · exact hpart (by simp [hp, Ty.parts])
        · exact hlists _ (by simp [hp, Ty.parts])
        · -- the parameters first, then the results
          rw [hlists bound, hlists]
          · exact fun p hmem => by simp [hp, Ty.parts, hmem]
          · exact fun p hmem => by simp [hp, Ty.parts, hmem]
        · split
          · exact hlists _ fun p hmem => by simp [hp, Ty.parts, hmem]
          · rfl
        · rfl

end Table

/-! ## Members -/

namespace Correspondence.Between

variable {k : Correspondence} {s t : Table} {a b : TypeId}

variable {a' b' : TypeId}

/-- The members of types that correspond are found in the same way. -/
theorem lookup (h : k.Between s t) (hab : k.types a b) (name : String) :
    Option.Rel (Lookup.Alike k) (s.lookup a name) (t.lookup b name) := by
  have hfront : Frontier.Alike k ⟨[s.deref a], []⟩ ⟨[t.deref b], []⟩ := ⟨.cons (h.reads.deref hab) .nil, .nil⟩
  have hleft : s.lookup a name = s.searchWithin name (2 * s.types.size + 2 * t.types.size + 2) ⟨[s.deref a], []⟩ :=
    Table.searchWithin_of_le (fun _ _ => h.olderLeft) (by omega) (by omega)
  have hright : t.lookup b name = t.searchWithin name (2 * s.types.size + 2 * t.types.size + 2) ⟨[t.deref b], []⟩ :=
    Table.searchWithin_of_le (fun _ _ => h.olderRight) (by omega) (by omega)
  rw [hleft, hright]
  exact h.reads.searchWithin name _ hfront

theorem hasMethod (h : k.Between s t) (hab : k.types a b) (name : String) (hab' : k.types a' b') (addressable : Bool) :
    t.hasMethod b name b' addressable = s.hasMethod a name a' addressable := by
  unfold Table.hasMethod
  rcases optionRel_cases (h.lookup hab name) with ⟨ha, hb⟩ | ⟨⟨x, i⟩, ⟨y, j⟩, ha, hb, hxy⟩ <;> rw [ha, hb]
  cases hxy.member with
  | field _ => rfl
  | method hfg =>
    dsimp only
    rw [h.hasPointerRecv hfg, show j = i from hxy.indirect, h.identical (h.func hfg).sig hab']

theorem implementsWith (h : k.Between s t) (hab : k.types a b) (hab' : k.types a' b') (addressable : Bool) :
    t.implementsWith b b' addressable = s.implementsWith a a' addressable := by
  unfold Table.implementsWith
  rcases optionRel_cases (h.interface? hab') with ⟨hi, hj⟩ | ⟨i, j, hi, hj, hij⟩ <;> rw [hi, hj]
  dsimp only
  have hall : (j.methodList.all fun m => t.hasMethod b (t.func m).name (t.func m).sig addressable) =
      i.methodList.all fun m => s.hasMethod a (s.func m).name (s.func m).sig addressable := by
    have hlist := hij.methodList
    generalize i.methodList = fs at hlist
    generalize j.methodList = gs at hlist
    induction hlist with
    | nil => rw [List.all_nil, List.all_nil]
    | cons hfg _ ih =>
      rw [List.all_cons, List.all_cons, ih, h.reads.name hfg, h.hasMethod hab _ (h.func hfg).sig]
  rw [hij.hasTerms, h.reads.isInvalid (h.reads.underlying hab), hall]

theorem implements (h : k.Between s t) (hab : k.types a b) (hab' : k.types a' b') :
    t.implements b b' = s.implements a a' := h.implementsWith hab hab' false

/-- A type satisfies an interface if and only if the corresponding type does. -/
theorem satisfies (h : k.Between s t) (hab : k.types a b) (hab' : k.types a' b') : t.satisfies b b' = s.satisfies a a' := by
  unfold Table.satisfies
  rw [h.implements hab hab', h.isPointer hab, h.isInterface hab, h.implementsWith hab hab' true]

/-! ## Type arguments -/

/-- What arguments show about type parameters corresponds. -/
theorem unify (h : k.Between s t) {ps qs : List TypeId} (hparams : List.Forall₂ k.types ps qs) (hab : k.types a b)
    (hab' : k.types a' b') {m m' : Subst} (hm : List.Forall₂ (Pairs k) m m') :
    List.Forall₂ (Pairs k) (s.unify a a' ps m) (t.unify b b' qs m') := by
  obtain ⟨ha, hb⟩ := h.hasType hab
  have ha : a.index < s.types.size := ha
  have hb : b.index < t.types.size := hb
  have hleft : s.unify a a' ps m = s.unifyWithin ps (s.types.size + t.types.size + 1) a a' m :=
    Table.unifyWithin_of_lt (fun _ _ => h.olderLeft) (by omega) (by omega)
  have hright : t.unify b b' qs m' = t.unifyWithin qs (s.types.size + t.types.size + 1) b b' m' :=
    Table.unifyWithin_of_lt (fun _ _ => h.olderRight) (by omega) (by omega)
  rw [hleft, hright]
  exact h.reads.unifyWithin hparams _ hab hab' hm

end Correspondence.Between

end UnusedMethods.Types
