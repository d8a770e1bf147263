import UnusedMethods.Proofs.MethodSets

/-!
# Identity and satisfaction as relations

Identity of types is an equivalence. Satisfaction composes with it: what has the methods of an interface has those of
every interface that this one implements. A type satisfies an interface if the pointer to it implements the interface,
since all that is reached from a pointer is reached through one.
-/

namespace UnusedMethods.Types

/-! ## The search behind a pointer -/

/-- The member, found by way of a pointer. -/
def Lookup.throughPointer (found : Lookup) : Lookup := { found with indirect := true }

/-- The same search, from behind a pointer. -/
def Frontier.throughPointer (front : Frontier) : Frontier := { front with next := front.next.map fun p => (p.1, true) }

namespace Table

variable {t : Table} {name : String}

variable {id p sig iface : TypeId}

theorem searchLevel_throughPointer (items : List (TypeId × Bool)) (front : Frontier) :
    t.searchLevel name (items.map fun p => (p.1, true)) front.throughPointer =
      (t.searchLevel name items front).map Lookup.throughPointer Frontier.throughPointer := by
  induction items generalizing front with
  | nil => rfl
  | cons p items ih =>
    obtain ⟨id, indirect⟩ := p
    simp only [List.map_cons, searchLevel]
    have hseen : front.throughPointer.seen = front.seen := rfl
    rw [hseen]
    split
    · exact ih front
    · split
      · rfl
      · rw [← ih]
        congr 1
        simp [Frontier.throughPointer]

theorem searchWithin_throughPointer (n : Nat) (front : Frontier) :
    t.searchWithin name n front.throughPointer = (t.searchWithin name n front).map Lookup.throughPointer := by
  induction n generalizing front with
  | zero => rfl
  | succ n ih =>
    have hempty : front.throughPointer.next.isEmpty = front.next.isEmpty := by simp [Frontier.throughPointer]
    have hlevel : t.searchLevel name front.throughPointer.next { front.throughPointer with next := [] } =
        (t.searchLevel name front.next { front with next := [] }).map Lookup.throughPointer Frontier.throughPointer :=
      searchLevel_throughPointer front.next { front with next := [] }
    rw [searchWithin, searchWithin, hempty, hlevel]
    split
    · rfl
    · cases t.searchLevel name front.next { front with next := [] } with
      | inl found => rfl
      | inr front => exact ih front

/-- From a pointer the same members are found as from what it points to, all of them by way of a pointer. -/
theorem lookup_pointer (hp : t.get p = .pointer id) (hid : t.isPointer id = false) :
    t.lookup p name = (t.lookup id name).map Lookup.throughPointer := by
  have hderef : t.deref id = (id, false) := by
    unfold isPointer at hid
    unfold deref
    split at hid <;> simp_all
  have hderef' : t.deref p = (id, true) := by simp [deref, hp]
  rw [lookup, lookup, hderef, hderef', ← searchWithin_throughPointer]
  rfl

theorem hasMethod_pointer (hp : t.get p = .pointer id) (hid : t.isPointer id = false) :
    t.hasMethod p name sig false = t.hasMethod id name sig true := by
  unfold hasMethod
  rw [lookup_pointer hp hid]
  cases t.lookup id name with
  | none => rfl
  | some found =>
    obtain ⟨member, indirect⟩ := found
    cases member <;> simp [Lookup.throughPointer]

theorem hasMethod_addressable (h : t.hasMethod id name sig false = true) : t.hasMethod id name sig true = true := by
  unfold hasMethod at h ⊢
  split at h
  · dsimp only at h
    split at h
    · cases h
    · simpa using h
  · cases h

theorem hasMethod_of_identical {sig' : TypeId} {addressable : Bool} (h : t.hasMethod id name sig addressable = true)
    (hsig : t.identical sig sig' = true) : t.hasMethod id name sig' addressable = true := by
  unfold hasMethod at h ⊢
  split at h
  · dsimp only at h ⊢
    split at h
    · cases h
    · rename_i hrecv
      rw [if_neg hrecv]
      exact identical_trans h hsig
  · cases h

theorem implementsWith_iff {addressable : Bool} : t.implementsWith id iface addressable = true ↔
      ∃ i, t.interface? iface = some i ∧ i.hasTerms = false ∧ t.isInvalid (t.underlying id) = false ∧
        ∀ m ∈ i.methodList, t.hasMethod id (t.func m).name (t.func m).sig addressable = true := by
  unfold implementsWith
  cases t.interface? iface with
  | none => simp
  | some i =>
    cases hterms : i.hasTerms <;> cases hvalid : t.isInvalid (t.underlying id) <;> simp [hterms]

theorem implementsWith_addressable (h : t.implements id iface = true) : t.implementsWith id iface true = true := by
  obtain ⟨i, hi, hterms, hvalid, hmethods⟩ := implementsWith_iff.1 h
  exact implementsWith_iff.2 ⟨i, hi, hterms, hvalid, fun m hm => hasMethod_addressable (hmethods m hm)⟩

theorem implements_pointer (hp : t.get p = .pointer id) (hid : t.isPointer id = false)
    (hvalid : t.isInvalid (t.underlying id) = false) (iface : TypeId) :
    t.implements p iface = t.implementsWith id iface true := by
  have hunder : t.underlying p = p := by simp [underlying, underlyingWithin, hp]
  have hvalid' : t.isInvalid (t.underlying p) = false := by simp [hunder, isInvalid, hp]
  unfold implements implementsWith
  simp only [hvalid, hvalid', hasMethod_pointer hp hid]

theorem satisfies_of_value (hpointer : t.isPointer id = false) (hinterface : t.isInterface id = false) :
    t.satisfies id iface = t.implementsWith id iface true := by
  unfold satisfies
  rw [hpointer, hinterface, Bool.eq_iff_iff]
  simpa using implementsWith_addressable

end Table

/-! ## New pointer types -/

namespace Build

theorem pointer_run {t t' : Table} {id p : TypeId} (hrun : (pointer id).run t = (p, t')) :
    t'.get p = .pointer id ∧ (t' = t ∨ t' = t.withType (.pointer id)) := by
  rw [← Wrapping.build_pointer, Wrapping.build, StateT.run_bind, StateT.run_get, pure_bind] at hrun
  split at hrun
  · rename_i found hfound
    cases hrun
    exact ⟨Wrapping.isWrap_iff.1 (Table.get_of_find? hfound), .inl rfl⟩
  · cases hrun
    exact ⟨Table.get_withType_nextType t _, .inr rfl⟩

end Build

namespace Correspondence

theorem between_withType_pointer {t : Table} (hwf : t.WF) {id : TypeId} (hid : t.HasType id) :
    (identity t).Between t (t.withType (.pointer id)) := by
  have hget : ∀ c, (t.withType (.pointer id)).get c = t.get c ∨
      c = t.nextType ∧ (t.withType (.pointer id)).get c = .pointer id := by
    intro c
    by_cases hc : c = t.nextType
    · subst hc
      exact .inr ⟨rfl, Table.get_withType_nextType t _⟩
    · exact .inl (Table.get_withType hc)
  refine (Between.identity hwf).stays ⟨fun hc => Table.hasType_withType.2 (.inl hc), fun hf => hf,
    fun hc => Table.get_withType (Table.ne_nextType hc), fun _ => rfl, rfl⟩ ?_ ?_
  · intro c part hpart
    rcases hget c with heq | ⟨rfl, heq⟩ <;> rw [heq] at hpart
    · exact (hwf.get c).parts part hpart
    · obtain rfl : part = id := by simpa [Ty.parts] using hpart
      exact hid
  · intro c hc
    rcases hget c with heq | ⟨-, heq⟩ <;> rw [heq] at hc
    · exact hc
    · cases hc

end Correspondence

namespace Table

variable {t t' : Table}

variable {id : TypeId} {i : Interface}

theorem hasType_of_underlying (h : t.isInvalid (t.underlying id) = false) : t.HasType id := by
  refine hasType_of_get_ne_invalid fun hinvalid => ?_
  have hunder : t.underlying id = id := by simp [underlying, underlyingWithin, hinvalid]
  rw [hunder, isInvalid, hinvalid] at h
  cases h

/-- A type that is neither a pointer nor an interface satisfies an interface if it or the pointer to it implements the
interface, and that is if the pointer does. That the pointer type is made changes no answer about the type. -/
theorem satisfies_eq_implements_pointer (hwf : t.WF) {id p : TypeId} (hpointer : t.isPointer id = false)
    (hinterface : t.isInterface id = false) (hvalid : t.isInvalid (t.underlying id) = false)
    (hrun : (Build.pointer id).run t = (p, t')) {iface : TypeId} (hiface : t.HasType iface) :
    t.satisfies id iface = t'.implements p iface ∧
      t.satisfies id iface = (t.implements id iface || t'.implements p iface) ∧
      t'.satisfies id iface = t.satisfies id iface ∧ t'.implements id iface = t.implements id iface := by
  have hid := hasType_of_underlying hvalid
  obtain ⟨hp, htable⟩ := Build.pointer_run hrun
  have hbetween : (Correspondence.identity t).Between t t' := by
    rcases htable with rfl | rfl
    · exact .identity hwf
    · exact Correspondence.between_withType_pointer hwf hid
  have hsame : (Correspondence.identity t).types id id := ⟨hid, rfl⟩
  have hsame' : (Correspondence.identity t).types iface iface := ⟨hiface, rfl⟩
  have hbehind : t'.implements p iface = t.implementsWith id iface true := by
    rw [implements_pointer hp, hbetween.implementsWith hsame hsame']
    · rw [hbetween.isPointer hsame, hpointer]
    · rw [hbetween.reads.isInvalid (hbetween.reads.underlying hsame), hvalid]
  refine ⟨?_, ?_, hbetween.satisfies hsame hsame', hbetween.implements hsame hsame'⟩
  · rw [satisfies_of_value hpointer hinterface, hbehind]
  · rw [satisfies_of_value hpointer hinterface, hbehind, Bool.eq_iff_iff]
    simpa using implementsWith_addressable

/-! ## The methods of an interface -/

theorem get_underlying_of_interface? (h : t.interface? id = some i) : t.get (t.underlying id) = .interface i := by
  unfold interface? at h
  split at h
  · rename_i j hget
    cases h
    exact hget
  · cases h

theorem get_invalid (hwf : t.WF) : t.get .invalid = .invalid := by
  obtain ⟨ty, hty, hbecomes⟩ := hwf.base.types 0 .invalid rfl
  have hget : t.get .invalid = ty := get_eq_of_getElem? hty
  rw [hget]
  exact hbecomes

theorem underlyingWithin_succ_of_interface (hwf : t.WF) {n : Nat} (h : t.get (t.underlyingWithin n id) = .interface i) :
    t.underlyingWithin (n + 1) id = t.underlyingWithin n id := by
  induction n generalizing id with
  | zero =>
    rw [underlyingWithin, get_invalid hwf] at h
    cases h
  | succ n ih =>
    rw [underlyingWithin] at h
    rw [underlyingWithin.eq_2 t id (n + 1), underlyingWithin.eq_2 t id n]
    cases hget : t.get id with
    | named d =>
      simp only [hget] at h ⊢
      exact ih h
    | typeParam p =>
      simp only [hget] at h ⊢
      exact ih h
    | _ => rfl

/-- An interface to which no methods are attached has the methods of its method set and no other members. -/
theorem lookup_interface (hwf : t.WF) (hi : t.interface? id = some i) (hattached : ∀ d, t.get id = .named d → d.methods = [])
    (name : String) : t.lookup id name = (t.funcNamed? name i.methodList).map fun m => ⟨.method m, false⟩ := by
  have hunder := get_underlying_of_interface? hi
  have hbound : ∀ p, t.get id = .typeParam p → t.get (t.underlying p.constraint) = .interface i := by
    intro p hget
    have hstep : t.underlying id = t.underlyingWithin 99 p.constraint := by
      rw [underlying, underlyingWithin, hget]
    rw [hstep] at hunder
    rw [underlying, underlyingWithin_succ_of_interface hwf hunder]
    exact hunder
  have hderef : t.deref id = (id, false) := by
    unfold deref
    split
    · rename_i elem hget
      have hself : t.underlying id = id := by rw [underlying, underlyingWithin, hget]
      rw [hself, hget] at hunder
      cases hunder
    · rfl
  have hnone : ((t.named? id).elim none fun d => t.funcNamed? name d.methods) = none := by
    cases hd : t.named? id with
    | none => rfl
    | some d =>
      show t.funcNamed? name d.methods = none
      rw [hattached d (Expansion.named?_eq_some hd)]
      rfl
  have hown : t.ownMember? name id = (t.funcNamed? name i.methodList).map .method := by
    simp only [ownMember?, hnone]
    cases hget : t.get id with
    | typeParam p => simp only [hbound p hget]
    | _ => simp only [hunder]
  have hembedded : t.embeddedTypes id = [] := by
    unfold embeddedTypes
    cases hget : t.get id with
    | typeParam p => simp only [hbound p hget]
    | _ => simp only [hunder]
  rw [lookup, hderef, searchWithin]
  simp only [searchLevel, hown, hembedded]
  cases t.funcNamed? name i.methodList with
  | some m => simp
  | none => cases 2 * t.types.size + 1 <;> simp [searchWithin]

theorem hasMethod_interface_iff (hwf : t.WF) {sig : TypeId} (hi : t.interface? id = some i)
    (hattached : ∀ d, t.get id = .named d → d.methods = []) {name : String} : t.hasMethod id name sig false = true ↔
      ∃ m, t.funcNamed? name i.methodList = some m ∧ t.identical (t.func m).sig sig = true := by
  unfold hasMethod
  rw [lookup_interface hwf hi hattached]
  cases hm : t.funcNamed? name i.methodList with
  | none => simp
  | some m =>
    have hkind : (t.func m).kind = .interfaceMethod :=
      (Expansion.hasMethod_methodList hwf (get_underlying_of_interface? hi) (List.mem_of_find?_eq_some hm)).kind
    simp [Func.hasPointerRecv, hkind]

theorem implementsWith_trans (hwf : t.WF) {iface target : TypeId} {addressable : Bool}
    (hattached : ∀ d, t.get iface = .named d → d.methods = []) (h : t.implementsWith id iface addressable = true)
    (h' : t.implements iface target = true) : t.implementsWith id target addressable = true := by
  obtain ⟨i, hi, -, hvalid, hmethods⟩ := implementsWith_iff.1 h
  obtain ⟨j, hj, hterms, -, hmethods'⟩ := implementsWith_iff.1 h'
  refine implementsWith_iff.2 ⟨j, hj, hterms, hvalid, fun m hm => ?_⟩
  obtain ⟨m', hm', hidentical⟩ := (hasMethod_interface_iff hwf hi hattached).1 (hmethods' m hm)
  -- the method of the interface between them has the name of the one and is found in the other
  have hname : (t.func m').name = (t.func m).name := by simpa using List.find?_some hm'
  have hhas := hmethods m' (List.mem_of_find?_eq_some hm')
  rw [hname] at hhas
  exact hasMethod_of_identical hhas hidentical

theorem implements_self (hwf : t.WF) (hi : t.interface? id = some i) (hterms : i.hasTerms = false)
    (hattached : ∀ d, t.get id = .named d → d.methods = []) (hnames : (i.methodList.map fun m => (t.func m).name).Nodup) :
    t.implements id id = true := by
  have hvalid : t.isInvalid (t.underlying id) = false := by
    rw [isInvalid, get_underlying_of_interface? hi]
  refine implementsWith_iff.2 ⟨i, hi, hterms, hvalid, fun m hm => ?_⟩
  rw [hasMethod_interface_iff hwf hi hattached]
  obtain ⟨m', hm'⟩ : ∃ m', t.funcNamed? (t.func m).name i.methodList = some m' :=
    Option.isSome_iff_exists.1 (List.find?_isSome.2 ⟨m, hm, by simp⟩)
  have hname : (t.func m').name = (t.func m).name := by simpa using List.find?_some hm'
  have heq : m' = m := List.inj_on_of_nodup_map hnames (List.mem_of_find?_eq_some hm') hm hname
  exact ⟨m', hm', by rw [heq]; exact identical_self t _⟩

/-! ## Identity -/

/-- Identity is an equivalence. So are the comparisons, as far as they end: `identical` gives their answer, the same answer
comes from the other side, and two comparisons that find types identical add up to a third one. -/
theorem identical_equivalence (t : Table) :
    Equivalence (fun a b => t.identical a b = true) ∧
    (∀ n answer a b, t.identicalWithin n a b = some answer →
      t.identical a b = answer ∧ t.identicalWithin n b a = some answer) ∧
    ∀ n m a b c, t.identicalWithin n a b = some true → t.identicalWithin m b c = some true →
      t.identicalWithin (max n m) a c = some true := by
  refine ⟨⟨identical_self t, identical_symm, identical_trans⟩, ?_, ?_⟩
  · intro n answer a b h
    have hswap : t.identicalWithin n b a = t.identicalWithin n a b := compareWithin_swap n (a, b)
    exact ⟨identical_of_compareWithin (p := (a, b)) h, hswap.trans h⟩
  · intro n m a b c hab hbc
    have hab' : t.compareWithin (max n m) (a, b) = some true := compareWithin_mono (Nat.le_max_left n m) hab
    have hbc' : t.compareWithin (max n m) (b, c) = some true := compareWithin_mono (Nat.le_max_right n m) hbc
    exact compareWithin_trans hab' hbc'

end Table

end UnusedMethods.Types

namespace UnusedMethods.Typing

open UnusedMethods.Types

/-- Interfaces with one method, written in several ways, and a type that gets the method from an embedded field. -/
def closers : String :=
  "package app

type Closer interface \x7b Close() \x7d

type Resource interface \x7b Closer \x7d

type Source = interface \x7b Close() \x7d

type handle struct\x7b\x7d

func (*handle) Close() \x7b\x7d

type File struct\x7b handle \x7d
"

/-- No methods are attached to interfaces, and no interface has two methods of one name. -/
def isOrderly (t : Table) : Bool :=
  (List.range t.types.size).all fun k =>
    match t.get ⟨k⟩ with
    | .named d => !t.isInterface ⟨k⟩ || d.methods.isEmpty
    | .interface i => decide (i.methods.map fun m => (t.func m).name).Nodup
    | _ => true

theorem entry_of_isOrderly {t : Table} (h : isOrderly t = true) (id : TypeId) (hid : t.get id ≠ .invalid) :
    (match t.get id with
      | .named d => !t.isInterface id || d.methods.isEmpty
      | .interface i => decide (i.methods.map fun m => (t.func m).name).Nodup
      | _ => true) = true :=
  List.all_eq_true.1 h id.index (List.mem_range.2 (Table.hasType_of_get_ne_invalid hid))

theorem attached_of_isOrderly {t : Table} (h : isOrderly t = true) (id : TypeId) (d : Named) (hget : t.get id = .named d)
    (hid : t.isInterface id = true) : d.methods = [] := by
  have hentry := entry_of_isOrderly h id (by simp [hget])
  simpa [hget, hid] using hentry

theorem names_of_isOrderly {t : Table} (h : isOrderly t = true) (id : TypeId) (i : Interface)
    (hget : t.get id = .interface i) : (i.methods.map fun m => (t.func m).name).Nodup := by
  have hentry := entry_of_isOrderly h id (by simp [hget])
  simpa [hget] using hentry

theorem closers_checked : (checkText closers).2.identicalWithin 4 ⟨39⟩ ⟨36⟩ = some true ∧
    (checkText closers).2.identicalWithin 5 ⟨36⟩ ⟨38⟩ = some true ∧
    (checkText closers).1.scope.find? "Closer" = some (.typeName ⟨31⟩) ∧
    (checkText closers).1.scope.find? "Resource" = some (.typeName ⟨32⟩) ∧
    (checkText closers).1.scope.find? "File" = some (.typeName ⟨34⟩) ∧
    (checkText closers).2.isPointer ⟨34⟩ = false ∧ (checkText closers).2.isInterface ⟨34⟩ = false ∧
    (checkText closers).2.isInvalid ((checkText closers).2.underlying ⟨34⟩) = false ∧
    32 < (checkText closers).2.types.size ∧ (checkText closers).2.implements ⟨34⟩ ⟨32⟩ = false ∧
    (checkText closers).2.satisfies ⟨34⟩ ⟨32⟩ = true ∧ (checkText closers).2.implements ⟨32⟩ ⟨31⟩ = true ∧
    ((checkText closers).2.interface? ⟨32⟩).map (·.hasTerms) = some false ∧ isOrderly (checkText closers).2 = true := by
  decide +kernel

/-- The interface that embeds another one, the alias and the embedded interface are three entries of the table that are
identical. -/
theorem closers_identical : (checkText closers).2.identicalWithin 4 ⟨39⟩ ⟨36⟩ = some true ∧
    (checkText closers).2.identicalWithin 5 ⟨36⟩ ⟨38⟩ = some true ∧
    (checkText closers).2.identicalWithin 5 ⟨39⟩ ⟨38⟩ = some true ∧
    (checkText closers).2.identical ⟨38⟩ ⟨39⟩ = true := by
  obtain ⟨hab, hbc, -⟩ := closers_checked
  obtain ⟨-, hends, hadd⟩ := Table.identical_equivalence (checkText closers).2
  have hac := hadd 4 5 ⟨39⟩ ⟨36⟩ ⟨38⟩ hab hbc
  exact ⟨hab, hbc, hac, (hends _ _ _ _ (hends _ _ _ _ hac).2).1⟩

/-- A file is closed through a pointer, so it satisfies an interface that the file itself does not implement. -/
theorem file_satisfies : ∃ file target p t, (checkText closers).1.scope.find? "File" = some (.typeName file) ∧
    (checkText closers).1.scope.find? "Resource" = some (.typeName target) ∧
    (Build.pointer file).run (checkText closers).2 = (p, t) ∧ (checkText closers).2.implements file target = false ∧
    t.implements p target = true ∧ (checkText closers).2.satisfies file target = true := by
  obtain ⟨-, -, -, htarget, hfile, hpointer, hinterface, hvalid, hsize, himplements, hsatisfies, -⟩ := closers_checked
  have htarget' : (checkText closers).2.HasType ⟨32⟩ := hsize
  have hall := Table.satisfies_eq_implements_pointer (stage_checkText closers).wf.1 hpointer hinterface hvalid
    Prod.mk.eta.symm htarget'
  exact ⟨⟨34⟩, ⟨32⟩, _, _, hfile, htarget, Prod.mk.eta.symm, himplements, hall.1.symm.trans hsatisfies, hsatisfies⟩

/-- At every stage, if no methods are attached to interfaces and no interface has two methods of one name, each interface
without type terms implements itself, and what implements or satisfies an interface also implements or satisfies all
interfaces that this one implements. -/
theorem satisfaction_composes {t : Table} {packages : Array Package} (hstage : Stage t packages)
    (hattached : ∀ id d, t.get id = .named d → t.isInterface id = true → d.methods = [])
    (hnames : ∀ id i, t.get id = .interface i → (i.methods.map fun m => (t.func m).name).Nodup) :
    (∀ id i, t.interface? id = some i → i.hasTerms = false → t.implements id id = true) ∧
    (∀ id iface target, t.implements id iface = true → t.implements iface target = true →
      t.implements id target = true) ∧
    ∀ id iface target, t.satisfies id iface = true → t.implements iface target = true →
      t.satisfies id target = true := by
  have hwf := hstage.wf.1
  have hplain : ∀ {id i}, t.interface? id = some i → ∀ d, t.get id = .named d → d.methods = [] :=
    fun hi d hget => hattached _ d hget (by rw [Table.isInterface, hi]; rfl)
  have htrans : ∀ {id iface target addressable}, t.implementsWith id iface addressable = true →
      t.implements iface target = true → t.implementsWith id target addressable = true := by
    intro id iface target addressable h h'
    obtain ⟨i, hi, -⟩ := Table.implementsWith_iff.1 h
    exact Table.implementsWith_trans hwf (hplain hi) h h'
  refine ⟨fun id i hi hterms => ?_, fun id iface target h h' => htrans h h', fun id iface target h h' => ?_⟩
  · have hget := Table.get_underlying_of_interface? hi
    refine Table.implements_self hwf hi hterms (hplain hi) ?_
    rw [Interface.methodList, if_pos (hstage.finished.interfaces _ i hget).1]
    exact hnames _ i hget
  · unfold Table.satisfies at h ⊢
    simp only [Bool.or_eq_true, Bool.and_eq_true] at h ⊢
    exact h.imp (fun h => htrans h h') fun h => ⟨h.1, htrans h.2 h'⟩

/-- A file satisfies the interface for closing because it satisfies the one that embeds it. -/
theorem file_satisfies_closer : ∃ file resource closer,
    (checkText closers).1.scope.find? "File" = some (.typeName file) ∧
    (checkText closers).1.scope.find? "Resource" = some (.typeName resource) ∧
    (checkText closers).1.scope.find? "Closer" = some (.typeName closer) ∧
    (checkText closers).2.satisfies file resource = true ∧ (checkText closers).2.implements resource closer = true ∧
    (checkText closers).2.satisfies file closer = true ∧ (checkText closers).2.implements resource resource = true := by
  obtain ⟨-, -, hcloser, hresource, hfile, -, -, -, -, -, hsatisfies, himplements, hinterface, horderly⟩ := closers_checked
  obtain ⟨i, hi, hterms⟩ := Option.map_eq_some_iff.1 hinterface
  have hall := satisfaction_composes (stage_checkText closers) (attached_of_isOrderly horderly) (names_of_isOrderly horderly)
  exact ⟨⟨34⟩, ⟨32⟩, ⟨31⟩, hfile, hresource, hcloser, hsatisfies, himplements, hall.2.2 _ _ _ hsatisfies himplements,
    hall.1 _ i hi hterms⟩

end UnusedMethods.Typing
