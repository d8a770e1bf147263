import UnusedMethods.Proofs.TypeRules

/-!
# Bodies in every logic

By induction on the syntax: in every logic for the steps of a check, there are judgements about expressions, statements
and bodies of functions. Expressions may be checked where no name may be entered, and so may statements that open a scope of
their own.
-/

namespace UnusedMethods.Typing

open Syntax UnusedMethods.Types
open Types.Correspondence.Between (Pairs)
open Logic (covers_append)

variable {L : Logic} {c : Context} {m : Option Level} {w : L.World} {a b : TypeId}

/-! ## Types that are built of other types -/

theorem holds_slicedType (hab : L.types w a b) : L.Holds m w c (liftM (slicedType a)) (liftM (slicedType b)) L.types := by
  refine .liftGet fun w₁ s t hw hst => ?_
  have hab := hw.types hab
  have hget := hst.get (hst.underlying hab)
  have helem := rel_arrayElem? hst.toReads (hst.underlying hab)
  dsimp only
  generalize s.get (s.underlying a) = x at hget
  generalize t.get (t.underlying b) = y at hget
  cases hget with
  | array _ helem => exact L.slice helem
  | pointer _ =>
    dsimp only
    rcases optionRel_cases helem with ⟨hs, ht⟩ | ⟨c, d, hs, ht, hcd⟩ <;> rw [hs, ht]
    · exact .invalid
    · exact L.slice hcd
  | basic kind =>
    cases kind
    case untypedString => exact .basic .string
    all_goals exact .type hab
  | _ => exact .type hab

theorem holds_unaryType (op : String) (hab : L.types w a b) :
    L.Holds m w c (liftM (unaryType op a)) (liftM (unaryType op b)) L.types := by
  refine .liftGet fun w₁ s t hw hst => ?_
  have hab := hw.types hab
  split
  · exact L.pointer hab
  · have hget := hst.get hab
    generalize s.get a = x at hget
    generalize t.get b = y at hget
    cases hget with
    | pointer helem => exact .type helem
    | _ => exact .invalid
  · have hget := hst.get (hst.underlying hab)
    generalize s.get (s.underlying a) = x at hget
    generalize t.get (t.underlying b) = y at hget
    cases hget with
    | chan _ helem => exact .type helem
    | _ => exact .invalid
  · exact .type hab

theorem holds_builtinType (builtin : Builtin) {o o' : Option TypeId} (ho : Option.Rel (L.types w) o o') {as bs : List TypeId}
    (hargs : List.Forall₂ (L.types w) as bs) :
    L.Holds m w c (liftM (builtinType builtin o as)) (liftM (builtinType builtin o' bs)) L.types := by
  have hunit : L.Holds m w c (liftM (Build.push (.tuple []))) (liftM (Build.push (.tuple []))) L.types :=
    L.push (.tuple .nil) rfl
  -- `min` and `max` have the type of their first argument that has one
  have hextremum : L.Holds m w c
      (liftM (do
        let t ← get
        return (as.find? fun type => !isUntyped t type).getD (as.headD .invalid) : Build TypeId))
      (liftM (do
        let t ← get
        return (bs.find? fun type => !isUntyped t type).getD (bs.headD .invalid) : Build TypeId)) L.types := by
    refine .liftGet fun w₁ s t hw hst => .type ?_
    have hargs := hw.typeList hargs
    refine rel_getD (find?_rel (fun a b hab => ?_) hargs) (rel_headD hargs hst.invalid)
    rw [isUntyped_eq hst.toReads hab]
  cases builtin with
  | len => exact .basic .int
  | cap => exact .basic .int
  | copy => exact .basic .int
  | append => exact L.given fun _ _ _ hw hst => .type (rel_headD (hw.typeList hargs) hst.invalid)
  | make => exact .getD ho
  | new =>
    cases ho with
    | none => exact .invalid
    | some hab => exact L.pointer hab
  | complex => exact .basic .complex128
  | real => exact .basic .float64
  | imag => exact .basic .float64
  | recover =>
    exact L.given fun _ _ _ _ hst => .type (hst.predeclared (show TypeId.emptyInterface.index < 31 by decide))
  | min => exact hextremum
  | max => exact hextremum
  | clear => exact hunit
  | close => exact hunit
  | delete => exact hunit
  | panic => exact hunit
  | print => exact hunit
  | println => exact hunit

theorem holds_resultType (hab : L.types w a b) : L.Holds m w c (liftM (resultType a)) (liftM (resultType b)) L.types := by
  refine .liftGet fun w₁ s t hw hst => ?_
  have hsig := hst.signature? (hw.types hab)
  generalize s.signature? a = o at hsig
  generalize t.signature? b = o' at hsig
  cases hsig with
  | none => exact .invalid
  | @some sig sig' hsig =>
    obtain ⟨params, results, variadic⟩ := sig
    obtain ⟨params', results', variadic'⟩ := sig'
    cases hsig.results with
    | nil => exact L.push (.tuple .nil) rfl
    | cons hr hrest =>
      cases hrest with
      | nil => exact .type hr
      | cons hr' hrest => exact L.push (.tuple (.cons hr (.cons hr' hrest))) rfl

/-! ## Selectors -/

theorem holds_selectFromType (id : Nat) (name : String) (hab : L.types w a b) :
    L.Holds m w c (selectFromType id a name) (selectFromType id b name) L.types := by
  refine L.readTable fun w₁ s t hw hst => ?_
  have hab := hw.types hab
  have hlookup := hst.lookup name hab
  generalize s.lookup a name = o at hlookup
  generalize t.lookup b name = o' at hlookup
  cases hlookup with
  | none => exact .invalid
  | @some x y hxy =>
    obtain ⟨member, indirect⟩ := x
    obtain ⟨member', indirect'⟩ := y
    cases hxy.member with
    | field _ => exact .invalid
    | @method f f' hf =>
      have hnote : ∀ {w₂ type type'}, L.Later w₁ w₂ → L.types w₂ type type' → L.Holds m w₂ c
          (do Checking.noteSelection id { kind := .methodExpr, recv := a, method := some f, type }
              return type)
          (do Checking.noteSelection id { kind := .methodExpr, recv := b, method := some f', type := type' }
              return type') L.types :=
        fun hw₂ htype => .andThen (L.noteSelection id ⟨rfl, hw₂.types hab, .some (hw₂.funcs hf), htype⟩ nofun) (.type htype)
      have hsig := hst.signature? (hst.func hf).sig
      dsimp only
      generalize s.signature? (s.func f).sig = sig at hsig
      generalize t.signature? (t.func f').sig = sig' at hsig
      cases hsig with
      | none => exact hnote (L.refl w₁) hst.invalid
      | @some sig sig' hsig =>
        dsimp only
        rw [hsig.variadic]
        exact L.bind (L.push (.signature ⟨.cons hab hsig.params, hsig.results, rfl⟩) rfl) fun _ _ _ hw₂ htype =>
          hnote hw₂ htype

theorem holds_selectFromValue (id : Nat) (name : String) (hab : L.types w a b) :
    L.Holds m w c (selectFromValue id a name) (selectFromValue id b name) L.types := by
  refine L.given fun w₁ s t hw hst => ?_
  have hab := hw.types hab
  refine .ite (hst.eq_iff hab hst.invalid) (fun _ => .invalid) fun _ => L.readTable fun w₂ s t hw₂ hst => ?_
  have hab := hw₂.types hab
  have hlookup := hst.lookup name hab
  generalize s.lookup a name = o at hlookup
  generalize t.lookup b name = o' at hlookup
  cases hlookup with
  | none => exact .invalid
  | @some x y hxy =>
    obtain ⟨member, indirect⟩ := x
    obtain ⟨member', indirect'⟩ := y
    cases hxy.member with
    | field htype => exact .andThen (L.noteSelection id ⟨rfl, hab, .none, htype⟩ nofun) (.type htype)
    | method hf =>
      have hsig := (hst.func hf).sig
      exact .andThen (L.noteSelection id ⟨rfl, hab, .some hf, hsig⟩ nofun) (.type hsig)

theorem holds_packageDenoted? (e : Expr) :
    L.Holds m w c (packageDenoted? e) (packageDenoted? e) fun _ o o' => o' = o := by
  cases e with
  | ident node name =>
    refine L.bind (L.lookup name) fun _ _ _ _ ho => ?_
    cases ho with
    | none => exact L.pure fun _ _ => rfl
    | some hobj => cases hobj <;> exact L.pure fun _ _ => rfl
  | _ => exact L.pure fun _ _ => rfl

theorem holds_builtinDenoted? (e : Expr) :
    L.Holds m w c (builtinDenoted? e) (builtinDenoted? e) fun _ o o' => o' = o := by
  cases e with
  | ident node name =>
    refine L.bind (L.lookup name) fun _ _ _ _ ho => ?_
    cases ho with
    | none => exact L.pure fun _ _ => rfl
    | some hobj => cases hobj <;> exact L.pure fun _ _ => rfl
  | _ => exact L.pure fun _ _ => rfl

theorem holds_noteUse_type (id : Nat) {x y : Object} (hxy : L.objects w x y) :
    L.Holds m w c
      (do Checking.noteUse id x
          Checking.ask x.type)
      (do Checking.noteUse id y
          Checking.ask y.type) L.types :=
  .andThen (L.noteUse id hxy) (.askType fun _ _ _ hw hst => (hw.objects hxy).type hst.toReads)

theorem holds_selectFromPackage (id : Nat) (package : PackageId) (name : String) :
    L.Holds m w c (selectFromPackage id package name) (selectFromPackage id package name) L.types := by
  refine L.bind (L.member package name) fun _ _ _ _ ho => ?_
  cases ho with
  | none => exact .invalid
  | some hobj => exact holds_noteUse_type id hobj

/-! ## Generic functions -/

theorem holds_objectDenoted? (e : Expr) :
    L.Holds m w c (objectDenoted? e) (objectDenoted? e) fun w => Option.Rel (L.objects w) := by
  unfold objectDenoted?
  split
  · exact L.lookup _
  · exact .qualified _ _
  · exact L.pure fun _ _ => .none

theorem holds_funcInstance? (operand : Expr) {args : Checking (List TypeId)}
    (hargs : L.Holds m w c args args fun w => List.Forall₂ (L.types w)) :
    L.Holds m w c (funcInstance? operand args) (funcInstance? operand args) fun w => Option.Rel (L.types w) := by
  refine L.bind (holds_objectDenoted? operand) fun w₁ _ _ hw₁ ho => ?_
  cases ho with
  | none => exact .noType
  | some hobj =>
    cases hobj with
    | @func f g hfg =>
      refine L.bind (.askTypes fun _ _ _ hw hst => (hst.func (hw.funcs hfg)).typeParams) fun w₂ ps qs hw₂ hparams => ?_
      refine .ite (by rw [isEmpty_of_forall₂ hparams]) (fun _ => .noType) fun _ => ?_
      have hfg := hw₂.funcs hfg
      refine .andThen (L.noteUse _ (.func hfg)) ?_
      refine L.bind (L.weaken hargs (L.trans hw₁ hw₂)) fun w₃ _ _ hw₃ hargs => ?_
      refine L.bind (.askType fun _ _ _ hw hst => (hst.func (hw.funcs (hw₃.funcs hfg))).sig) fun w₄ _ _ hw₄ hsig => ?_
      have hzip := forall₂_zip_pairs ((L.trans hw₃ hw₄).typeList hparams) (hw₄.typeList hargs)
      refine L.bind (L.subst hzip hsig) fun _ _ _ _ htype => ?_
      exact .andThen (L.noteType _ htype) (.someType htype)
    | _ => exact .noType

theorem holds_calleeSignature (func : Expr) (hab : L.types w a b) {typeArgs : List TypeExpr}
    (htypeArgs : ∀ x ∈ TypeExpr.funcNamesAll typeArgs, L.Notes c x) {as bs : List TypeId}
    (hargs : List.Forall₂ (L.types w) as bs) :
    L.Holds m w c (calleeSignature func a typeArgs as) (calleeSignature func b typeArgs bs) L.types := by
  refine L.bind (L.useOf? func.id) fun w₁ _ _ hw₁ ho => ?_
  cases ho with
  | none => exact .type (hw₁.types hab)
  | some hobj =>
    cases hobj with
    | @func f g hfg =>
      refine L.bind (Q := fun w => Func.Alike (L.corr w)) (.ask fun w₂ _ _ hw hst w₃ hw' =>
        (hst.func (hw.funcs hfg)).mono (L.grows hw')) fun w₂ f g hw₂ hcallee => L.given fun w₃ s t hw₃ hst => ?_
      have hw₃' := L.trans (L.trans hw₁ hw₂) hw₃
      have hcallee := hcallee.mono (L.grows hw₃)
      have hab := hw₃'.types hab
      -- the callee is generic, and its own signature is what was found
      have hgeneric : (g.typeParams.isEmpty || g.sig != b) = (f.typeParams.isEmpty || f.sig != a) := by
        have hsig : (g.sig != b) = (f.sig != a) := by
          rw [Bool.eq_iff_iff, bne_iff_ne, bne_iff_ne]
          exact not_congr (hst.eq_iff hcallee.sig hab)
        rw [hsig, isEmpty_of_forall₂ hcallee.typeParams]
      refine .ite (by rw [hgeneric]) (fun _ => .type hab) fun _ => ?_
      refine L.bind (holds_resolveTypes typeArgs htypeArgs) fun w₄ explicit explicit' hw₄ hexplicit =>
        L.readTable fun w₅ s t hw₅ hst => ?_
      have hab := hw₅.types (hw₄.types hab)
      have hparams := hw₅.typeList (hw₄.typeList hcallee.typeParams)
      have hzip := forall₂_zip_pairs hparams (hw₅.typeList hexplicit)
      have hbound : List.Forall₂ (Pairs (L.corr w₅))
          ((s.signature? a).elim (f.typeParams.zip explicit) fun sig =>
            unifyArgs s f.typeParams sig as (f.typeParams.zip explicit))
          ((t.signature? b).elim (g.typeParams.zip explicit') fun sig =>
            unifyArgs t g.typeParams sig bs (g.typeParams.zip explicit')) := by
        rcases optionRel_cases (hst.signature? hab) with ⟨hs, ht⟩ | ⟨sig, sig', hs, ht, hsig⟩ <;> rw [hs, ht]
        · exact hzip
        · exact forall₂_unifyArgs hst hparams hsig (hw₅.typeList (hw₄.typeList (hw₃'.typeList hargs))) hzip
      refine L.bind (L.subst hbound hab) fun _ _ _ _ htype => ?_
      exact .andThen (L.noteType _ htype) (.type htype)
    | _ => exact .type (hw₁.types hab)

/-! ## Names -/

theorem holds_bindFields (fs : List Field) {as bs : List TypeId} (htypes : List.Forall₂ (L.types w) as bs)
    (h : ∀ x ∈ fs.flatMap (·.names), L.records x.pos) :
    L.Holds (some .local) w c (bindFields fs as) (bindFields fs bs) fun _ _ _ => True := by
  induction fs generalizing w as bs with
  | nil => exact .done
  | cons f fs ih =>
    obtain ⟨hf, hfs⟩ := List.forall_mem_append.1 h
    refine L.bind (.forMSelf fun p hp w₁ hw₁ => L.given fun w₂ _ _ hw₂ hst => ?_)
      fun w₁ _ _ hw₁ _ => ih (List.forall₂_drop _ (hw₁.typeList htypes)) hfs
    refine .declareLocal (hf _ (List.fst_mem_of_mem_zipIdx hp)) (.var ?_) nofun
    exact rel_getD (rel_getElem? (hw₂.typeList (hw₁.typeList htypes)) p.2) hst.invalid

theorem holds_bindSignature (syn : FuncType) (hab : L.types w a b) (h : ∀ x ∈ syn.boundNames, L.records x.pos) :
    L.Holds (some .local) w c (bindSignature syn a) (bindSignature syn b) fun _ _ _ => True := by
  obtain ⟨hparams, hresults⟩ := List.forall_mem_append.1 h
  refine L.readTable fun w₁ s t hw hst => ?_
  have hsig := hst.signature? (hw.types hab)
  dsimp only
  generalize s.signature? a = o at hsig
  generalize t.signature? b = o' at hsig
  cases hsig with
  | none => exact .done
  | some hsig =>
    exact L.bind (holds_bindFields syn.params hsig.params hparams) fun _ _ _ hw _ =>
      holds_bindFields syn.results (hw.typeList hsig.results) hresults

theorem holds_bindTypeParams (idents : List Ident) {as bs : List TypeId} (hparams : List.Forall₂ (L.types w) as bs) :
    L.Holds (some .local) w c (bindTypeParams idents as) (bindTypeParams idents bs) fun _ _ _ => True := by
  have hzip : List.Forall₂ (fun p q => q.1 = p.1 ∧ L.types w p.2 q.2) (idents.zip as) (idents.zip bs) := by
    induction hparams generalizing idents with
    | nil => simp only [List.zip_nil_right, List.Forall₂.nil]
    | cons hab _ ih =>
      cases idents with
      | nil => exact .nil
      | cons name idents => exact .cons ⟨rfl, hab⟩ (ih idents)
  refine .forM hzip ?_
  rintro ⟨name, a⟩ ⟨_, b⟩ ⟨rfl, hab⟩ w₁ hw₁
  exact .ite .rfl (fun _ => L.defineLocal _ (.typeName (hw₁.types hab))) fun _ => .done

theorem holds_defineIdent (node : Node) (name : String) (hab : L.types w a b) (h : L.records node.pos) :
    L.Holds (some .local) w c (defineIdent node name a) (defineIdent node name b) fun _ _ _ => True := by
  refine .ite .rfl (fun _ => .done) fun _ => L.bind (L.innermost? name) fun _ _ _ hw ho => ?_
  cases ho with
  | none =>
    have hab := hw.types hab
    exact .andThen (L.defineLocal _ (.var hab)) (.andThen (L.noteDef h (.var hab) nofun) (L.noteType _ hab))
  | some hobj =>
    refine .andThen (L.noteUse _ hobj) ?_
    exact L.bind (.askType fun _ _ _ hw hst => (hw.objects hobj).type hst.toReads) fun _ _ _ _ htype => L.noteType _ htype

theorem holds_checkLocalType (spec : TypeSpec) (h : L.Covers c spec.funcNames spec.places) :
    L.Holds (some .local) w c (checkLocalType spec) (checkLocalType spec) fun _ _ _ => True := by
  obtain ⟨hname, hplaces⟩ := List.forall_mem_cons.1 h.places
  have htype := (List.forall_mem_append.1 (Logic.Covers.notes ⟨h.names, hplaces⟩)).2
  refine .ite .rfl (fun _ => ?_) fun _ => L.readContext (L.newNamed fun w₁ a b _ hab hset => ?_)
  · exact L.bind (holds_resolveType spec.type htype) fun _ _ _ _ htype => .declareLocal hname (.typeName htype) nofun
  · refine L.bind (.declareLocal hname (.typeName hab) nofun) fun w₂ _ _ hw₂ _ => ?_
    exact L.bind (holds_resolveType spec.type htype) fun w₃ _ _ hw₃ hrhs => hset (L.trans hw₂ hw₃) hrhs

/-! ## Parts of the induction -/

theorem holds_recorded (e : Expr) {x y : Checking TypeId} (hxy : L.Holds m w c x y L.types) :
    L.Holds m w c (recorded e x) (recorded e y) L.types :=
  L.bind hxy fun _ _ _ _ htype => .andThen (L.noteType _ htype) (.type htype)

theorem holds_denotedOr (e : Expr) {x y : Checking TypeId} (h : L.Covers c e.funcNames e.places)
    (hxy : L.Holds m w c x y L.types) : L.Holds m w c (denotedOr e x) (denotedOr e y) L.types := by
  refine L.bind (holds_typeDenoted? e h) fun w₁ _ _ hw₁ ho => ?_
  cases ho with
  | none => exact L.weaken hxy hw₁
  | some htype => exact .andThen (L.noteUse _ (.typeName htype)) (.type htype)

theorem holds_literalTypes (type : Option TypeExpr) {o o' : Option TypeId} (ho : Option.Rel (L.types w) o o')
    (h : ∀ x ∈ TypeExpr.funcNamesOption type, L.Notes c x) :
    L.Holds m w c (literalTypes type o) (literalTypes type o') fun w p q => L.types w p.1 q.1 ∧ L.types w p.2 q.2 := by
  have hpair : ∀ {w a b a' b'}, L.types w a b → L.types w a' b' → L.Holds m w c (pure (a, a')) (pure (b, b'))
      fun w p q => L.types w p.1 q.1 ∧ L.types w p.2 q.2 :=
    fun hab hab' => L.pure fun _ hw => ⟨hw.types hab, hw.types hab'⟩
  cases type with
  | some type => exact L.bind (holds_resolveType type h) fun _ _ _ _ htype => hpair htype htype
  | none =>
    cases ho with
    | none => exact L.given fun _ _ _ _ hst => hpair hst.invalid hst.invalid
    | some hint =>
      exact L.bind (Q := fun w p q => L.types w p.1 q.1)
        (.ask fun _ _ _ hw hst _ hw' => hw'.types (hst.deref (hw.types hint)).1) fun _ _ _ hw htype =>
        hpair htype (hw.types hint)

theorem holds_repeatConsts (level : Level) (idents : List Ident) {source : Option ValueSpec}
    (h : ∀ s ∈ source, ∀ x ∈ TypeExpr.funcNamesOption s.type, L.Notes c x) (hidents : ∀ x ∈ idents, L.records x.pos)
    (hallows : ∀ x ∈ idents, ∀ id, L.Allows level x (.const id)) :
    L.Holds (some level) w c (repeatConsts level idents source) (repeatConsts level idents source) fun _ _ _ => True := by
  have hsource : ∀ x ∈ TypeExpr.funcNamesOption (source.bind (·.type)), L.Notes c x := by
    cases source with
    | none => exact nofun
    | some s => exact h s rfl
  refine L.bind (holds_resolveOption _ hsource) fun w₁ declared declared' _ hdeclared => ?_
  refine L.bind L.knownTypes fun w₂ typeOf typeOf' hw₂ htypeOf => ?_
  refine .forMSelf fun p hp w₃ hw₃ => L.given fun w₄ _ _ hw₄ hst => ?_
  have hmem := List.fst_mem_of_mem_zipIdx hp
  refine .declare (hidents _ hmem) (.const ?_) nofun (hallows _ hmem _)
  refine rel_getD (hw₄.typeOption (hw₃.typeOption (hw₂.typeOption hdeclared))) (rel_getD ?_ hst.invalid)
  cases (source.elim [] (·.values))[p.2]? with
  | none => exact .none
  | some v => exact hw₄.typeOption (hw₃.typeOption (htypeOf v.id))

/-! ## Expressions and statements -/

mutual

theorem holds_checkExpr (e : Expr) {m : Option Level} {w : L.World} {o o' : Option TypeId}
    (ho : Option.Rel (L.types w) o o') (h : L.Covers c e.funcNames e.places) :
    L.Holds m w c (checkExpr e o) (checkExpr e o') L.types := by
  cases e with
  | ident node name =>
    refine holds_denotedOr _ h (.ite .rfl (fun _ => .invalid) fun _ => ?_)
    refine L.bind (L.lookup name) fun _ _ _ _ hobj => ?_
    cases hobj with
    | none => exact .invalid
    | some hobj => exact holds_noteUse_type node.id hobj
  | lit node kind =>
    cases kind with
    | int => exact .basic .untypedInt
    | float => exact .basic .untypedFloat
    | imag => exact .basic .complex128
    | rune => exact .basic .untypedRune
    | string => exact .basic .untypedString
  | composite node type elems =>
    obtain ⟨htype, helems⟩ := covers_append.1 h
    refine L.bind (holds_literalTypes type ho htype.notes) fun w₁ p q _ hp => L.readTable fun w₂ s t hw₂ hst => ?_
    have hunder := hst.underlying (hw₂.types hp.1)
    have hget := hst.get hunder
    have hhints := rel_elementHints hst.toReads hunder
    have hresult : ∀ {w₃}, L.Later w₂ w₃ → L.Holds m w₃ c (pure p.2) (pure q.2) L.types :=
      fun hw₃ => .type (hw₃.types (hw₂.types hp.2))
    have helements : L.Holds m w₂ c
        (do checkElements (elementHints s (s.underlying p.1)).1 (elementHints s (s.underlying p.1)).2 elems
            return p.2)
        (do checkElements (elementHints t (t.underlying q.1)).1 (elementHints t (t.underlying q.1)).2 elems
            return q.2) L.types :=
      L.bind (holds_checkElements elems hhints.1 hhints.2 helems) fun _ _ _ hw₃ _ => hresult hw₃
    dsimp only
    generalize s.get (s.underlying p.1) = x at hget
    generalize t.get (t.underlying q.1) = y at hget
    cases hget with
    | struct hfields => exact L.bind (holds_checkFieldValues elems 0 hfields helems) fun _ _ _ hw₃ _ => hresult hw₃
    | _ => exact helements
  | funcLit node sig body =>
    obtain ⟨hsig, hbound, hbody⟩ := Logic.covers_funcLit h
    refine L.bind (holds_resolveSignature sig hsig) fun _ _ _ _ htype => ?_
    refine L.bind (L.inScope (.andThen (holds_bindSignature sig htype hbound) (L.inScope (holds_checkStmts body hbody))))
      fun _ _ _ hw _ => .type (hw.types htype)
  | selector node operand field =>
    refine holds_denotedOr _ h (L.bind (holds_packageDenoted? operand) ?_)
    rintro w₂ _ package? _ rfl
    cases package? with
    | some package =>
      exact .andThen (L.noteUse _ (.package package)) (holds_selectFromPackage node.id package field.name)
    | none =>
      refine L.bind (holds_typeDenoted? operand h) fun _ _ _ _ hrecv => ?_
      cases hrecv with
      | some hrecv =>
        exact .andThen (L.noteUse _ (.typeName hrecv))
          (.andThen (L.noteType _ hrecv) (holds_selectFromType node.id field.name hrecv))
      | none =>
        exact L.bind (holds_recorded operand (holds_checkExpr operand .none h)) fun _ _ _ _ hrecv =>
          holds_selectFromValue node.id field.name hrecv
  | call node func typeArgs args spread =>
    obtain ⟨hfunc, hrest⟩ := covers_append.1 h
    obtain ⟨htypeArgs, hargs⟩ := covers_append.1 hrest
    refine L.bind (holds_typeDenoted? func hfunc) fun _ _ _ _ htype => ?_
    cases htype with
    | some htype =>
      refine .andThen (L.noteUse _ (.typeName htype)) (.andThen (L.noteType _ htype) ?_)
      exact L.bind (holds_checkExprs args .none hargs) fun _ _ _ hw _ => .type (hw.types htype)
    | none =>
      refine L.bind (holds_builtinDenoted? func) ?_
      rintro w₂ _ b? _ rfl
      cases b? with
      | some b => exact .andThen (L.noteUse _ (.builtin b)) (holds_checkBuiltin b args hargs)
      | none =>
        refine L.bind (holds_recorded func (holds_checkExpr func .none hfunc)) fun _ _ _ _ htype => ?_
        refine L.bind (holds_checkExprs args .none hargs) fun _ _ _ hw hargs => ?_
        exact L.bind (holds_calleeSignature func (hw.types htype) htypeArgs.notes hargs) fun _ _ _ _ hsig =>
          holds_resultType hsig
  | index node operand index =>
    obtain ⟨hoperand, hindex⟩ := covers_append.1 h
    refine holds_denotedOr _ h (L.bind (holds_funcInstance? operand ?_) fun _ _ _ _ htype => ?_)
    · exact L.bind (holds_typeDenoted? index hindex) fun _ _ _ _ harg =>
        L.pure fun _ hw => forall₂_toList (hw.typeOption harg)
    cases htype with
    | some htype => exact .type htype
    | none =>
      refine L.bind (holds_recorded operand (holds_checkExpr operand .none hoperand)) fun _ _ _ _ htype => ?_
      refine L.bind (holds_recorded index (holds_checkExpr index .none hindex)) fun _ _ _ hw _ => ?_
      exact .askType fun _ _ _ hw' hst => rel_indexedType hst.toReads (hw'.types (hw.types htype))
  | instantiate node operand args =>
    obtain ⟨-, hargs⟩ := covers_append.1 h
    refine holds_denotedOr _ h ?_
    exact L.bind (holds_funcInstance? operand (holds_resolveTypes args hargs.notes)) fun _ _ _ _ htype => .getD htype
  | slice node operand parts =>
    obtain ⟨hoperand, hparts⟩ := covers_append.1 h
    refine L.bind (holds_recorded operand (holds_checkExpr operand .none hoperand)) fun _ _ _ _ htype => ?_
    exact L.bind (holds_checkExprs parts .none hparts) fun _ _ _ hw _ => holds_slicedType (hw.types htype)
  | typeAssert node operand type =>
    obtain ⟨hoperand, htype⟩ := covers_append.1 h
    exact .andThen (holds_recorded operand (holds_checkExpr operand .none hoperand)) (holds_resolveType type htype.notes)
  | conversion node type operand =>
    obtain ⟨htype, hoperand⟩ := covers_append.1 h
    exact .andThen (holds_recorded operand (holds_checkExpr operand .none hoperand)) (holds_resolveType type htype.notes)
  | unary node op operand =>
    refine holds_denotedOr _ h ?_
    exact L.bind (holds_recorded operand (holds_checkExpr operand .none h)) fun _ _ _ _ htype => holds_unaryType op htype
  | binary node op left right =>
    obtain ⟨hleft, hright⟩ := covers_append.1 h
    refine L.bind (holds_recorded left (holds_checkExpr left .none hleft)) fun _ _ _ _ hl => ?_
    refine L.bind (holds_recorded right (holds_checkExpr right .none hright)) fun _ _ _ hw hr => ?_
    exact .askType fun _ _ _ hw' hst => rel_binaryType hst.toReads op (hw'.types (hw.types hl)) (hw'.types hr)
  | paren node inner => exact holds_denotedOr _ h (holds_recorded inner (holds_checkExpr inner ho h))
  | type node type => exact holds_denotedOr _ h .invalid
termination_by structural e

theorem holds_checkExprs (es : List Expr) {m : Option Level} {w : L.World} {o o' : Option TypeId}
    (ho : Option.Rel (L.types w) o o') (h : L.Covers c (Expr.funcNamesAll es) (Expr.placesAll es)) :
    L.Holds m w c (checkExprs o es) (checkExprs o' es) fun w => List.Forall₂ (L.types w) := by
  cases es with
  | nil => exact L.pure fun _ _ => .nil
  | cons e es =>
    obtain ⟨he, hes⟩ := covers_append.1 h
    refine L.bind (holds_recorded e (holds_checkExpr e ho he)) fun _ _ _ hw htype => ?_
    exact L.bind (holds_checkExprs es (hw.typeOption ho) hes) fun _ _ _ hw' htypes => .types (.cons (hw'.types htype) htypes)
termination_by structural es

theorem holds_checkOptionalExpr (e : Option Expr) {m : Option Level} {w : L.World}
    (h : L.Covers c (Expr.funcNamesOption e) (Expr.placesOption e)) :
    L.Holds m w c (checkOptionalExpr e) (checkOptionalExpr e) fun _ _ _ => True := by
  cases e with
  | none => exact .done
  | some e => exact .discard (holds_recorded e (holds_checkExpr e .none h))
termination_by structural e

theorem holds_checkValues (n : Nat) (es : List Expr) {m : Option Level} {w : L.World} {o o' : Option TypeId}
    (ho : Option.Rel (L.types w) o o') (h : L.Covers c (Expr.funcNamesAll es) (Expr.placesAll es)) :
    L.Holds m w c (checkValues n o es) (checkValues n o' es) fun w => List.Forall₂ (L.types w) := by
  match es with
  | [] => exact L.pure fun _ _ => .nil
  | [e] =>
    obtain ⟨he, -⟩ := covers_append.1 h
    unfold checkValues
    refine .ite .rfl (fun _ => ?_) fun _ => ?_
    · exact L.bind (holds_recorded e (holds_checkExpr e .none he)) fun _ _ _ _ htype =>
        .askTypes fun _ _ _ hw hst => forall₂_spreadTypes hst.toReads n (hw.types htype)
    · exact L.bind (holds_recorded e (holds_checkExpr e ho he)) fun _ _ _ _ htype => .types (.cons htype .nil)
  | d :: e :: es =>
    obtain ⟨hd, hrest⟩ := covers_append.1 h
    obtain ⟨he, hes⟩ := covers_append.1 hrest
    refine L.bind (holds_recorded d (holds_checkExpr d ho hd)) fun _ _ _ hw₁ hfirst => ?_
    have ho := hw₁.typeOption ho
    refine L.bind (holds_recorded e (holds_checkExpr e ho he)) fun _ _ _ hw₂ hsecond => ?_
    exact L.bind (holds_checkExprs es (hw₂.typeOption ho) hes) fun _ _ _ hw₃ htypes =>
      .types (.cons (hw₃.types (hw₂.types hfirst)) (.cons (hw₃.types hsecond) htypes))
termination_by structural es

theorem holds_checkBuiltin (b : Builtin) (es : List Expr) {m : Option Level} {w : L.World}
    (h : L.Covers c (Expr.funcNamesAll es) (Expr.placesAll es)) :
    L.Holds m w c (checkBuiltin b es) (checkBuiltin b es) L.types := by
  cases es with
  | nil => exact holds_builtinType b .none .nil
  | cons e es =>
    obtain ⟨he, hes⟩ := covers_append.1 h
    refine L.bind (holds_typeDenoted? e he) fun w₁ denoted denoted' _ hdenoted => ?_
    have hvalue : L.Holds m w₁ c
        (do let first ← recorded e (checkExpr e none)
            builtinType b denoted (first :: (← checkExprs none es)))
        (do let first ← recorded e (checkExpr e none)
            builtinType b denoted' (first :: (← checkExprs none es))) L.types := by
      refine L.bind (holds_recorded e (holds_checkExpr e .none he)) fun _ _ _ hw hfirst => ?_
      exact L.bind (holds_checkExprs es .none hes) fun _ _ _ hw' htypes =>
        holds_builtinType b (hw'.typeOption (hw.typeOption hdenoted)) (.cons (hw'.types hfirst) htypes)
    cases hdenoted with
    | none => exact hvalue
    | some htype =>
      cases b.takesType with
      | false => exact hvalue
      | true =>
        refine .andThen (L.noteUse _ (.typeName htype)) (.andThen (L.noteType _ htype) ?_)
        exact L.bind (holds_checkExprs es .none hes) fun _ _ _ hw htypes =>
          holds_builtinType b (.some (hw.types htype)) htypes
termination_by structural es

theorem holds_checkElements (es : List Element) {m : Option Level} {w : L.World} {key key' value value' : Option TypeId}
    (hkey : Option.Rel (L.types w) key key') (hvalue : Option.Rel (L.types w) value value')
    (h : L.Covers c (Element.funcNamesAll es) (Element.placesAll es)) :
    L.Holds m w c (checkElements key value es) (checkElements key' value' es) fun _ _ _ => True := by
  match es with
  | [] => exact .done
  | ⟨none, v⟩ :: es =>
    obtain ⟨hv, hes⟩ := covers_append.1 (covers_append.1 h).2
    exact L.bind (holds_recorded v (holds_checkExpr v hvalue hv)) fun _ _ _ hw _ =>
      holds_checkElements es (hw.typeOption hkey) (hw.typeOption hvalue) hes
  | ⟨some e, v⟩ :: es =>
    obtain ⟨he, hrest⟩ := covers_append.1 h
    obtain ⟨hv, hes⟩ := covers_append.1 hrest
    refine L.bind (holds_recorded e (holds_checkExpr e hkey he)) fun _ _ _ hw _ => ?_
    have hkey := hw.typeOption hkey
    have hvalue := hw.typeOption hvalue
    exact L.bind (holds_recorded v (holds_checkExpr v hvalue hv)) fun _ _ _ hw _ =>
      holds_checkElements es (hw.typeOption hkey) (hw.typeOption hvalue) hes
termination_by structural es

theorem holds_checkFieldValues (es : List Element) {m : Option Level} {w : L.World} (i : Nat)
    {fs gs : List Types.StructField} (hfields : List.Forall₂ (StructField.Alike (L.corr w)) fs gs)
    (h : L.Covers c (Element.funcNamesAll es) (Element.placesAll es)) :
    L.Holds m w c (checkFieldValues fs i es) (checkFieldValues gs i es) fun _ _ _ => True := by
  match es with
  | [] => exact .done
  | ⟨key, value⟩ :: es =>
    obtain ⟨-, hrest⟩ := covers_append.1 h
    obtain ⟨hvalue, hes⟩ := covers_append.1 hrest
    exact L.bind (holds_recorded value (holds_checkExpr value (rel_fieldHint hfields i key) hvalue)) fun _ _ _ hw _ =>
      holds_checkFieldValues es (i + 1) (hfields.imp fun _ _ h => h.mono (L.grows hw)) hes
termination_by structural es

theorem holds_checkStmt (s : Stmt) {m : Option Level} {w : L.World} (hm : s.opensScope = false → m = some .local)
    (h : L.Covers c s.funcNames s.places) : L.Holds m w c (checkStmt s) (checkStmt s) fun _ _ _ => True := by
  cases s with
  | decl d =>
    obtain rfl := hm rfl
    exact holds_checkLocalDecl d h
  | define lhs rhs =>
    obtain rfl := hm rfl
    obtain ⟨hlhs, hrhs⟩ := covers_append.1 h
    exact L.bind (holds_checkValues lhs.length rhs .none hrhs) fun _ _ _ _ htypes => holds_defineAll lhs htypes hlhs
  | assign lhs rhs =>
    obtain ⟨hlhs, hrhs⟩ := covers_append.1 h
    exact .andThen (holds_checkExprs lhs .none hlhs) (.discard (holds_checkValues lhs.length rhs .none hrhs))
  | expr e => exact .discard (holds_recorded e (holds_checkExpr e .none h))
  | incDec e => exact .discard (holds_recorded e (holds_checkExpr e .none h))
  | go e => exact .discard (holds_recorded e (holds_checkExpr e .none h))
  | defer e => exact .discard (holds_recorded e (holds_checkExpr e .none h))
  | send chan value =>
    obtain ⟨hchan, hvalue⟩ := covers_append.1 h
    exact .andThen (holds_recorded chan (holds_checkExpr chan .none hchan))
      (.discard (holds_recorded value (holds_checkExpr value .none hvalue)))
  | «return» values => exact .discard (holds_checkExprs values .none h)
  | block body => exact L.inScope (holds_checkStmts body h)
  | «if» init cond body orElse =>
    obtain ⟨hinit, hrest⟩ := covers_append.1 h
    obtain ⟨hcond, hrest⟩ := covers_append.1 hrest
    obtain ⟨hbody, hrest⟩ := covers_append.1 hrest
    refine L.inScope (.andThen (holds_checkOptionalStmt init hinit) ?_)
    refine .andThen (holds_recorded cond (holds_checkExpr cond .none hcond)) ?_
    exact .andThen (L.inScope (holds_checkStmts body hbody)) (holds_checkOptionalStmt orElse hrest)
  | «for» init cond post body =>
    obtain ⟨hinit, hrest⟩ := covers_append.1 h
    obtain ⟨hcond, hrest⟩ := covers_append.1 hrest
    obtain ⟨hpost, hbody⟩ := covers_append.1 hrest
    refine L.inScope (.andThen (holds_checkOptionalStmt init hinit) (.andThen (holds_checkOptionalExpr cond hcond) ?_))
    exact .andThen (holds_checkOptionalStmt post hpost) (L.inScope (holds_checkStmts body hbody))
  | range vars define subject body =>
    obtain ⟨hvars, hrest⟩ := covers_append.1 h
    obtain ⟨hsubject, hbody⟩ := covers_append.1 hrest
    refine L.inScope (L.bind (holds_recorded subject (holds_checkExpr subject .none hsubject)) fun _ _ _ _ htype => ?_)
    refine L.bind (Q := fun w p q => L.types w p.1 q.1 ∧ L.types w p.2 q.2) (.ask fun _ _ _ hw hst _ hw' => ?_)
      fun _ _ _ _ htypes => ?_
    · obtain ⟨hkey, hvalue⟩ := rel_rangeTypes hst.toReads (hw.types htype)
      exact ⟨hw'.types hkey, hw'.types hvalue⟩
    · exact .andThen (holds_checkRangeVars define vars (.cons htypes.1 (.cons htypes.2 .nil)) hvars)
        (L.inScope (holds_checkStmts body hbody))
  | switch init tag clauses =>
    obtain ⟨hinit, hrest⟩ := covers_append.1 h
    obtain ⟨htag, hclauses⟩ := covers_append.1 hrest
    refine L.inScope (.andThen (holds_checkOptionalStmt init hinit) ?_)
    exact .andThen (holds_checkOptionalExpr tag htag) (holds_checkCaseClauses clauses hclauses)
  | typeSwitch init binding subject clauses =>
    obtain ⟨hinit, hrest⟩ := covers_append.1 h
    obtain ⟨hbinding, hrest⟩ := hrest.declared
    obtain ⟨hsubject, hclauses⟩ := covers_append.1 hrest
    refine L.inScope (.andThen (holds_checkOptionalStmt init hinit) ?_)
    exact L.bind (holds_recorded subject (holds_checkExpr subject .none hsubject)) fun _ _ _ _ htype =>
      holds_checkTypeClauses binding clauses htype hbinding hclauses
  | select clauses => exact holds_checkCommClauses clauses h
  | labeled inner => exact holds_checkStmt inner hm h
  | branch => exact .done
  | empty => exact .done
termination_by structural s

theorem holds_checkStmts (ss : List Stmt) {w : L.World} (h : L.Covers c (Stmt.funcNamesAll ss) (Stmt.placesAll ss)) :
    L.Holds (some .local) w c (checkStmts ss) (checkStmts ss) fun _ _ _ => True := by
  cases ss with
  | nil => exact .done
  | cons s ss =>
    obtain ⟨hs, hss⟩ := covers_append.1 h
    exact .andThen (holds_checkStmt s (fun _ => rfl) hs) (holds_checkStmts ss hss)
termination_by structural ss

theorem holds_checkOptionalStmt (s : Option Stmt) {w : L.World}
    (h : L.Covers c (Stmt.funcNamesOption s) (Stmt.placesOption s)) :
    L.Holds (some .local) w c (checkOptionalStmt s) (checkOptionalStmt s) fun _ _ _ => True := by
  cases s with
  | none => exact .done
  | some s => exact holds_checkStmt s (fun _ => rfl) h
termination_by structural s

theorem holds_defineAll (es : List Expr) {w : L.World} {as bs : List TypeId} (htypes : List.Forall₂ (L.types w) as bs)
    (h : L.Covers c (Expr.funcNamesAll es) (Expr.definedPlaces es)) :
    L.Holds (some .local) w c (defineAll es as) (defineAll es bs) fun _ _ _ => True := by
  match es with
  | [] => exact .done
  | e :: es =>
    refine L.bind (.askType fun _ _ _ hw hst =>
      rel_inferredType hst.toReads (rel_headD (hw.typeList htypes) hst.invalid)) fun w₁ _ _ hw₁ htype => ?_
    have htail := fun {w₂} (hw₂ : L.Later w₁ w₂) => forall₂_tail (hw₂.typeList (hw₁.typeList htypes))
    cases e with
    | ident node name =>
      obtain ⟨hnode, hplaces⟩ := List.forall_mem_cons.1 h.places
      exact L.bind (holds_defineIdent node name htype hnode) fun _ _ _ hw₂ _ =>
        holds_defineAll es (htail hw₂) ⟨h.names, hplaces⟩
    | _ =>
      obtain ⟨he, hes⟩ := covers_append.1 h
      exact L.bind (holds_recorded _ (holds_checkExpr _ .none he)) fun _ _ _ hw₂ _ => holds_defineAll es (htail hw₂) hes
termination_by structural es

theorem holds_checkRangeVars (define : Bool) (es : List Expr) {w : L.World} {as bs : List TypeId}
    (htypes : List.Forall₂ (L.types w) as bs) (h : L.Covers c (Expr.funcNamesAll es) (Expr.definedPlaces es)) :
    L.Holds (some .local) w c (checkRangeVars define es as) (checkRangeVars define es bs) fun _ _ _ => True := by
  match es with
  | [] => exact .done
  | e :: es =>
    cases htypes with
    | nil => exact .done
    | cons htype htypes =>
      cases e with
      | ident node name =>
        obtain ⟨hnode, hplaces⟩ := List.forall_mem_cons.1 h.places
        have hrest := fun {w₂} (hw₂ : L.Later w w₂) =>
          holds_checkRangeVars define es (hw₂.typeList htypes) ⟨h.names, hplaces⟩
        cases define with
        | true => exact L.bind (holds_defineIdent node name htype hnode) fun _ _ _ hw₂ _ => hrest hw₂
        | false =>
          have hident : L.Covers c (Expr.ident node name).funcNames (Expr.ident node name).places := ⟨nofun, nofun⟩
          exact L.bind (holds_recorded _ (holds_checkExpr (.ident node name) .none hident)) fun _ _ _ hw₂ _ => hrest hw₂
      | _ =>
        obtain ⟨he, hes⟩ := covers_append.1 h
        cases define <;> exact L.bind (holds_recorded _ (holds_checkExpr _ .none he)) fun _ _ _ hw₂ _ =>
          holds_checkRangeVars _ es (hw₂.typeList htypes) hes
termination_by structural es

theorem holds_checkCaseClauses (cs : List CaseClause) {m : Option Level} {w : L.World}
    (h : L.Covers c (CaseClause.funcNamesAll cs) (CaseClause.placesAll cs)) :
    L.Holds m w c (checkCaseClauses cs) (checkCaseClauses cs) fun _ _ _ => True := by
  match cs with
  | [] => exact .done
  | ⟨values, body⟩ :: cs =>
    obtain ⟨hvalues, hrest⟩ := covers_append.1 h
    obtain ⟨hbody, hcs⟩ := covers_append.1 hrest
    refine .andThen (holds_checkExprs values .none hvalues) ?_
    exact .andThen (L.inScope (holds_checkStmts body hbody)) (holds_checkCaseClauses cs hcs)
termination_by structural cs

theorem holds_checkTypeClauses (binding : Option Ident) (cs : List TypeClause) {m : Option Level} {w : L.World}
    {a b : TypeId} (hab : L.types w a b) (hbinding : ∀ x ∈ binding.toList, L.records x.pos)
    (h : L.Covers c (TypeClause.funcNamesAll cs) (TypeClause.placesAll cs)) :
    L.Holds m w c (checkTypeClauses binding a cs) (checkTypeClauses binding b cs) fun _ _ _ => True := by
  match cs with
  | [] => exact .done
  | ⟨types, body⟩ :: cs =>
    obtain ⟨htypes, hrest⟩ := covers_append.1 h
    obtain ⟨hbody, hcs⟩ := covers_append.1 hrest
    refine L.bind (holds_resolveTypes types htypes.notes) fun w₁ as bs hw₁ htypes => ?_
    have hab := hw₁.types hab
    refine L.bind (Q := fun _ _ _ => True) (L.inScope ?_)
      fun _ _ _ hw₂ _ => holds_checkTypeClauses binding cs (hw₂.types hab) hbinding hcs
    cases binding with
    | none => exact holds_checkStmts body hbody
    | some name =>
      refine L.given fun w₂ s t hw₂ hst => ?_
      have hab := hw₂.types hab
      -- the binding has the type of the clause if that is a single valid one
      refine .andThen (.declareLocal (hbinding name (by simp)) (.var ?_) nofun) (holds_checkStmts body hbody)
      cases htypes with
      | nil => exact hab
      | cons hhead hrest =>
        cases hrest with
        | cons _ _ => exact hab
        | nil =>
          have hhead := hw₂.types hhead
          dsimp only
          simp only [hst.eq_iff hhead hst.invalid]
          split
          · exact hab
          · exact hhead
termination_by structural cs

theorem holds_checkCommClauses (cs : List CommClause) {m : Option Level} {w : L.World}
    (h : L.Covers c (CommClause.funcNamesAll cs) (CommClause.placesAll cs)) :
    L.Holds m w c (checkCommClauses cs) (checkCommClauses cs) fun _ _ _ => True := by
  match cs with
  | [] => exact .done
  | ⟨comm, body⟩ :: cs =>
    obtain ⟨hcomm, hrest⟩ := covers_append.1 h
    obtain ⟨hbody, hcs⟩ := covers_append.1 hrest
    exact .andThen (L.inScope (.andThen (holds_checkOptionalStmt comm hcomm) (holds_checkStmts body hbody)))
      (holds_checkCommClauses cs hcs)
termination_by structural cs

theorem holds_checkLocalDecl (d : Decl) {w : L.World} (h : L.Covers c d.funcNames d.places) :
    L.Holds (some .local) w c (checkLocalDecl d) (checkLocalDecl d) fun _ _ _ => True := by
  cases d with
  | var specs => exact holds_checkVarSpecs .local specs h fun _ _ _ _ _ => nofun
  | const specs => exact holds_checkConstSpecs .local specs h nofun fun _ _ _ _ _ => nofun
  | type specs =>
    refine .forMSelf fun spec hspec _ _ => holds_checkLocalType spec ⟨fun x hx => ?_, fun p hp => ?_⟩
    · exact h.names x (List.mem_flatMap.2 ⟨spec, hspec, hx⟩)
    · exact h.places p (List.mem_flatMap.2 ⟨spec, hspec, hp⟩)
termination_by structural d

theorem holds_checkVarSpec (level : Level) (spec : ValueSpec) {w : L.World} (h : L.Covers c spec.funcNames spec.places)
    (hallows : ∀ x ∈ spec.names, ∀ id, L.Allows level x (.var id)) :
    L.Holds (some level) w c (checkVarSpec level spec) (checkVarSpec level spec) fun _ _ _ => True := by
  match spec with
  | ⟨pos, idents, type, values⟩ =>
    obtain ⟨hidents, hrest⟩ := h.declared
    obtain ⟨htype, hvalues⟩ := covers_append.1 hrest
    refine L.bind (holds_resolveOption type htype.notes) fun w₁ _ _ _ hdeclared => ?_
    refine L.bind (holds_checkValues idents.length values hdeclared hvalues) fun w₂ _ _ hw₂ htypes => ?_
    refine .forMSelf fun p hp w₃ hw₃ => ?_
    have hmem := List.fst_mem_of_mem_zipIdx hp
    refine L.bind (.askType fun _ _ _ hw hst => rel_inferredType hst.toReads
      (rel_getD (rel_getElem? (hw.typeList (hw₃.typeList htypes)) p.2) hst.invalid)) fun w₄ _ _ hw₄ hinferred => ?_
    refine .declare (hidents _ hmem) (.var (rel_getD ?_ hinferred)) nofun (hallows _ hmem _)
    exact hw₄.typeOption (hw₃.typeOption (hw₂.typeOption hdeclared))
termination_by structural spec

theorem holds_checkVarSpecs (level : Level) (ss : List ValueSpec) {w : L.World}
    (h : L.Covers c (ValueSpec.funcNamesAll ss) (ValueSpec.placesAll ss))
    (hallows : ∀ s ∈ ss, ∀ x ∈ s.names, ∀ id, L.Allows level x (.var id)) :
    L.Holds (some level) w c (checkVarSpecs level ss) (checkVarSpecs level ss) fun _ _ _ => True := by
  cases ss with
  | nil => exact .done
  | cons s ss =>
    obtain ⟨hs, hss⟩ := covers_append.1 h
    obtain ⟨hallows, hallows'⟩ := List.forall_mem_cons.1 hallows
    exact .andThen (holds_checkVarSpec level s hs hallows) (holds_checkVarSpecs level ss hss hallows')
termination_by structural ss

theorem holds_checkConstSpecs (level : Level) (ss : List ValueSpec) {last : Option ValueSpec} {w : L.World}
    (h : L.Covers c (ValueSpec.funcNamesAll ss) (ValueSpec.placesAll ss))
    (hlast : ∀ s ∈ last, ∀ x ∈ TypeExpr.funcNamesOption s.type, L.Notes c x)
    (hallows : ∀ s ∈ ss, ∀ x ∈ s.names, ∀ id, L.Allows level x (.const id)) :
    L.Holds (some level) w c (checkConstSpecs level last ss) (checkConstSpecs level last ss) fun _ _ _ => True := by
  match ss with
  | [] => exact .done
  | ⟨pos, idents, type, values⟩ :: ss =>
    obtain ⟨hs, hss⟩ := covers_append.1 h
    obtain ⟨hidents, hs⟩ := hs.declared
    obtain ⟨htype, hvalues⟩ := covers_append.1 hs
    obtain ⟨hallows, hallows'⟩ := List.forall_mem_cons.1 hallows
    unfold checkConstSpecs
    refine .ite .rfl (fun _ => ?_) fun _ => ?_
    · exact .andThen (holds_repeatConsts level idents hlast hidents hallows) (holds_checkConstSpecs level ss hss hlast hallows')
    · refine L.bind (holds_resolveOption type htype.notes) fun _ _ _ _ hdeclared => ?_
      refine .andThen (holds_checkConstValues level idents values hdeclared hvalues hidents hallows)
        (holds_checkConstSpecs level ss hss (fun s hs => ?_) hallows')
      cases hs
      exact htype.notes
termination_by structural ss

theorem holds_checkConstValues (level : Level) (idents : List Ident) (es : List Expr) {w : L.World} {o o' : Option TypeId}
    (ho : Option.Rel (L.types w) o o') (h : L.Covers c (Expr.funcNamesAll es) (Expr.placesAll es))
    (hidents : ∀ x ∈ idents, L.records x.pos) (hallows : ∀ x ∈ idents, ∀ id, L.Allows level x (.const id)) :
    L.Holds (some level) w c (checkConstValues level o idents es) (checkConstValues level o' idents es)
      fun _ _ _ => True := by
  match idents, es with
  | idents, [] =>
    unfold checkConstValues
    refine .forMSelf fun name hname w₁ hw₁ => L.given fun w₂ _ _ hw₂ hst => ?_
    refine .declare (hidents name hname) (.const ?_) nofun (hallows name hname _)
    exact rel_getD (hw₂.typeOption (hw₁.typeOption ho)) hst.invalid
  | [], _ :: _ => exact .done
  | name :: idents, e :: es =>
    obtain ⟨he, hes⟩ := covers_append.1 h
    obtain ⟨hname, hidents⟩ := List.forall_mem_cons.1 hidents
    obtain ⟨hallows, hallows'⟩ := List.forall_mem_cons.1 hallows
    refine L.bind (holds_recorded e (holds_checkExpr e .none he)) fun w₁ _ _ hw₁ htype => ?_
    have ho := hw₁.typeOption ho
    exact L.bind (.declare hname (.const (rel_getD ho htype)) nofun (hallows _)) fun _ _ _ hw₂ _ =>
      holds_checkConstValues level idents es (hw₂.typeOption ho) hes hidents hallows'
termination_by structural es

end

/-! ## Bodies -/

theorem Logic.Covers.ofBody {f : FuncDecl} {body : List Stmt} (hbody : f.body = some body)
    (hnames : ∀ x ∈ f.body.elim [] Stmt.funcNamesAll, L.declares c x) (hplaces : f.PlacesHave L.records) :
    L.Covers c (Stmt.funcNamesAll body) (Stmt.placesAll body) := by
  have hplaces := hplaces.body
  rw [hbody] at hnames hplaces
  exact ⟨hnames, hplaces⟩

theorem holds_checkFunc (f : FuncDecl) {id id' : FuncId} (hid : L.funcs w id id')
    (hnames : ∀ x ∈ f.body.elim [] Stmt.funcNamesAll, L.declares c x) (hplaces : ∀ p ∈ f.places, L.records p) :
    L.Holds m w c (checkFunc f id) (checkFunc f id') fun _ _ _ => True := by
  have hparts := FuncDecl.forall_mem_places hplaces
  unfold checkFunc
  cases hstmts : f.body with
  | none => exact .done
  | some body =>
    have hbody := Logic.Covers.ofBody hstmts hnames hparts
    refine L.inScope (L.bind (Q := fun w => Func.Alike (L.corr w)) (.ask fun _ _ _ hw hst _ hw' =>
      (hst.func (hw.funcs hid)).mono (L.grows hw')) fun w₁ _ _ _ hfunc => ?_)
    refine L.bind (holds_bindTypeParams _ hfunc.typeParams) fun _ _ _ hw₂ _ => ?_
    exact .andThen (holds_bindSignature f.sig (hw₂.types hfunc.sig) hparts.bound) (L.inScope (holds_checkStmts body hbody))

structure Receiver.Alike (k : Correspondence) (r r' : Receiver) : Prop where
  owner : k.types r.owner r'.owner
  isPointer : r'.isPointer = r.isPointer
  typeParams : r'.typeParams = r.typeParams

theorem holds_receiver? (type : TypeExpr) :
    L.Holds m w c (receiver? type) (receiver? type) fun w => Option.Rel (Receiver.Alike (L.corr w)) := by
  have hnone : ∀ {w}, L.Holds m w c (pure none) (pure none) fun w => Option.Rel (Receiver.Alike (L.corr w)) :=
    L.pure fun _ _ => .none
  unfold receiver?
  split
  rename_i inner isPointer _
  split
  · exact hnone
  · rename_i name typeParams _
    refine L.bind (L.packageLevel? name.name) fun _ _ _ _ ho => ?_
    cases ho with
    | none => exact hnone
    | some hobj =>
      cases hobj with
      | typeName howner =>
        refine L.bind (Q := fun _ declared declared' => declared' = declared)
          (.ask fun _ _ _ hw hst _ _ => isSome_of_optionRel (hst.named? (hw.types howner))) ?_
        rintro w₂ _ declared hw₂ rfl
        cases declared with
        | false => exact hnone
        | true => exact L.pure fun _ hw => .some ⟨hw.types (hw₂.types howner), rfl, rfl⟩
      | _ => exact hnone

theorem holds_checkMethod {f : AttachedMethod} (hid : L.funcs w f.id f.id) (howner : L.types w f.owner f.owner)
    (hnames : ∀ x ∈ f.decl.body.elim [] Stmt.funcNamesAll, L.declares c x)
    (hplaces : ∀ p ∈ f.decl.places, L.records p) (hrecv : ∀ x ∈ f.recv.names, L.records x.pos) :
    L.Holds m w c (checkMethod f) (checkMethod f) fun _ _ _ => True := by
  have hparts := FuncDecl.forall_mem_places hplaces
  unfold checkMethod
  cases hstmts : f.decl.body with
  | none => exact .done
  | some body =>
    have hbody : ∀ {w₁}, L.Later w w₁ → L.Holds (some .local) w₁ c
        (do bindSignature f.decl.sig (← Checking.ask fun t => (t.func f.id).sig)
            Checking.inScope (checkStmts body))
        (do bindSignature f.decl.sig (← Checking.ask fun t => (t.func f.id).sig)
            Checking.inScope (checkStmts body)) fun _ _ _ => True := by
      intro w₁ hw₁
      have hcovers := Logic.Covers.ofBody hstmts hnames hparts
      refine L.bind (.askType fun _ _ _ hw hst => (hst.func (hw.funcs (hw₁.funcs hid))).sig) fun _ _ _ _ hsig => ?_
      exact .andThen (holds_bindSignature _ hsig hparts.bound) (L.inScope (holds_checkStmts body hcovers))
    -- the receiver has the owner as its type, or a pointer to it
    have hreceiver : ∀ {w₁ a b}, L.Later w w₁ → L.types w₁ a b → L.Holds (some .local) w₁ c
        (do f.recv.names.forM fun name => Checking.declareLocal name (.var a)
            bindSignature f.decl.sig (← Checking.ask fun t => (t.func f.id).sig)
            Checking.inScope (checkStmts body))
        (do f.recv.names.forM fun name => Checking.declareLocal name (.var b)
            bindSignature f.decl.sig (← Checking.ask fun t => (t.func f.id).sig)
            Checking.inScope (checkStmts body)) fun _ _ _ => True :=
      fun hw₁ hab => L.bind (.forMSelf fun name hname _ hw => .declareLocal (hrecv name hname) (.var (hw.types hab)) nofun)
        fun _ _ _ hw _ => hbody (L.trans hw₁ hw)
    refine L.inScope (L.bind (holds_receiver? f.recv.type) fun w₁ r r' hw₁ hr => ?_)
    cases hr with
    | none => exact hbody hw₁
    | @some r r' hr =>
      refine L.bind (.askTypes fun _ _ _ hw hst => forall₂_typeParamsOf hst.toReads (hw.types (hw₁.types howner)))
        fun w₂ _ _ hw₂ hparams => ?_
      dsimp only
      rw [hr.isPointer, hr.typeParams]
      refine L.bind (holds_bindTypeParams _ hparams) fun w₃ _ _ hw₃ _ => ?_
      have hw₃ := L.trans (L.trans hw₁ hw₂) hw₃
      have howner := hw₃.types howner
      refine .ite .rfl (fun _ => ?_) fun _ => ?_
      · exact L.bind (L.pointer howner) fun _ _ _ hw htype => hreceiver (L.trans hw₃ hw) htype
      · exact L.bind (.type howner) fun _ _ _ hw htype => hreceiver (L.trans hw₃ hw) htype

end UnusedMethods.Typing
