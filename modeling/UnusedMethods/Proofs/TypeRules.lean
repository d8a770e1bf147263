import UnusedMethods.Proofs.Logic

/-!
# Type expressions in every logic

By induction on the syntax: in every logic for the steps of a check, the judgements about single steps lead to one about
type expressions. What is needed is that the names of methods in the expression may be recorded.
-/

namespace UnusedMethods.Typing

open Syntax UnusedMethods.Types

variable {L : Logic} {c : Context}

mutual

theorem holds_resolveType (e : TypeExpr) {m : Option Level} {w : L.World} (h : ∀ x ∈ e.funcNames, L.Notes c x) :
    L.Holds m w c (resolveType e) (resolveType e) L.types := by
  cases e with
  | name id => exact L.bind (.typeNamed? _) fun _ _ _ _ ho => .getD ho
  | qualified package name => exact L.bind (.qualifiedType? _ _) fun _ _ _ _ ho => .getD ho
  | generic base args =>
    obtain ⟨hbase, hargs⟩ := List.forall_mem_append.1 h
    refine L.bind (holds_resolveType base hbase) fun _ _ _ _ hbase => ?_
    refine L.bind (holds_resolveTypes args hargs) fun _ _ _ hw hargs => L.given fun _ _ _ hw' hst => ?_
    have hbase := hw'.types (hw.types hbase)
    exact .ite (hst.eq_iff hbase hst.invalid) (fun _ => .invalid) fun _ => L.instantiate hbase (hw'.typeList hargs)
  | pointer elem => exact L.bind (holds_resolveType elem h) fun _ _ _ _ helem => L.pointer helem
  | slice elem => exact L.bind (holds_resolveType elem h) fun _ _ _ _ helem => L.slice helem
  | array len elem => exact L.bind (holds_resolveType elem h) fun _ _ _ _ helem => L.push (.array len helem) rfl
  | map key value =>
    obtain ⟨hkey, hvalue⟩ := List.forall_mem_append.1 h
    refine L.bind (holds_resolveType key hkey) fun _ _ _ _ hkey => ?_
    exact L.bind (holds_resolveType value hvalue) fun _ _ _ hw hvalue => L.push (.map (hw.types hkey) hvalue) rfl
  | chan dir elem => exact L.bind (holds_resolveType elem h) fun _ _ _ _ helem => L.push (.chan dir helem) rfl
  | func sig => exact holds_resolveSignature sig h
  | interface methods embeds =>
    obtain ⟨hmethods, hembeds⟩ := List.forall_mem_append.1 h
    refine L.bind (holds_resolveMethods methods hmethods) fun _ _ _ _ hmethods => ?_
    exact L.bind (holds_resolveTypes embeds hembeds) fun _ _ _ hw hembeds =>
      L.interface (hmethods.imp fun _ _ => L.methods_later hw) hembeds
  | struct fields =>
    exact L.bind (holds_resolveStructFields fields h) fun _ _ _ _ hfields => L.push (.struct hfields) rfl
  | union terms => exact L.bind (holds_resolveTerms terms h) fun _ _ _ _ hterms => L.push (.union hterms) rfl
  | tilde elem =>
    exact L.bind (holds_resolveType elem h) fun _ _ _ _ helem => L.push (.union (.cons ⟨rfl, helem⟩ .nil)) rfl
  | bad => exact .invalid
termination_by structural e

theorem holds_resolveTypes (es : List TypeExpr) {m : Option Level} {w : L.World}
    (h : ∀ x ∈ TypeExpr.funcNamesAll es, L.Notes c x) :
    L.Holds m w c (resolveTypes es) (resolveTypes es) fun w => List.Forall₂ (L.types w) := by
  cases es with
  | nil => exact L.pure fun _ _ => .nil
  | cons e es =>
    obtain ⟨he, hes⟩ := List.forall_mem_append.1 h
    refine L.bind (holds_resolveType e he) fun _ _ _ _ he => ?_
    refine L.bind (holds_resolveTypes es hes) fun _ _ _ hw hes => L.pure fun _ hw' => ?_
    exact .cons (hw'.types (hw.types he)) (hw'.typeList hes)
termination_by structural es

theorem holds_resolveTerms (es : List TypeExpr) {m : Option Level} {w : L.World}
    (h : ∀ x ∈ TypeExpr.funcNamesAll es, L.Notes c x) :
    L.Holds m w c (resolveTerms es) (resolveTerms es) fun w => List.Forall₂ (Term.Alike (L.corr w)) := by
  cases es with
  | nil => exact L.pure fun _ _ => .nil
  | cons e es =>
    obtain ⟨he, hes⟩ := List.forall_mem_append.1 h
    -- a term is resolved in the same way whether it is marked or not
    have hterm : ∀ (e : TypeExpr) (tilde : Bool), L.Holds m w c (resolveType e) (resolveType e) L.types →
        L.Holds m w c
          (do let type ← resolveType e
              return { tilde, type } :: (← resolveTerms es))
          (do let type ← resolveType e
              return { tilde, type } :: (← resolveTerms es)) fun w => List.Forall₂ (Term.Alike (L.corr w)) := by
      intro e tilde he
      refine L.bind he fun _ _ _ _ htype => ?_
      refine L.bind (holds_resolveTerms es hes) fun _ _ _ hw hes => L.pure fun _ hw' => ?_
      exact .cons ⟨rfl, hw'.types (hw.types htype)⟩ (hes.imp fun _ _ h => h.mono (L.grows hw'))
    cases e with
    | tilde elem => exact hterm elem true (holds_resolveType elem he)
    | _ => exact hterm _ false (holds_resolveType _ he)
termination_by structural es

theorem holds_resolveSignature (sig : FuncType) {m : Option Level} {w : L.World}
    (h : ∀ x ∈ sig.funcNames, L.Notes c x) :
    L.Holds m w c (resolveSignature sig) (resolveSignature sig) L.types := by
  obtain ⟨params, results, variadic⟩ := sig
  obtain ⟨hparams, hresults⟩ := List.forall_mem_append.1 h
  refine L.bind (holds_resolveFields params hparams) fun _ _ _ _ hparams => ?_
  exact L.bind (holds_resolveFields results hresults) fun _ _ _ hw hresults =>
    L.push (.signature ⟨hw.typeList hparams, hresults, rfl⟩) rfl
termination_by structural sig

theorem holds_resolveFields (fs : List Field) {variadic : Bool} {m : Option Level} {w : L.World}
    (h : ∀ x ∈ Field.funcNamesAll fs, L.Notes c x) :
    L.Holds m w c (resolveFields variadic fs) (resolveFields variadic fs) fun w => List.Forall₂ (L.types w) := by
  cases fs with
  | nil => exact L.pure fun _ _ => .nil
  | cons f fs =>
    obtain ⟨pos, fieldNames, type⟩ := f
    obtain ⟨htype, hfs⟩ := List.forall_mem_append.1 h
    refine L.bind (holds_resolveType type htype) fun w₁ a b _ hab => ?_
    have hrest : ∀ {w a b}, L.types w a b → L.Holds m w c
        (do return List.replicate (max fieldNames.length 1) a ++ (← resolveFields variadic fs))
        (do return List.replicate (max fieldNames.length 1) b ++ (← resolveFields variadic fs))
        fun w => List.Forall₂ (L.types w) := by
      intro w a b hab
      refine L.bind (holds_resolveFields fs hfs) fun _ _ _ hw hfs => L.pure fun _ hw' => ?_
      exact List.rel_append (forall₂_replicate _ (hw'.types (hw.types hab))) (hw'.typeList hfs)
    dsimp only
    split
    · exact L.bind (L.slice hab) fun _ _ _ _ hslice => hrest hslice
    · exact hrest hab
termination_by structural fs

theorem holds_resolveMethods (ms : List MethodSpec) {m : Option Level} {w : L.World}
    (h : ∀ x ∈ MethodSpec.funcNamesAll ms, L.Notes c x) :
    L.Holds m w c (resolveMethods ms) (resolveMethods ms) fun w => List.Forall₂ (L.methods w) := by
  cases ms with
  | nil => exact L.pure fun _ _ => .nil
  | cons spec ms =>
    obtain ⟨name, sig⟩ := spec
    obtain ⟨hname, hrest⟩ := List.forall_mem_cons.1 h
    obtain ⟨hsig, hms⟩ := List.forall_mem_append.1 hrest
    refine L.bind (holds_resolveSignature sig hsig) fun _ _ _ _ hsig => L.readContext ?_
    refine L.newMethod ⟨rfl, hsig, rfl, .interfaceMethod, .nil, .none, rfl⟩ rfl rfl rfl hname.declares hname.records fun _ _ _ _ hid => ?_
    refine L.bind (holds_resolveMethods ms hms) fun _ _ _ hw hms => L.pure fun _ hw' => ?_
    exact .cons (L.methods_later hw' (L.methods_later hw hid)) (hms.imp fun _ _ => L.methods_later hw')
termination_by structural ms

theorem holds_resolveStructFields (fs : List Syntax.StructField) {m : Option Level} {w : L.World}
    (h : ∀ x ∈ StructField.funcNamesAll fs, L.Notes c x) :
    L.Holds m w c (resolveStructFields fs) (resolveStructFields fs)
      fun w => List.Forall₂ (StructField.Alike (L.corr w)) := by
  cases fs with
  | nil => exact L.pure fun _ _ => .nil
  | cons f fs =>
    obtain ⟨fieldNames, type, embedded⟩ := f
    obtain ⟨htype, hfs⟩ := List.forall_mem_append.1 h
    refine L.bind (holds_resolveType type htype) fun _ _ _ _ htype => ?_
    refine L.bind (holds_resolveStructFields fs hfs) fun _ _ _ hw hfs => L.pure fun _ hw' => ?_
    refine List.rel_append ?_ (hfs.imp fun _ _ h => h.mono (L.grows hw'))
    rw [List.forall₂_map_left_iff, List.forall₂_map_right_iff]
    exact List.forall₂_same.2 fun _ _ => ⟨rfl, hw'.types (hw.types htype), rfl⟩
termination_by structural fs

end

theorem holds_resolveOption (type : Option TypeExpr) {m : Option Level} {w : L.World}
    (h : ∀ x ∈ TypeExpr.funcNamesOption type, L.Notes c x) :
    L.Holds m w c (type.mapM resolveType) (type.mapM resolveType) fun w => Option.Rel (L.types w) := by
  cases type with
  | none => exact .noType
  | some e =>
    show L.Holds m w c (some <$> resolveType e) (some <$> resolveType e) _
    rw [map_eq_pure_bind]
    exact L.bind (holds_resolveType e h) fun _ _ _ _ hab => .someType hab

/-- An expression can be read as a type in both tables or in neither. -/
theorem holds_typeDenoted? (e : Expr) {m : Option Level} {w : L.World} (h : L.Covers c e.funcNames e.places) :
    L.Holds m w c (typeDenoted? e) (typeDenoted? e) fun w => Option.Rel (L.types w) := by
  fun_induction typeDenoted? e generalizing w with
  | case1 node name => exact .typeNamed? name
  | case2 => exact .qualifiedType? _ _
  | case3 node inner ih => exact ih h
  | case4 node operand ih =>
    refine L.bind (ih h) fun _ _ _ _ ho => ?_
    cases ho with
    | none => exact .noType
    | some hab => exact L.bind (L.pointer hab) fun _ _ _ _ hab => .someType hab
  | case5 node operand index ih ih' =>
    obtain ⟨hoperand, hindex⟩ := Logic.covers_append.1 h
    refine L.bind (ih hoperand) fun _ _ _ _ ho => ?_
    cases ho with
    | none => exact .noType
    | some hbase =>
      refine L.bind (ih' hindex) fun _ _ _ hw ho' => ?_
      cases ho' with
      | none => exact .noType
      | some harg => exact L.bind (L.instantiate (hw.types hbase) (.cons harg .nil)) fun _ _ _ _ hab => .someType hab
  | case6 node operand args ih =>
    obtain ⟨hoperand, hargs⟩ := Logic.covers_append.1 h
    refine L.bind (ih hoperand) fun _ _ _ _ ho => ?_
    cases ho with
    | none => exact .noType
    | some hbase =>
      refine L.bind (holds_resolveTypes args hargs.notes) fun _ _ _ hw hargs => ?_
      exact L.bind (L.instantiate (hw.types hbase) hargs) fun _ _ _ _ hab => .someType hab
  | case7 node type => exact L.bind (holds_resolveType type h.notes) fun _ _ _ _ hab => .someType hab
  | case8 => exact .noType

end UnusedMethods.Typing
