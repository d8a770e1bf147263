import UnusedMethods.Proofs.Frames
import UnusedMethods.Proofs.Packages

/-!
# Short variable declarations

An identifier on the left of `:=` stands for what the innermost scope has under its name, or else it is declared there.
The statements of a body have a scope of their own, inside the one for receiver, parameters and results. So a name is
used again if an earlier statement of the block declares it, or the same statement further to the left, and in no other
case; a parameter is not used again but hidden by a new variable.
-/

namespace UnusedMethods.Typing

open Syntax UnusedMethods.Types
open Checking (Keeps)

/-! ## Names that a block declares -/

/-- The name that an expression on the left of `:=` declares, unless it is there already. -/
def definedNames : Expr → List String
  | .ident _ name => if name = "_" then [] else [name]
  | _ => []

/-- The names that a declaration inside a function declares. -/
def localNames : Decl → List String
  | .var specs | .const specs => specs.flatMap fun spec => namesOf spec.names
  | .type specs => specs.flatMap fun spec => namesOf [spec.name]

/-- The names that a statement declares in its block, whether they are there or not. -/
def declaredIn : Stmt → List String
  | .decl d => localNames d
  | .labeled s => declaredIn s
  | _ => []
termination_by structural s => s

/-- The names that a statement declares in its block unless they are there already. -/
def definedIn : Stmt → List String
  | .define lhs _ => lhs.flatMap definedNames
  | .labeled s => definedIn s
  | _ => []
termination_by structural s => s

/-- The statement without its labels. -/
def unlabeled : Stmt → Stmt
  | .labeled s => unlabeled s
  | s => s
termination_by structural s => s

namespace Checking

variable {α β : Type} {declared declared' defined defined' : List String}

/-- The step enters the names of two lists into the innermost scope. A name that is there keeps what it denotes unless it
is in the first list. Other scopes stay as they are. -/
def Declares (declared defined : List String) (x : Checking α) : Prop :=
  ∀ c n t inner outer, n.locals = inner :: outer → ∃ inner', (x.eval c n t).1.2.locals = inner' :: outer ∧
    (∀ y, (inner'.find? y).isSome ↔ (inner.find? y).isSome ∨ y ∈ declared ∨ y ∈ defined) ∧
    ∀ y obj, y ∉ declared → inner.find? y = some obj → inner'.find? y = some obj

namespace Declares

theorem quiet {x : Checking α} (h : Keeps Notes.scopes x) : Declares [] [] x := by
  intro c n t inner outer hlocals
  have hkept : (x.eval c n t).1.2.locals = n.locals := congrArg Prod.snd (h c n t)
  exact ⟨inner, hkept.trans hlocals, by simp, fun _ _ _ h => h⟩

theorem bind {x : Checking α} {f : α → Checking β} (hx : Declares declared defined x)
    (hf : ∀ a, Declares declared' defined' (f a)) : Declares (declared ++ declared') (defined ++ defined') (x >>= f) := by
  intro c n t inner outer hlocals
  obtain ⟨inner₁, hlocals₁, hnames₁, hkept₁⟩ := hx c n t inner outer hlocals
  obtain ⟨inner₂, hlocals₂, hnames₂, hkept₂⟩ := hf _ c _ _ inner₁ outer hlocals₁
  refine ⟨inner₂, hlocals₂, fun y => ?_, fun y obj hy hfind => ?_⟩
  · rw [hnames₂, hnames₁, List.mem_append, List.mem_append]
    tauto
  · rw [List.mem_append, not_or] at hy
    exact hkept₂ y obj hy.2 (hkept₁ y obj hy.1 hfind)

theorem after {x : Checking α} {f : α → Checking β} (hx : Keeps Notes.scopes x)
    (hf : ∀ a, Declares declared defined (f a)) : Declares declared defined (x >>= f) :=
  (quiet hx).bind hf

theorem forM {f : α → Checking Unit} {names : α → List String} {as : List α} (hf : ∀ a, Declares (names a) [] (f a)) :
    Declares (as.flatMap names) [] (as.forM f) := by
  induction as with
  | nil => exact quiet (.pure ())
  | cons a as ih => exact bind (hf a) fun _ => ih

theorem defineLocal (name : String) (obj : Object) : Declares [name] [] (Checking.defineLocal name obj) := by
  intro c n t inner outer hlocals
  rw [eval_defineLocal, hlocals]
  refine ⟨inner.insert name obj, rfl, fun y => ?_, fun y obj' hy hfind => ?_⟩
  · rw [Sound.find?_insert]
    by_cases hy : y = name <;> simp [hy]
  · rwa [Sound.find?_insert, if_neg (by simpa using hy)]

theorem declare (name : Ident) (obj : Object) : Declares (namesOf [name]) [] (Checking.declare .local name obj) := by
  unfold Checking.declare
  cases hblank : name.isBlank with
  | true => simpa [namesOf, hblank] using quiet (.pure ())
  | false =>
    have hnames : namesOf [name] = [name.name] ++ [] := by simp [namesOf, hblank]
    rw [hnames]
    exact (defineLocal name.name obj).bind fun _ => quiet fun _ _ _ => rfl

end Declares

end Checking

open Checking (Declares)

/-! ## Statements -/

section Quiet

variable {c : Context}

theorem covers_all (names : List Ident) (places : List Pos) : (framing fun _ => True).Covers c names places :=
  framing_covers (fun _ _ => trivial) names

theorem keeps_recorded (e : Expr) (hint : Option TypeId) : Keeps Notes.scopes (recorded e (checkExpr e hint)) :=
  (quiet_of_holds fun _ => holds_recorded e (holds_checkExpr e (rel_hint hint) (covers_all _ _))).scopes

theorem keeps_checkExprs (hint : Option TypeId) (es : List Expr) : Keeps Notes.scopes (checkExprs hint es) :=
  (quiet_of_holds fun _ => holds_checkExprs es (rel_hint hint) (covers_all _ _)).scopes

theorem keeps_checkValues (k : Nat) (hint : Option TypeId) (es : List Expr) : Keeps Notes.scopes (checkValues k hint es) :=
  (quiet_of_holds fun _ => holds_checkValues k es (rel_hint hint) (covers_all _ _)).scopes

theorem keeps_resolveOptional (type : Option TypeExpr) : Keeps Notes.scopes (type.mapM resolveType) := by
  cases type with
  | none => exact .pure none
  | some type => exact (quiet_resolveType (P := fun _ => True) type fun _ _ => trivial).scopes.bind fun _ => .pure _

end Quiet

theorem namesOf_cons (x : Ident) (xs : List Ident) : namesOf (x :: xs) = namesOf [x] ++ namesOf xs := by
  cases hx : x.isBlank <;> simp [namesOf, hx]

theorem declares_names {f : Ident × Nat → Checking Unit} (hf : ∀ p, Declares (namesOf [p.1]) [] (f p)) (names : List Ident)
    (k : Nat) : Declares (namesOf names) [] ((names.zipIdx k).forM f) := by
  induction names generalizing k with
  | nil => exact .quiet (.pure ())
  | cons x xs ih =>
    rw [namesOf_cons]
    exact (hf (x, k)).bind fun _ => ih (k + 1)

theorem declares_checkVarSpec (spec : ValueSpec) : Declares (namesOf spec.names) [] (checkVarSpec .local spec) := by
  obtain ⟨pos, names, type, values⟩ := spec
  refine .after (keeps_resolveOptional type) fun declared => .after (keeps_checkValues _ declared values) fun types => ?_
  exact declares_names (fun p => .after (.ask _) fun _ => .declare _ _) names 0

theorem declares_checkVarSpecs (specs : List ValueSpec) :
    Declares (specs.flatMap fun spec => namesOf spec.names) [] (checkVarSpecs .local specs) := by
  induction specs with
  | nil => exact .quiet (.pure ())
  | cons spec specs ih => exact (declares_checkVarSpec spec).bind fun _ => ih

theorem declares_checkConstValues (declared : Option TypeId) (names : List Ident) (es : List Expr) :
    Declares (namesOf names) [] (checkConstValues .local declared names es) := by
  induction es generalizing names with
  | nil =>
    induction names with
    | nil => exact .quiet (.pure ())
    | cons x xs ih =>
      rw [namesOf_cons]
      exact (Declares.declare x _).bind fun _ => ih
  | cons e es ih =>
    cases names with
    | nil => exact .quiet (.pure ())
    | cons x xs =>
      rw [namesOf_cons]
      exact .after (keeps_recorded e none) fun _ => (Declares.declare x _).bind fun _ => ih xs

theorem declares_checkConstSpecs (last : Option ValueSpec) (specs : List ValueSpec) :
    Declares (specs.flatMap fun spec => namesOf spec.names) [] (checkConstSpecs .local last specs) := by
  induction specs generalizing last with
  | nil => exact .quiet (.pure ())
  | cons spec specs ih =>
    obtain ⟨pos, names, type, values⟩ := spec
    unfold checkConstSpecs
    split
    · have hrepeat : Declares (namesOf names) [] (repeatConsts .local names last) := by
        refine .after (keeps_resolveOptional _) fun declared => .after (x := Checking.knownTypes) (fun _ _ _ => rfl) fun _ => ?_
        exact declares_names (fun p => .declare _ _) names 0
      exact hrepeat.bind fun _ => ih last
    · exact .after (keeps_resolveOptional type) fun declared => (declares_checkConstValues declared names values).bind fun _ => ih _

theorem declares_checkLocalType (spec : TypeSpec) : Declares (namesOf [spec.name]) [] (checkLocalType spec) := by
  have htype : Keeps Notes.scopes (resolveType spec.type) := (quiet_resolveType (P := fun _ => True) _ fun _ _ => trivial).scopes
  unfold checkLocalType Checking.declareLocal
  split
  · exact .after htype fun _ => .declare _ _
  · refine .after .readContext fun _ => .after (.lift _) fun named => ?_
    have hrest : Declares [] [] (resolveType spec.type >>= fun rhs => Checking.change (·.setRhs named rhs)) :=
      .after htype fun _ => .quiet (.change _)
    simpa using (Declares.declare spec.name (.typeName named)).bind fun _ => hrest

theorem declares_checkLocalDecl (d : Decl) : Declares (localNames d) [] (checkLocalDecl d) := by
  cases d with
  | var specs => exact declares_checkVarSpecs specs
  | const specs => exact declares_checkConstSpecs none specs
  | type specs => exact .forM declares_checkLocalType

/-- Uses an object again for an identifier on the left of `:=`. -/
def reuse (node : Node) (obj : Object) : Checking Unit := do
  Checking.noteUse node.id obj
  Checking.noteType node.id (← Checking.ask obj.type)

/-- Declares a new variable for an identifier on the left of `:=`. -/
def introduce (node : Node) (name : String) (type : TypeId) : Checking Unit := do
  Checking.defineLocal name (.var type)
  Checking.noteDef node.pos (.var type)
  Checking.noteType node.id type

theorem eval_defineIdent {c : Context} {n : Notes} {t : Table} {inner : Scope} {outer : List Scope}
    (hlocals : n.locals = inner :: outer) (node : Node) {name : String} (hname : name ≠ "_") (type : TypeId) :
    (defineIdent node name type).eval c n t =
      ((inner.find? name).elim (introduce node name type) (reuse node)).eval c n t := by
  have hinner : (Checking.innermost? name).eval c n t = ((inner.find? name, n), t) := by
    show (((n.locals.head?.bind (·.find? name)), n), t) = _
    rw [hlocals]
    rfl
  rw [defineIdent, if_neg hname, Checking.eval_bind, hinner]
  cases inner.find? name <;> rfl

theorem declares_defineIdent (node : Node) (name : String) (type : TypeId) :
    Declares [] (definedNames (.ident node name)) (defineIdent node name type) := by
  rw [definedNames]
  by_cases hname : name = "_"
  · rw [defineIdent, if_pos hname, if_pos hname]
    exact .quiet (.pure ())
  · rw [if_neg hname]
    intro c n t inner outer hlocals
    rw [eval_defineIdent hlocals node hname]
    cases hfind : inner.find? name with
    | some obj =>
      refine ⟨inner, hlocals, fun y => ?_, fun _ _ _ h => h⟩
      by_cases hy : y = name <;> simp [hy, hfind]
    | none =>
      obtain ⟨inner', hlocals', hnames, hkept⟩ := Declares.defineLocal name (.var type) c n t inner outer hlocals
      refine ⟨inner', hlocals', fun y => by simpa using hnames y, fun y obj _ hy => hkept y obj ?_ hy⟩
      -- a name that was there is another one
      intro hmem
      rw [List.mem_singleton.1 hmem, hfind] at hy
      cases hy

theorem declares_defineAll (lhs : List Expr) (types : List TypeId) :
    Declares [] (lhs.flatMap definedNames) (defineAll lhs types) := by
  induction lhs generalizing types with
  | nil => exact .quiet (.pure ())
  | cons e es ih =>
    unfold defineAll
    refine .after (.ask _) fun type => ?_
    cases e with
    | ident node name => exact (declares_defineIdent node name type).bind fun _ => ih types.tail
    | _ => exact .after (keeps_recorded _ none) fun _ => ih types.tail

theorem declares_checkStmt (s : Stmt) : Declares (declaredIn s) (definedIn s) (checkStmt s) := by
  have hscoped (h : s.opensScope = true) : Keeps Notes.scopes (checkStmt s) :=
    (quiet_of_holds fun _ => holds_checkStmt s (by simp [h]) (covers_all _ _)).scopes
  cases s with
  | decl d => exact declares_checkLocalDecl d
  | define lhs rhs => exact .after (keeps_checkValues _ none rhs) fun types => declares_defineAll lhs types
  | labeled inner => exact declares_checkStmt inner
  | assign lhs rhs =>
    exact .after (keeps_checkExprs none lhs) fun _ => .after (keeps_checkValues _ none rhs) fun _ => .quiet (.pure ())
  | expr e | incDec e | go e | defer e => exact .after (keeps_recorded e none) fun _ => .quiet (.pure ())
  | send chan value =>
    exact .after (keeps_recorded chan none) fun _ => .after (keeps_recorded value none) fun _ => .quiet (.pure ())
  | «return» values => exact .after (keeps_checkExprs none values) fun _ => .quiet (.pure ())
  | branch | empty => exact .quiet (.pure ())
  | _ => exact .quiet (hscoped rfl)
termination_by structural s

theorem declares_checkStmts (ss : List Stmt) : Declares (ss.flatMap declaredIn) (ss.flatMap definedIn) (checkStmts ss) := by
  induction ss with
  | nil => exact .quiet (.pure ())
  | cons s ss ih => exact (declares_checkStmt s).bind fun _ => ih

/-! ## Bodies -/

namespace Checking

variable {α β : Type} {k : Nat} {body : List Stmt}

/-- The step checks statements in a new scope, and closes `k` scopes in the end. -/
def RunsBlock (k : Nat) (body : List Stmt) (x : Checking α) : Prop :=
  ∀ c n t, ∃ (n₀ : Notes) (t₀ : Table) (outer : List Scope) (a : α), n₀.locals = .empty :: outer ∧
    x.eval c n t =
      (checkStmts body >>= fun _ => do
        modifyThe Notes fun n => { n with locals := n.locals.drop k }
        return a).eval c n₀ t₀

theorem runsBlock (body : List Stmt) : RunsBlock 1 body (Checking.inScope (checkStmts body)) := by
  intro c n t
  refine ⟨{ n with locals := .empty :: n.locals }, t, n.locals, (), rfl, ?_⟩
  simp only [List.drop_one]
  rfl

namespace RunsBlock

theorem after {x : Checking α} {f : α → Checking β} (hf : ∀ a, RunsBlock k body (f a)) : RunsBlock k body (x >>= f) :=
  fun c _ _ => hf _ c _ _

theorem inScope {x : Checking α} (hx : RunsBlock k body x) : RunsBlock (k + 1) body (Checking.inScope x) := by
  intro c n t
  obtain ⟨n₀, t₀, outer, a, hlocals, heq⟩ := hx c { n with locals := .empty :: n.locals } t
  refine ⟨n₀, t₀, outer, a, hlocals, ?_⟩
  have hclose : (Checking.inScope x).eval c n t = (x >>= fun a => do
      modifyThe Notes fun n => { n with locals := n.locals.tail }
      return a).eval c { n with locals := .empty :: n.locals } t := rfl
  rw [hclose, eval_bind, heq]
  simp only [← List.tail_drop]
  rfl

theorem thenReturn {x : Checking α} (hx : RunsBlock k body x) (b : β) : RunsBlock k body (x >>= fun _ => pure b) := by
  intro c n t
  obtain ⟨n₀, t₀, outer, a, hlocals, heq⟩ := hx c n t
  refine ⟨n₀, t₀, outer, b, hlocals, ?_⟩
  rw [eval_bind, heq]
  rfl

end RunsBlock

end Checking

open Checking (RunsBlock runsBlock)

theorem runsBlock_checkFunc {f : FuncDecl} {body : List Stmt} (h : f.body = some body) (id : FuncId) :
    RunsBlock 2 body (checkFunc f id) := by
  rw [checkFunc, h]
  exact .inScope (.after fun _ => .after fun _ => .after fun _ => runsBlock body)

theorem runsBlock_checkMethod {m : AttachedMethod} {body : List Stmt} (h : m.decl.body = some body) :
    RunsBlock 2 body (checkMethod m) := by
  have hrest : RunsBlock 1 body (Checking.ask (fun t => (t.func m.id).sig) >>= fun sig =>
      bindSignature m.decl.sig sig >>= fun _ => Checking.inScope (checkStmts body)) :=
    .after fun _ => .after fun _ => runsBlock body
  rw [checkMethod, h]
  refine .inScope (.after fun recv => ?_)
  -- what is bound depends on the receiver
  cases recv with
  | none => exact hrest
  | some r =>
    refine .after fun _ => .after fun _ => ?_
    dsimp only
    split <;> exact .after fun _ => .after fun _ => hrest

theorem runsBlock_funcLit (node : Node) (sig : FuncType) (body : List Stmt) (hint : Option TypeId) :
    RunsBlock 2 body (checkExpr (.funcLit node sig body) hint) :=
  .after fun type => .thenReturn (.inScope (.after fun _ => runsBlock body)) type

/-! ## The left side of a declaration -/

theorem eval_checkStmts_append (ss ss' : List Stmt) (c : Context) (n : Notes) (t : Table) :
    (checkStmts (ss ++ ss')).eval c n t = (checkStmts ss >>= fun _ => checkStmts ss').eval c n t := by
  induction ss generalizing n t with
  | nil => rfl
  | cons s ss ih => exact ih _ _

theorem eval_defineAll_append (es es' : List Expr) (types : List TypeId) (c : Context) (n : Notes) (t : Table) :
    (defineAll (es ++ es') types).eval c n t =
      (defineAll es types >>= fun _ => defineAll es' (types.drop es.length)).eval c n t := by
  induction es generalizing types n t with
  | nil => rfl
  | cons e es ih =>
    rw [List.length_cons, ← List.drop_tail]
    cases e <;> exact ih _ _ _

theorem checkStmt_unlabeled (s : Stmt) : checkStmt (unlabeled s) = checkStmt s := by
  cases s with
  | labeled s => exact checkStmt_unlabeled s
  | _ => rfl
termination_by structural s

/-- The state in which an identifier on the left of `:=` is reached, with the types of the values. -/
def reached (before : List Stmt) (lhs rhs left : List Expr) : Checking (List TypeId) := do
  checkStmts before
  let types ← checkValues lhs.length none rhs
  defineAll left types
  return types

theorem declares_reached (before : List Stmt) (lhs rhs left : List Expr) :
    Declares (before.flatMap declaredIn) (before.flatMap definedIn ++ left.flatMap definedNames)
      (reached before lhs rhs left) := by
  have hleft (types : List TypeId) :
      Declares [] (left.flatMap definedNames) (defineAll left types >>= fun _ => pure types) := by
    simpa only [List.append_nil] using (declares_defineAll left types).bind fun _ => .quiet (.pure types)
  rw [reached]
  simpa only [List.append_nil] using
    (declares_checkStmts before).bind fun _ => .after (keeps_checkValues lhs.length none rhs) hleft

section Define

variable {c : Context} {left right rhs : List Expr} {node : Node} {name : String}

theorem eval_defineAll_ident (types : List TypeId) (n : Notes) (t : Table) :
    (defineAll (.ident node name :: right) (types.drop left.length)).eval c n t =
      (do
        defineIdent node name (inferredType t (types[left.length]?.getD .invalid))
        defineAll right (types.drop (left.length + 1)) : Checking Unit).eval c n t := by
  have hask (f : Table → TypeId) : (Checking.ask f).eval c n t = ((f t, n), t) := rfl
  rw [← List.tail_drop, ← List.head?_drop, ← List.headD_eq_head?_getD, defineAll, Checking.eval_bind, hask]

theorem eval_checkStmts_define {s : Stmt} (hs : unlabeled s = .define (left ++ .ident node name :: right) rhs)
    (before after : List Stmt) {n₀ n : Notes} {t₀ t : Table} {types : List TypeId}
    (h : (reached before (left ++ .ident node name :: right) rhs left).eval c n₀ t₀ = ((types, n), t)) :
    (checkStmts (before ++ s :: after)).eval c n₀ t₀ =
      (do
        defineIdent node name (inferredType t (types[left.length]?.getD .invalid))
        defineAll right (types.drop (left.length + 1))
        checkStmts after : Checking Unit).eval c n t := by
  rw [eval_checkStmts_append, Checking.eval_bind, checkStmts, Checking.eval_bind, ← checkStmt_unlabeled, hs, checkStmt,
    Checking.eval_bind, eval_defineAll_append]
  rw [reached] at h
  simp only [Checking.eval_bind, Checking.eval_pure, Prod.mk.injEq] at h ⊢
  obtain ⟨⟨rfl, rfl⟩, rfl⟩ := h
  rw [eval_defineAll_ident]
  simp only [Checking.eval_bind]

end Define

theorem lookup_after {α : Type} {declared defined : List String} {x : Checking α} (hx : Declares declared defined x)
    {c : Context} {n : Notes} {t : Table} {inner : Scope} {outer : List Scope} (hlocals : n.locals = inner :: outer)
    {name : String} {obj : Object} (hfind : inner.find? name = some obj) (hnot : name ∉ declared) :
    ((x >>= fun _ => Checking.lookup name).eval c n t).1.1 = some obj := by
  obtain ⟨inner', hlocals', -, hkept⟩ := hx c n t inner outer hlocals
  show ((x.eval c n t).1.2.locals ++ _).findSome? (·.find? name) = some obj
  rw [hlocals', List.cons_append, List.findSome?_cons, hkept name obj hnot hfind]

/-- What is recorded for an identifier on the left of `:=` in the outermost block of a body. If an earlier statement of the
block declares the name, or the statement itself further to the left, then the identifier is recorded as a use of what the
block has under this name. If not, it is recorded as a new variable with the defaulted type of its value, also if it
names a parameter, a result or the receiver. Either way the name denotes this object in the rest of the block, up to a
`var`, `const` or `type` declaration of it. -/
theorem short_declaration (c : Context) (n₀ : Notes) (t₀ : Table) (outer : List Scope) (hlocals : n₀.locals = .empty :: outer)
    (before : List Stmt) (s : Stmt) (after : List Stmt) (left : List Expr) (node : Node) (name : String) (hname : name ≠ "_")
    (right rhs : List Expr) (hs : unlabeled s = .define (left ++ .ident node name :: right) rhs) :
    (∀ (f : FuncDecl) (id : FuncId), f.body = some (before ++ s :: after) →
      RunsBlock 2 (before ++ s :: after) (checkFunc f id)) ∧
    (∀ m : AttachedMethod, m.decl.body = some (before ++ s :: after) → RunsBlock 2 (before ++ s :: after) (checkMethod m)) ∧
    (∀ node sig hint, RunsBlock 2 (before ++ s :: after) (checkExpr (.funcLit node sig (before ++ s :: after)) hint)) ∧
    ∃ types n t obj step,
      (reached before (left ++ .ident node name :: right) rhs left).eval c n₀ t₀ = ((types, n), t) ∧
      (if name ∈ before.flatMap declaredIn ∨ name ∈ before.flatMap definedIn ∨ name ∈ left.flatMap definedNames then
          ((Checking.innermost? name).eval c n t).1.1 = some obj ∧ step = reuse node obj
        else
          obj = .var (inferredType t (types[left.length]?.getD .invalid)) ∧
            step = introduce node name (inferredType t (types[left.length]?.getD .invalid))) ∧
      (checkStmts (before ++ s :: after)).eval c n₀ t₀ =
        (do
          step
          defineAll right (types.drop (left.length + 1))
          checkStmts after : Checking Unit).eval c n t ∧
      ∀ soon later, after = soon ++ later → name ∉ soon.flatMap declaredIn →
        ((do
          step
          defineAll right (types.drop (left.length + 1))
          checkStmts soon
          Checking.lookup name : Checking (Option Object)).eval c n t).1.1 = some obj := by
  refine ⟨fun f id h => runsBlock_checkFunc h id, fun m h => runsBlock_checkMethod h,
    fun node sig hint => runsBlock_funcLit node sig _ hint, ?_⟩
  obtain ⟨⟨types, n⟩, t, hreached⟩ : ∃ r t,
      (reached before (left ++ .ident node name :: right) rhs left).eval c n₀ t₀ = (r, t) := ⟨_, _, rfl⟩
  have hrun := eval_checkStmts_define hs before after hreached
  -- the names that the block has when the identifier is reached
  obtain ⟨inner, hinner, hnames, -⟩ := declares_reached before _ rhs left c n₀ t₀ _ outer hlocals
  rw [hreached] at hinner
  have hmem := hnames name
  simp only [Scope.find?, Scope.empty, List.lookup_nil, Option.isSome_none, Bool.false_eq_true, false_or, List.mem_append]
    at hmem
  -- what comes after the identifier does not declare the name again
  have hrest (soon : List Stmt) : Declares (soon.flatMap declaredIn) (right.flatMap definedNames ++ soon.flatMap definedIn)
      (defineAll right (types.drop (left.length + 1)) >>= fun _ => checkStmts soon) :=
    (declares_defineAll right _).bind fun _ => declares_checkStmts soon
  rw [Checking.eval_bind, eval_defineIdent hinner node hname] at hrun
  cases hfind : inner.find? name with
  | some obj =>
    rw [hfind] at hrun
    refine ⟨types, n, t, obj, reuse node obj, hreached, ?_, hrun, fun soon later _ hnot => ?_⟩
    · rw [if_pos (hmem.1 (by rw [← Scope.find?, hfind]; rfl))]
      refine ⟨?_, rfl⟩
      show n.locals.head?.bind (·.find? name) = some obj
      rw [hinner]
      exact hfind
    · exact lookup_after (hrest soon) (n := ((reuse node obj).eval c n t).1.2) hinner hfind hnot
  | none =>
    rw [hfind] at hrun
    let type := inferredType t (types[left.length]?.getD .invalid)
    refine ⟨types, n, t, .var type, introduce node name type, hreached, ?_, hrun, fun soon later _ hnot => ?_⟩
    · rw [if_neg (mt hmem.2 (by rw [← Scope.find?, hfind]; simp))]
      exact ⟨rfl, rfl⟩
    · have hlocals' : ((introduce node name type).eval c n t).1.2.locals = inner.insert name (.var type) :: outer := by
        show ((Checking.defineLocal name (.var type)).eval c n t).1.2.locals = _
        rw [Checking.eval_defineLocal, hinner]
        rfl
      exact lookup_after (hrest soon) hlocals' (by rw [Checking.Sound.find?_insert, if_pos rfl]) hnot

/-- `x := 1` -/
def hidingStmt : Stmt := .define [.ident ⟨0, ⟨1, 21⟩⟩ "x"] [.lit ⟨1, ⟨1, 26⟩⟩ .int]

/-- `func f(x float64) { x := 1 }` -/
def hidingFunc : FuncDecl where
  name := ⟨"f", ⟨1, 6⟩⟩
  recv := none
  typeParams := []
  sig := ⟨[⟨⟨1, 8⟩, [⟨"x", ⟨1, 8⟩⟩], .name ⟨"float64", ⟨1, 10⟩⟩⟩], [], false⟩
  body := some [hidingStmt]

/-- The scopes in which its statement is checked. -/
def hidingNotes : Notes where
  scope := .empty
  locals := [.empty, ⟨[("x", .var BasicKind.float64.typeId)]⟩]
  infos := #[.empty]

/-- The name of the parameter denotes a variable of type `int` after the statement. -/
theorem hidingFunc_denotes :
    RunsBlock 2 [hidingStmt] (checkFunc hidingFunc ⟨0⟩) ∧
    ((Checking.lookup "x").eval ⟨"app", #[], ⟨0, 0, .empty⟩⟩ hidingNotes .predeclared).1.1 =
      some (.var BasicKind.float64.typeId) ∧
    ((checkStmts [hidingStmt] >>= fun _ => Checking.lookup "x").eval ⟨"app", #[], ⟨0, 0, .empty⟩⟩ hidingNotes
      .predeclared).1.1 = some (.var BasicKind.int.typeId) := by
  obtain ⟨hfunc, -, -, types, n, t, obj, step, hreached, hobj, hrun, hlater⟩ := short_declaration ⟨"app", #[], ⟨0, 0, .empty⟩⟩
    hidingNotes .predeclared _ rfl [] hidingStmt [] [] ⟨0, ⟨1, 21⟩⟩ "x" (by decide) [] [.lit ⟨1, ⟨1, 26⟩⟩ .int] rfl
  refine ⟨hfunc hidingFunc ⟨0⟩ rfl, rfl, ?_⟩
  cases hreached
  rw [if_neg (by simp)] at hobj
  rw [List.nil_append] at hrun
  rw [Checking.eval_bind, hrun]
  exact (hlater [] [] rfl (by simp)).trans (by rw [hobj.1]; rfl)

end UnusedMethods.Typing
