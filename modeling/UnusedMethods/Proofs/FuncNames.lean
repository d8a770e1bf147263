import UnusedMethods.Syntax.Tree

/-!
# The names that declare functions and methods

`SourceFile.funcNames` lists the identifiers of a file that declare a function or a method: those of
function declarations, and those of the method specs of all interface types, wherever these are written.

What a name denotes is recorded by its place. So a record says something about a name only if no two of
these identifiers share a place; `SourceFile.FuncNamesApart` says this.
-/

namespace UnusedMethods.Syntax

/-! ## Types -/

mutual

/-- The method names in a type. -/
def TypeExpr.funcNames : TypeExpr → List Ident
  | .name _ => []
  | .qualified _ _ => []
  | .generic base args => base.funcNames ++ TypeExpr.funcNamesAll args
  | .pointer elem => elem.funcNames
  | .slice elem => elem.funcNames
  | .array _ elem => elem.funcNames
  | .map key value => key.funcNames ++ value.funcNames
  | .chan _ elem => elem.funcNames
  | .func sig => sig.funcNames
  | .interface methods embeds => MethodSpec.funcNamesAll methods ++ TypeExpr.funcNamesAll embeds
  | .struct fields => StructField.funcNamesAll fields
  | .union terms => TypeExpr.funcNamesAll terms
  | .tilde elem => elem.funcNames
  | .bad => []
termination_by structural e => e

/-- The method names in types. -/
def TypeExpr.funcNamesAll : List TypeExpr → List Ident
  | [] => []
  | e :: es => e.funcNames ++ TypeExpr.funcNamesAll es
termination_by structural es => es

/-- The method names in a function type. -/
def FuncType.funcNames : FuncType → List Ident
  | ⟨params, results, _⟩ => Field.funcNamesAll params ++ Field.funcNamesAll results
termination_by structural f => f

/-- The method names in the types of parameters. -/
def Field.funcNamesAll : List Field → List Ident
  | [] => []
  | ⟨_, _, type⟩ :: fs => type.funcNames ++ Field.funcNamesAll fs
termination_by structural fs => fs

/-- The names of methods, and those in their types. -/
def MethodSpec.funcNamesAll : List MethodSpec → List Ident
  | [] => []
  | ⟨name, sig⟩ :: ms => name :: (sig.funcNames ++ MethodSpec.funcNamesAll ms)
termination_by structural ms => ms

/-- The method names in the types of fields. -/
def StructField.funcNamesAll : List StructField → List Ident
  | [] => []
  | ⟨_, type, _⟩ :: fs => type.funcNames ++ StructField.funcNamesAll fs
termination_by structural fs => fs

end

/-- The method names in a type that may be absent. -/
def TypeExpr.funcNamesOption : Option TypeExpr → List Ident
  | none => []
  | some e => e.funcNames

/-- The method names in the bounds of type parameters. -/
def TypeParamDecl.funcNames (d : TypeParamDecl) : List Ident := d.constraint.funcNames

/-- The method names in a declared type. -/
def TypeSpec.funcNames (spec : TypeSpec) : List Ident :=
  spec.typeParams.flatMap (·.funcNames) ++ spec.type.funcNames

/-! ## Expressions and statements -/

mutual

/-- The method names in an expression. -/
def Expr.funcNames : Expr → List Ident
  | .ident _ _ => []
  | .lit _ _ => []
  | .composite _ type elems => TypeExpr.funcNamesOption type ++ Element.funcNamesAll elems
  | .funcLit _ sig body => sig.funcNames ++ Stmt.funcNamesAll body
  | .selector _ operand _ => operand.funcNames
  | .call _ func typeArgs args _ => func.funcNames ++ (TypeExpr.funcNamesAll typeArgs ++ Expr.funcNamesAll args)
  | .index _ operand index => operand.funcNames ++ index.funcNames
  | .instantiate _ operand args => operand.funcNames ++ TypeExpr.funcNamesAll args
  | .slice _ operand parts => operand.funcNames ++ Expr.funcNamesAll parts
  | .typeAssert _ operand type => operand.funcNames ++ type.funcNames
  | .conversion _ type operand => type.funcNames ++ operand.funcNames
  | .unary _ _ operand => operand.funcNames
  | .binary _ _ left right => left.funcNames ++ right.funcNames
  | .paren _ inner => inner.funcNames
  | .type _ type => type.funcNames
termination_by structural e => e

/-- The method names in expressions. -/
def Expr.funcNamesAll : List Expr → List Ident
  | [] => []
  | e :: es => e.funcNames ++ Expr.funcNamesAll es
termination_by structural es => es

/-- The method names in an expression that may be absent. -/
def Expr.funcNamesOption : Option Expr → List Ident
  | none => []
  | some e => e.funcNames
termination_by structural e => e

/-- The method names in the elements of a composite literal. -/
def Element.funcNamesAll : List Element → List Ident
  | [] => []
  | ⟨key, value⟩ :: es => Expr.funcNamesOption key ++ (value.funcNames ++ Element.funcNamesAll es)
termination_by structural es => es

/-- The method names in a statement. -/
def Stmt.funcNames : Stmt → List Ident
  | .decl d => d.funcNames
  | .define lhs rhs => Expr.funcNamesAll lhs ++ Expr.funcNamesAll rhs
  | .assign lhs rhs => Expr.funcNamesAll lhs ++ Expr.funcNamesAll rhs
  | .expr e => e.funcNames
  | .incDec e => e.funcNames
  | .send chan value => chan.funcNames ++ value.funcNames
  | .go call => call.funcNames
  | .defer call => call.funcNames
  | .return values => Expr.funcNamesAll values
  | .block body => Stmt.funcNamesAll body
  | .if init cond body orElse =>
    Stmt.funcNamesOption init ++ (cond.funcNames ++ (Stmt.funcNamesAll body ++ Stmt.funcNamesOption orElse))
  | .for init cond post body =>
    Stmt.funcNamesOption init ++
      (Expr.funcNamesOption cond ++ (Stmt.funcNamesOption post ++ Stmt.funcNamesAll body))
  | .range vars _ subject body => Expr.funcNamesAll vars ++ (subject.funcNames ++ Stmt.funcNamesAll body)
  | .switch init tag clauses =>
    Stmt.funcNamesOption init ++ (Expr.funcNamesOption tag ++ CaseClause.funcNamesAll clauses)
  | .typeSwitch init _ subject clauses =>
    Stmt.funcNamesOption init ++ (subject.funcNames ++ TypeClause.funcNamesAll clauses)
  | .select clauses => CommClause.funcNamesAll clauses
  | .labeled inner => inner.funcNames
  | .branch => []
  | .empty => []
termination_by structural s => s

/-- The method names in statements. -/
def Stmt.funcNamesAll : List Stmt → List Ident
  | [] => []
  | s :: ss => s.funcNames ++ Stmt.funcNamesAll ss
termination_by structural ss => ss

/-- The method names in a statement that may be absent. -/
def Stmt.funcNamesOption : Option Stmt → List Ident
  | none => []
  | some s => s.funcNames
termination_by structural s => s

/-- The method names in the clauses of an expression switch. -/
def CaseClause.funcNamesAll : List CaseClause → List Ident
  | [] => []
  | ⟨values, body⟩ :: cs => Expr.funcNamesAll values ++ (Stmt.funcNamesAll body ++ CaseClause.funcNamesAll cs)
termination_by structural cs => cs

/-- The method names in the clauses of a type switch. -/
def TypeClause.funcNamesAll : List TypeClause → List Ident
  | [] => []
  | ⟨types, body⟩ :: cs => TypeExpr.funcNamesAll types ++ (Stmt.funcNamesAll body ++ TypeClause.funcNamesAll cs)
termination_by structural cs => cs

/-- The method names in the clauses of a select statement. -/
def CommClause.funcNamesAll : List CommClause → List Ident
  | [] => []
  | ⟨comm, body⟩ :: cs => Stmt.funcNamesOption comm ++ (Stmt.funcNamesAll body ++ CommClause.funcNamesAll cs)
termination_by structural cs => cs

/-- The method names in a declaration. -/
def Decl.funcNames : Decl → List Ident
  | .type specs => specs.flatMap TypeSpec.funcNames
  | .var specs => ValueSpec.funcNamesAll specs
  | .const specs => ValueSpec.funcNamesAll specs
termination_by structural d => d

/-- The method names in a declaration of variables or constants. -/
def ValueSpec.funcNames : ValueSpec → List Ident
  | ⟨_, _, type, values⟩ => TypeExpr.funcNamesOption type ++ Expr.funcNamesAll values
termination_by structural s => s

/-- The method names in declarations of variables or constants. -/
def ValueSpec.funcNamesAll : List ValueSpec → List Ident
  | [] => []
  | s :: ss => s.funcNames ++ ValueSpec.funcNamesAll ss
termination_by structural ss => ss

end

theorem MethodSpec.name_mem_funcNamesAll {methods : List MethodSpec} {m : MethodSpec} (hm : m ∈ methods) :
    m.name ∈ MethodSpec.funcNamesAll methods := by
  induction methods with
  | nil => cases hm
  | cons m' ms ih =>
    obtain ⟨name, sig⟩ := m'
    rcases List.mem_cons.1 hm with rfl | hm
    · exact List.mem_cons_self
    · exact List.mem_cons_of_mem _ (List.mem_append_right _ (ih hm))

theorem ValueSpec.mem_funcNamesAll {specs : List ValueSpec} {spec : ValueSpec} (hspec : spec ∈ specs) {x : Ident}
    (hx : x ∈ spec.funcNames) : x ∈ ValueSpec.funcNamesAll specs := by
  induction specs with
  | nil => cases hspec
  | cons s ss ih =>
    rcases List.mem_cons.1 hspec with rfl | hspec
    · exact List.mem_append_left _ hx
    · exact List.mem_append_right _ (ih hspec)

/-! ## Files -/

/-- The name of a function, and the method names in its declaration. -/
def FuncDecl.funcNames (f : FuncDecl) : List Ident :=
  f.name :: (TypeExpr.funcNamesOption (f.recv.map (·.type)) ++
    (f.typeParams.flatMap (·.funcNames) ++ (f.sig.funcNames ++ f.body.elim [] Stmt.funcNamesAll)))

/-- The names of functions and methods in a declaration at top level. -/
def TopDecl.funcNames : TopDecl → List Ident
  | .decl d => d.funcNames
  | .func f => f.funcNames

/-- The names of functions and methods in a file. -/
def SourceFile.funcNames (file : SourceFile) : List Ident := file.decls.flatMap TopDecl.funcNames

/-- No two names of functions or methods stand at the same place. -/
def SourceFile.FuncNamesApart (file : SourceFile) : Prop := (file.funcNames.map (·.pos)).Nodup

instance (file : SourceFile) : Decidable file.FuncNamesApart := inferInstanceAs (Decidable (List.Nodup _))

end UnusedMethods.Syntax
