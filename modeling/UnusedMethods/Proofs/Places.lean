import UnusedMethods.Proofs.FuncNames

/-!
# The places at which names are declared

`SourceFile.places` lists the places of all identifiers of a file that declare something: types, variables, constants,
functions, methods, parameters and receivers, at package level and inside of functions. What a name denotes is recorded by
its place, so a record can be trusted if no two of these identifiers share a place; `SourceFile.PlacesApart` says this.

The names of methods in a type expression are its `funcNames`; no other name in a type expression is recorded.
-/

namespace UnusedMethods.Syntax

/-- The places of identifiers. -/
def placesOf (idents : List Ident) : List Pos := idents.map (·.pos)

theorem placesOf_append (xs ys : List Ident) : placesOf (xs ++ ys) = placesOf xs ++ placesOf ys := List.map_append

theorem mem_placesOf {idents : List Ident} {x : Ident} (hx : x ∈ idents) : x.pos ∈ placesOf idents := List.mem_map_of_mem hx

/-- The names of the parameters and results of a function. -/
def FuncType.boundNames (sig : FuncType) : List Ident := sig.params.flatMap (·.names) ++ sig.results.flatMap (·.names)

/-- The places of names in the head of a function. -/
def FuncType.places (sig : FuncType) : List Pos := placesOf (sig.funcNames ++ sig.boundNames)

/-- The places of the names in a declared type, its own included. -/
def TypeSpec.places (spec : TypeSpec) : List Pos := spec.name.pos :: placesOf spec.funcNames

/-! ## Expressions and statements -/

mutual

/-- The places of names in an expression. -/
def Expr.places : Expr → List Pos
  | .ident _ _ => []
  | .lit _ _ => []
  | .composite _ type elems => placesOf (TypeExpr.funcNamesOption type) ++ Element.placesAll elems
  | .funcLit _ sig body => sig.places ++ Stmt.placesAll body
  | .selector _ operand _ => operand.places
  | .call _ func typeArgs args _ =>
    func.places ++ (placesOf (TypeExpr.funcNamesAll typeArgs) ++ Expr.placesAll args)
  | .index _ operand index => operand.places ++ index.places
  | .instantiate _ operand args => operand.places ++ placesOf (TypeExpr.funcNamesAll args)
  | .slice _ operand parts => operand.places ++ Expr.placesAll parts
  | .typeAssert _ operand type => operand.places ++ placesOf type.funcNames
  | .conversion _ type operand => placesOf type.funcNames ++ operand.places
  | .unary _ _ operand => operand.places
  | .binary _ _ left right => left.places ++ right.places
  | .paren _ inner => inner.places
  | .type _ type => placesOf type.funcNames
termination_by structural e => e

/-- The places of names in expressions. -/
def Expr.placesAll : List Expr → List Pos
  | [] => []
  | e :: es => e.places ++ Expr.placesAll es
termination_by structural es => es

/-- The places of names in an expression that may be absent. -/
def Expr.placesOption : Option Expr → List Pos
  | none => []
  | some e => e.places
termination_by structural e => e

/-- The places of names on the left of `:=`, where an identifier may declare a variable. -/
def Expr.definedPlaces : List Expr → List Pos
  | [] => []
  | .ident node _ :: es => node.pos :: Expr.definedPlaces es
  | e :: es => e.places ++ Expr.definedPlaces es
termination_by structural es => es

/-- The places of names in the elements of a composite literal. -/
def Element.placesAll : List Element → List Pos
  | [] => []
  | ⟨key, value⟩ :: es => Expr.placesOption key ++ (value.places ++ Element.placesAll es)
termination_by structural es => es

/-- The places of names in a statement. -/
def Stmt.places : Stmt → List Pos
  | .decl d => d.places
  | .define lhs rhs => Expr.definedPlaces lhs ++ Expr.placesAll rhs
  | .assign lhs rhs => Expr.placesAll lhs ++ Expr.placesAll rhs
  | .expr e => e.places
  | .incDec e => e.places
  | .send chan value => chan.places ++ value.places
  | .go call => call.places
  | .defer call => call.places
  | .return values => Expr.placesAll values
  | .block body => Stmt.placesAll body
  | .if init cond body orElse =>
    Stmt.placesOption init ++ (cond.places ++ (Stmt.placesAll body ++ Stmt.placesOption orElse))
  | .for init cond post body =>
    Stmt.placesOption init ++ (Expr.placesOption cond ++ (Stmt.placesOption post ++ Stmt.placesAll body))
  | .range vars _ subject body => Expr.definedPlaces vars ++ (subject.places ++ Stmt.placesAll body)
  | .switch init tag clauses =>
    Stmt.placesOption init ++ (Expr.placesOption tag ++ CaseClause.placesAll clauses)
  | .typeSwitch init binding subject clauses =>
    Stmt.placesOption init ++ (placesOf binding.toList ++ (subject.places ++ TypeClause.placesAll clauses))
  | .select clauses => CommClause.placesAll clauses
  | .labeled inner => inner.places
  | .branch => []
  | .empty => []
termination_by structural s => s

/-- The places of names in statements. -/
def Stmt.placesAll : List Stmt → List Pos
  | [] => []
  | s :: ss => s.places ++ Stmt.placesAll ss
termination_by structural ss => ss

/-- The places of names in a statement that may be absent. -/
def Stmt.placesOption : Option Stmt → List Pos
  | none => []
  | some s => s.places
termination_by structural s => s

/-- The places of names in the clauses of an expression switch. -/
def CaseClause.placesAll : List CaseClause → List Pos
  | [] => []
  | ⟨values, body⟩ :: cs => Expr.placesAll values ++ (Stmt.placesAll body ++ CaseClause.placesAll cs)
termination_by structural cs => cs

/-- The places of names in the clauses of a type switch. -/
def TypeClause.placesAll : List TypeClause → List Pos
  | [] => []
  | ⟨types, body⟩ :: cs => placesOf (TypeExpr.funcNamesAll types) ++ (Stmt.placesAll body ++ TypeClause.placesAll cs)
termination_by structural cs => cs

/-- The places of names in the clauses of a select statement. -/
def CommClause.placesAll : List CommClause → List Pos
  | [] => []
  | ⟨comm, body⟩ :: cs => Stmt.placesOption comm ++ (Stmt.placesAll body ++ CommClause.placesAll cs)
termination_by structural cs => cs

/-- The places of names in a declaration. -/
def Decl.places : Decl → List Pos
  | .type specs => specs.flatMap TypeSpec.places
  | .var specs => ValueSpec.placesAll specs
  | .const specs => ValueSpec.placesAll specs
termination_by structural d => d

/-- The places of names in a declaration of variables or constants. -/
def ValueSpec.places : ValueSpec → List Pos
  | ⟨_, names, type, values⟩ => placesOf names ++ (placesOf (TypeExpr.funcNamesOption type) ++ Expr.placesAll values)
termination_by structural s => s

/-- The places of names in declarations of variables or constants. -/
def ValueSpec.placesAll : List ValueSpec → List Pos
  | [] => []
  | s :: ss => s.places ++ ValueSpec.placesAll ss
termination_by structural ss => ss

end

/-! ## Files -/

/-- The places of names in a function, its own included. -/
def FuncDecl.places (f : FuncDecl) : List Pos :=
  f.name.pos :: (placesOf (f.recv.elim [] (·.names)) ++
    (placesOf (f.typeParams.flatMap (·.funcNames)) ++ (f.sig.places ++ f.body.elim [] Stmt.placesAll)))

/-- Something holds of all places of names in a function, part by part. -/
structure FuncDecl.PlacesHave (P : Pos → Prop) (f : FuncDecl) : Prop where
  name : P f.name.pos
  recv : ∀ x ∈ f.recv.elim [] (·.names), P x.pos
  typeParams : ∀ x ∈ f.typeParams.flatMap (·.funcNames), P x.pos
  sig : ∀ x ∈ f.sig.funcNames, P x.pos
  bound : ∀ x ∈ f.sig.boundNames, P x.pos
  body : ∀ p ∈ f.body.elim [] Stmt.placesAll, P p

theorem FuncDecl.forall_mem_places {P : Pos → Prop} {f : FuncDecl} (h : ∀ p ∈ f.places, P p) : f.PlacesHave P := by
  obtain ⟨hname, hrest⟩ := List.forall_mem_cons.1 h
  obtain ⟨hrecv, hrest⟩ := List.forall_mem_append.1 hrest
  obtain ⟨hparams, hrest⟩ := List.forall_mem_append.1 hrest
  obtain ⟨hsig, hbody⟩ := List.forall_mem_append.1 hrest
  obtain ⟨hfuncs, hbound⟩ := List.forall_mem_append.1 (List.forall_mem_map.1 hsig)
  exact ⟨hname, List.forall_mem_map.1 hrecv, List.forall_mem_map.1 hparams, hfuncs, hbound, hbody⟩

/-- The places of names in a declaration at top level. -/
def TopDecl.places : TopDecl → List Pos
  | .decl d => d.places
  | .func f => f.places

/-- The places of the names that a file declares. -/
def SourceFile.places (file : SourceFile) : List Pos := file.decls.flatMap TopDecl.places

/-- No two names that a file declares stand at the same place. -/
def SourceFile.PlacesApart (file : SourceFile) : Prop := file.places.Nodup

instance (file : SourceFile) : Decidable file.PlacesApart := inferInstanceAs (Decidable (List.Nodup _))

end UnusedMethods.Syntax
