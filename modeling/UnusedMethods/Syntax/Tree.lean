import UnusedMethods.Syntax.Position

/-!
# Syntax trees

Types, expressions, statements and declarations as they are written in a source file. Every
expression carries a `Node`: its place and a number that is unique within its file, by which
facts about the expression are recorded.
-/

namespace UnusedMethods.Syntax

inductive ChanDir where
  | both
  | send
  | recv
deriving DecidableEq

inductive LitKind where
  | int
  | float
  | imag
  | rune
  | string
deriving DecidableEq

mutual

/-- A type as written. Parentheses around a type leave no trace. -/
inductive TypeExpr where
  | name (id : Ident)
  | qualified (package name : Ident)
  | generic (base : TypeExpr) (args : List TypeExpr)
  | pointer (elem : TypeExpr)
  | slice (elem : TypeExpr)
  /-- The length is absent for `[...]T` and where it is not a literal that fits 64 bits. -/
  | array (len : Option Nat) (elem : TypeExpr)
  | map (key value : TypeExpr)
  | chan (dir : ChanDir) (elem : TypeExpr)
  | func (sig : FuncType)
  | interface (methods : List MethodSpec) (embeds : List TypeExpr)
  | struct (fields : List StructField)
  | union (terms : List TypeExpr)
  | tilde (elem : TypeExpr)
  | bad

/-- Parameters and results. If `variadic`, the last parameter is `...T` and its field holds `T`. -/
structure FuncType where
  params : List Field
  results : List Field
  variadic : Bool

/-- A group of parameters of one type. No names means one unnamed parameter. -/
structure Field where
  pos : Pos
  names : List Ident
  type : TypeExpr

/-- A method written in an interface body. -/
structure MethodSpec where
  name : Ident
  sig : FuncType

/-- A group of struct fields of one type. An embedded field has its single implicit name. -/
structure StructField where
  names : List Ident
  type : TypeExpr
  embedded : Bool

end

def TypeExpr.baseName? : TypeExpr → Option Ident
  | .name id => some id
  | .qualified _ typeName => some typeName
  | .generic base _ => base.baseName?
  | .pointer elem => elem.baseName?
  | _ => none

structure TypeParamDecl where
  names : List Ident
  constraint : TypeExpr

/-- One declared type; an alias if written with `=`. -/
structure TypeSpec where
  name : Ident
  typeParams : List TypeParamDecl
  isAlias : Bool
  type : TypeExpr

/-- Label of an expression: its number within the file and its place. -/
structure Node where
  id : Nat
  pos : Pos
deriving DecidableEq, Inhabited

mutual

/-- An expression. `true`, `false`, `nil` and `iota` are identifiers. -/
inductive Expr where
  | ident (node : Node) (name : String)
  | lit (node : Node) (kind : LitKind)
  | composite (node : Node) (type : Option TypeExpr) (elems : List Element)
  | funcLit (node : Node) (sig : FuncType) (body : List Stmt)
  | selector (node : Node) (operand : Expr) (field : Ident)
  | call (node : Node) (func : Expr) (typeArgs : List TypeExpr) (args : List Expr) (spread : Bool)
  | index (node : Node) (operand index : Expr)
  | instantiate (node : Node) (operand : Expr) (args : List TypeExpr)
  | slice (node : Node) (operand : Expr) (parts : List Expr)
  | typeAssert (node : Node) (operand : Expr) (type : TypeExpr)
  | conversion (node : Node) (type : TypeExpr) (operand : Expr)
  | unary (node : Node) (op : String) (operand : Expr)
  | binary (node : Node) (op : String) (left right : Expr)
  | paren (node : Node) (inner : Expr)
  /-- A type in the place of an expression, as in `make([]T, n)`. -/
  | type (node : Node) (type : TypeExpr)

structure Element where
  key : Option Expr
  value : Expr

inductive Stmt where
  | decl (d : Decl)
  | define (lhs rhs : List Expr)
  | assign (lhs rhs : List Expr)
  | expr (e : Expr)
  | incDec (e : Expr)
  | send (chan value : Expr)
  | go (call : Expr)
  | defer (call : Expr)
  | return (values : List Expr)
  | block (body : List Stmt)
  | if (init : Option Stmt) (cond : Expr) (body : List Stmt) (orElse : Option Stmt)
  | for (init : Option Stmt) (cond : Option Expr) (post : Option Stmt) (body : List Stmt)
  /-- Of the variables only the first two, for key and value, have a meaning. -/
  | range (vars : List Expr) (define : Bool) (subject : Expr) (body : List Stmt)
  | switch (init : Option Stmt) (tag : Option Expr) (clauses : List CaseClause)
  | typeSwitch (init : Option Stmt) (binding : Option Ident) (subject : Expr)
      (clauses : List TypeClause)
  | select (clauses : List CommClause)
  | labeled (inner : Stmt)
  | branch
  | empty

/-- A clause of an expression switch; `default` has no values. -/
structure CaseClause where
  values : List Expr
  body : List Stmt

/-- A clause of a type switch; `default` has no types. -/
structure TypeClause where
  types : List TypeExpr
  body : List Stmt

/-- A clause of a select; `default` has no communication. -/
structure CommClause where
  comm : Option Stmt
  body : List Stmt

/-- A declaration that may stand at top level and inside a function. -/
inductive Decl where
  | type (specs : List TypeSpec)
  | var (specs : List ValueSpec)
  | const (specs : List ValueSpec)

/-- Variables or constants with their type and values. -/
structure ValueSpec where
  pos : Pos
  names : List Ident
  type : Option TypeExpr
  values : List Expr

end

def Expr.node : Expr → Node
  | .ident n _ | .lit n _ | .composite n _ _ | .funcLit n _ _ | .selector n _ _
  | .call n _ _ _ _ | .index n _ _ | .instantiate n _ _ | .slice n _ _ | .typeAssert n _ _
  | .conversion n _ _ | .unary n _ _ | .binary n _ _ _ | .paren n _ | .type n _ => n

def Expr.id (e : Expr) : Nat := e.node.id

def Expr.pos (e : Expr) : Pos := e.node.pos

/-- A function or, with a receiver, a method. -/
structure FuncDecl where
  name : Ident
  recv : Option Field
  typeParams : List TypeParamDecl
  sig : FuncType
  body : Option (List Stmt)

inductive TopDecl where
  | decl (d : Decl)
  | func (f : FuncDecl)

/-- An import; the name is an identifier, `_` or `.`. -/
structure ImportSpec where
  pos : Pos
  name : Option Ident
  path : String

structure SourceFile where
  package : Ident
  imports : List ImportSpec
  decls : List TopDecl

end UnusedMethods.Syntax
