import UnusedMethods.Types.Inference
import UnusedMethods.Typing.Resolve

/-!
# Types of expressions, and statements

The type of every expression is found and recorded, together with what it denotes and what its
selectors pick. An expression that makes no sense has the invalid type; checking goes on.
-/

namespace UnusedMethods.Typing

open Syntax UnusedMethods.Types

/-! ### Types that follow from other types -/

def arrayElem? (t : Table) (under : TypeId) : Option TypeId :=
  match t.get under with
  | .array _ elem => some elem
  | .pointer p =>
    match t.get (t.underlying p) with
    | .array _ elem => some elem
    | _ => none
  | _ => none

/-- The type of `x[i]` for `x` of the given type. -/
def indexedType (t : Table) (type : TypeId) : TypeId :=
  let under := t.underlying type
  match t.get under with
  | .slice elem => elem
  | .map _ value => value
  | .basic .string | .basic .untypedString => BasicKind.uint8.typeId
  | _ => (arrayElem? t under).getD .invalid

/-- The type of `x[i:j]` for `x` of the given type. -/
def slicedType (type : TypeId) : Build TypeId := do
  let t ← get
  let under := t.underlying type
  match t.get under with
  | .array _ elem => Build.slice elem
  | .pointer _ =>
    match arrayElem? t under with
    | some elem => Build.slice elem
    | none => return .invalid
  | .basic .untypedString => return BasicKind.string.typeId
  | _ => return type

/-- The types of key and value when ranging over a value of the given type. -/
def rangeTypes (t : Table) (type : TypeId) : TypeId × TypeId :=
  let int := BasicKind.int.typeId
  let under := t.underlying type
  match t.get under with
  | .slice elem | .array _ elem => (int, elem)
  | .pointer _ =>
    match arrayElem? t under with
    | some elem => (int, elem)
    | none => (.invalid, .invalid)
  | .map key value => (key, value)
  | .chan _ elem => (elem, .invalid)
  | .basic .string | .basic .untypedString => (int, BasicKind.int32.typeId)
  | .basic _ => (t.defaultType type, .invalid)
  | .signature s =>
    let yielded := (s.params.head?.bind t.signature?).elim [] (·.params)
    (yielded[0]?.getD .invalid, yielded[1]?.getD .invalid)
  | _ => (.invalid, .invalid)

def isUntyped (t : Table) (type : TypeId) : Bool :=
  match t.get type with
  | .basic k => k.isUntyped
  | _ => false

def literalType : LitKind → TypeId
  | .int => BasicKind.untypedInt.typeId
  | .float => BasicKind.untypedFloat.typeId
  | .imag => BasicKind.complex128.typeId
  | .rune => BasicKind.untypedRune.typeId
  | .string => BasicKind.untypedString.typeId

def unaryType (op : String) (type : TypeId) : Build TypeId := do
  let t ← get
  match op with
  | "&" => Build.pointer type
  | "*" =>
    match t.get type with
    | .pointer elem => return elem
    | _ => return .invalid
  | "<-" =>
    match t.get (t.underlying type) with
    | .chan _ elem => return elem
    | _ => return .invalid
  | _ => return type

def binaryType (t : Table) (op : String) (left right : TypeId) : TypeId :=
  if ["==", "!=", "<", "<=", ">", ">="].contains op then BasicKind.untypedBool.typeId
  else if op = "<<" ∨ op = ">>" then left
  else if isUntyped t left then right
  else left

def inferredType (t : Table) (type : TypeId) : TypeId :=
  match t.get type with
  | .basic .untypedNil => .invalid
  | _ => t.defaultType type

/-- The types of `n` variables that are declared by one value: the results of a call, or the value
and whether there is one. -/
def spreadTypes (t : Table) (n : Nat) (type : TypeId) : List TypeId :=
  match t.get type with
  | .tuple elems => elems
  | _ => type :: List.replicate (n - 1) BasicKind.bool.typeId

/-- The type of a call of a predeclared function, where `denoted` is the type that the first argument
denotes and `args` are the types of the arguments. -/
def builtinType (b : Builtin) (denoted : Option TypeId) (args : List TypeId) : Build TypeId := do
  match b with
  | .len | .cap | .copy => return BasicKind.int.typeId
  | .append => return args.headD .invalid
  | .make => return denoted.getD .invalid
  | .new =>
    match denoted with
    | some type => Build.pointer type
    | none => return .invalid
  | .complex => return BasicKind.complex128.typeId
  | .real | .imag => return BasicKind.float64.typeId
  | .recover => return .emptyInterface
  | .min | .max =>
    let t ← get
    return (args.find? fun type => !isUntyped t type).getD (args.headD .invalid)
  | .clear | .close | .delete | .panic | .print | .println => Build.push (.tuple [])

/-! ### Selectors -/

/-- The method expression `T.m`: a function whose first parameter is the receiver. -/
def selectFromType (id : Nat) (recv : TypeId) (name : String) : Checking TypeId := do
  let t ← getThe Table
  match t.lookup recv name with
  | some { member := .method m, .. } =>
    let type ←
      match t.signature? (t.func m).sig with
      | some s => Build.signature (recv :: s.params) s.results s.variadic
      | none => pure .invalid
    Checking.noteSelection id { kind := .methodExpr, recv, method := some m, type }
    return type
  | _ => return .invalid

/-- The field or method `x.f` of a value of type `recv`. -/
def selectFromValue (id : Nat) (recv : TypeId) (name : String) : Checking TypeId := do
  if recv = .invalid then return .invalid
  let t ← getThe Table
  match t.lookup recv name with
  | some { member := .method m, .. } =>
    let type := (t.func m).sig
    Checking.noteSelection id { kind := .methodVal, recv, method := some m, type }
    return type
  | some { member := .field type, .. } =>
    Checking.noteSelection id { kind := .fieldVal, recv, method := none, type }
    return type
  | none => return .invalid

def packageDenoted? : Expr → Checking (Option PackageId)
  | .ident _ name => do
    match ← Checking.lookup name with
    | some (.package id) => return some id
    | _ => return none
  | _ => return none

def builtinDenoted? : Expr → Checking (Option Builtin)
  | .ident _ name => do
    match ← Checking.lookup name with
    | some (.builtin b) => return some b
    | _ => return none
  | _ => return none

/-- The member `p.name` of a package. -/
def selectFromPackage (id : Nat) (package : PackageId) (name : String) : Checking TypeId := do
  match ← Checking.member package name with
  | some obj =>
    Checking.noteUse id obj
    Checking.ask obj.type
  | none => return .invalid

/-! ### Generic functions -/

def objectDenoted? : Expr → Checking (Option Object)
  | .ident _ name => Checking.lookup name
  | .selector _ (.ident _ package) field => Checking.qualified package field.name
  | _ => return none

/-- The signature of a generic function with explicit type arguments; none if the operand is not a
generic function. -/
def funcInstance? (operand : Expr) (args : Checking (List TypeId)) : Checking (Option TypeId) := do
  match ← objectDenoted? operand with
  | some (.func f) =>
    let typeParams ← Checking.ask fun t => (t.func f).typeParams
    if typeParams.isEmpty then return none
    Checking.noteUse operand.id (.func f)
    let args ← args
    let sig ← Checking.ask fun t => (t.func f).sig
    let type ← Build.subst sig (typeParams.zip args)
    Checking.noteType operand.id type
    return some type
  | _ => return none

/-- What the arguments of a call show about the type parameters of the function. An argument beyond the
last parameter belongs to the last one. If there are not as many arguments as parameters, those of a
variadic parameter are its elements. -/
def unifyArgs (t : Table) (typeParams : List TypeId) (sig : Signature) (args : List TypeId)
    (bound : Subst) : Subst :=
  args.zipIdx.foldl (fun bound (arg, i) =>
    match sig.params[min i (sig.params.length - 1)]? with
    | none => bound
    | some param =>
      let inTail := sig.variadic && i + 1 ≥ sig.params.length && args.length != sig.params.length
      let param :=
        match t.get param with
        | .slice elem => if inTail then elem else param
        | _ => param
      t.unify param arg typeParams bound) bound

/-- The signature of the callee at a call, with type parameters replaced if it is a generic function
that has not been instantiated yet. -/
def calleeSignature (func : Expr) (type : TypeId) (typeArgs : List TypeExpr) (args : List TypeId) :
    Checking TypeId := do
  match ← Checking.useOf? func.id with
  | some (.func f) =>
    let callee ← Checking.ask (·.func f)
    if callee.typeParams.isEmpty || callee.sig != type then return type
    let explicit ← resolveTypes typeArgs
    let t ← getThe Table
    let bound := callee.typeParams.zip explicit
    let bound := (t.signature? type).elim bound fun sig => unifyArgs t callee.typeParams sig args bound
    let type ← Build.subst type bound
    Checking.noteType func.id type
    return type
  | _ => return type

/-- The type of a call: the only result, or the tuple of results. -/
def resultType (sig : TypeId) : Build TypeId := do
  match (← get).signature? sig with
  | some { results := [type], .. } => return type
  | some s => Build.push (.tuple s.results)
  | none => return .invalid

/-! ### Names -/

def bindFields : List Field → List TypeId → Checking Unit
  | [], _ => return
  | f :: fs, types => do
    f.names.zipIdx.forM fun (name, i) => Checking.declareLocal name (.var (types[i]?.getD .invalid))
    bindFields fs (types.drop (max f.names.length 1))

/-- Declares the names of the parameters and results of a function. -/
def bindSignature (syn : FuncType) (sig : TypeId) : Checking Unit := do
  match ← Checking.ask (·.signature? sig) with
  | some s =>
    bindFields syn.params s.params
    bindFields syn.results s.results
  | none => return

def bindTypeParams (names : List Ident) (params : List TypeId) : Checking Unit :=
  (names.zip params).forM fun (name, param) => do
    if !name.isBlank then
      Checking.defineLocal name.name (.typeName param)

/-- Declares an identifier on the left of `:=`, or uses what the innermost scope already has under that
name. -/
def defineIdent (node : Node) (name : String) (type : TypeId) : Checking Unit := do
  if name = "_" then return
  match ← Checking.innermost? name with
  | some obj =>
    Checking.noteUse node.id obj
    Checking.noteType node.id (← Checking.ask obj.type)
  | none =>
    Checking.defineLocal name (.var type)
    Checking.noteDef node.pos (.var type)
    Checking.noteType node.id type

def checkLocalType (spec : TypeSpec) : Checking Unit := do
  if spec.isAlias then
    let type ← resolveType spec.type
    Checking.declareLocal spec.name (.typeName type)
  else
    let named ← Build.newNamed spec.name.name (some (← read).path)
    Checking.declareLocal spec.name (.typeName named)
    let rhs ← resolveType spec.type
    Checking.change (·.setRhs named rhs)

/-! ### Expressions and statements -/

def recorded (e : Expr) (x : Checking TypeId) : Checking TypeId := do
  let type ← x
  Checking.noteType e.id type
  return type

def denotedOr (e : Expr) (x : Checking TypeId) : Checking TypeId := do
  match ← typeDenoted? e with
  | some type =>
    Checking.noteUse e.id (.typeName type)
    return type
  | none => x

/-- The types of key and value of the elements of a composite literal that is no struct. -/
def elementHints (t : Table) (under : TypeId) : Option TypeId × Option TypeId :=
  match t.get under with
  | .slice elem | .array _ elem => (none, some elem)
  | .map key value => (some key, some value)
  | _ => (none, none)

/-- The type of a composite literal without its pointer, and with it. Where no type is written, the
literal has the type that is expected. -/
def literalTypes (type : Option TypeExpr) (hint : Option TypeId) : Checking (TypeId × TypeId) := do
  match type, hint with
  | some type, _ =>
    let type ← resolveType type
    return (type, type)
  | none, some hint => return ((← Checking.ask (·.deref hint)).1, hint)
  | none, none => return (.invalid, .invalid)

def fieldHint (fields : List Types.StructField) (i : Nat) : Option Expr → Option TypeId
  | some (.ident _ name) => (fields.find? (·.name = name)).map (·.type)
  | some _ => none
  | none => fields[i]?.map (·.type)

def repeatConsts (level : Level) (names : List Ident) (source : Option ValueSpec) : Checking Unit := do
  let declared ← (source.bind (·.type)).mapM resolveType
  let typeOf? ← Checking.knownTypes
  let values := source.elim [] (·.values)
  names.zipIdx.forM fun (name, i) =>
    let type := declared.getD ((values[i]?.bind fun v => typeOf? v.id).getD .invalid)
    Checking.declare level name (.const type)

mutual

/-- The type of an expression. A composite literal without a type takes the type `hint`. -/
def checkExpr : Expr → Option TypeId → Checking TypeId
  | .ident node name, _ => denotedOr (.ident node name) do
    if name = "_" then return .invalid
    match ← Checking.lookup name with
    | some obj =>
      Checking.noteUse node.id obj
      Checking.ask obj.type
    | none => return .invalid
  | .lit _ kind, _ => return literalType kind
  | .composite _ type elems, hint => do
    let (lit, result) ← literalTypes type hint
    let t ← getThe Table
    let under := t.underlying lit
    match t.get under with
    | .struct fields => checkFieldValues fields 0 elems
    | _ =>
      let (key, value) := elementHints t under
      checkElements key value elems
    return result
  | .funcLit _ sig body, _ => do
    let type ← resolveSignature sig
    Checking.inScope do
      bindSignature sig type
      Checking.inScope (checkStmts body)
    return type
  | .selector node operand field, _ => denotedOr (.selector node operand field) do
    match ← packageDenoted? operand with
    | some package =>
      Checking.noteUse operand.id (.package package)
      selectFromPackage node.id package field.name
    | none =>
      match ← typeDenoted? operand with
      | some recv =>
        Checking.noteUse operand.id (.typeName recv)
        Checking.noteType operand.id recv
        selectFromType node.id recv field.name
      | none =>
        let recv ← recorded operand (checkExpr operand none)
        selectFromValue node.id recv field.name
  | .call _ func typeArgs args _, _ => do
    match ← typeDenoted? func with
    | some type =>
      Checking.noteUse func.id (.typeName type)
      Checking.noteType func.id type
      let _ ← checkExprs none args
      return type
    | none =>
      match ← builtinDenoted? func with
      | some b =>
        Checking.noteUse func.id (.builtin b)
        checkBuiltin b args
      | none =>
        let type ← recorded func (checkExpr func none)
        let argTypes ← checkExprs none args
        let sig ← calleeSignature func type typeArgs argTypes
        resultType sig
  | .index node operand index, _ => denotedOr (.index node operand index) do
    match ← funcInstance? operand (return (← typeDenoted? index).toList) with
    | some type => return type
    | none =>
      let type ← recorded operand (checkExpr operand none)
      let _ ← recorded index (checkExpr index none)
      Checking.ask (indexedType · type)
  | .instantiate node operand args, _ => denotedOr (.instantiate node operand args) do
    return (← funcInstance? operand (resolveTypes args)).getD .invalid
  | .slice _ operand parts, _ => do
    let type ← recorded operand (checkExpr operand none)
    let _ ← checkExprs none parts
    slicedType type
  | .typeAssert _ operand type, _ => do
    let _ ← recorded operand (checkExpr operand none)
    resolveType type
  | .conversion _ type operand, _ => do
    let _ ← recorded operand (checkExpr operand none)
    resolveType type
  | .unary node op operand, _ => denotedOr (.unary node op operand) do
    let type ← recorded operand (checkExpr operand none)
    unaryType op type
  | .binary _ op left right, _ => do
    let l ← recorded left (checkExpr left none)
    let r ← recorded right (checkExpr right none)
    Checking.ask (binaryType · op l r)
  | .paren node inner, hint => denotedOr (.paren node inner) do
    recorded inner (checkExpr inner hint)
  | .type node type, _ => denotedOr (.type node type) (return .invalid)
termination_by structural e => e

def checkExprs (hint : Option TypeId) : List Expr → Checking (List TypeId)
  | [] => return []
  | e :: es => do
    let type ← recorded e (checkExpr e hint)
    return type :: (← checkExprs hint es)
termination_by structural es => es

def checkOptionalExpr : Option Expr → Checking Unit
  | none => return
  | some e => do
    let _ ← recorded e (checkExpr e none)
termination_by structural e => e

/-- The types of the values of `n` variables. -/
def checkValues (n : Nat) (hint : Option TypeId) : List Expr → Checking (List TypeId)
  | [] => return []
  | [e] => do
    if n > 1 then
      let type ← recorded e (checkExpr e none)
      Checking.ask (spreadTypes · n type)
    else
      return [← recorded e (checkExpr e hint)]
  | d :: e :: es => do
    let first ← recorded d (checkExpr d hint)
    let second ← recorded e (checkExpr e hint)
    return first :: second :: (← checkExprs hint es)
termination_by structural es => es

def checkBuiltin (b : Builtin) : List Expr → Checking TypeId
  | [] => builtinType b none []
  | e :: es => do
    let denoted ← typeDenoted? e
    match denoted, b.takesType with
    | some type, true =>
      Checking.noteUse e.id (.typeName type)
      Checking.noteType e.id type
      builtinType b denoted (← checkExprs none es)
    | _, _ =>
      let first ← recorded e (checkExpr e none)
      builtinType b denoted (first :: (← checkExprs none es))
termination_by structural es => es

def checkElements (keyHint valueHint : Option TypeId) : List Element → Checking Unit
  | [] => return
  | ⟨none, value⟩ :: es => do
    let _ ← recorded value (checkExpr value valueHint)
    checkElements keyHint valueHint es
  | ⟨some key, value⟩ :: es => do
    let _ ← recorded key (checkExpr key keyHint)
    let _ ← recorded value (checkExpr value valueHint)
    checkElements keyHint valueHint es
termination_by structural es => es

/-- Checks the values in a struct literal; `i` is the index of the first. The keys are names of fields
and are not checked. -/
def checkFieldValues (fields : List Types.StructField) (i : Nat) : List Element → Checking Unit
  | [] => return
  | ⟨key, value⟩ :: es => do
    let _ ← recorded value (checkExpr value (fieldHint fields i key))
    checkFieldValues fields (i + 1) es
termination_by structural es => es

def checkStmt : Stmt → Checking Unit
  | .decl d => checkLocalDecl d
  | .define lhs rhs => do
    let types ← checkValues lhs.length none rhs
    defineAll lhs types
  | .assign lhs rhs => do
    let _ ← checkExprs none lhs
    let _ ← checkValues lhs.length none rhs
  | .expr e => do
    let _ ← recorded e (checkExpr e none)
  | .incDec e => do
    let _ ← recorded e (checkExpr e none)
  | .go e => do
    let _ ← recorded e (checkExpr e none)
  | .defer e => do
    let _ ← recorded e (checkExpr e none)
  | .send chan value => do
    let _ ← recorded chan (checkExpr chan none)
    let _ ← recorded value (checkExpr value none)
  | .return values => do
    let _ ← checkExprs none values
  | .block body => Checking.inScope (checkStmts body)
  | .if init cond body orElse => Checking.inScope do
    checkOptionalStmt init
    let _ ← recorded cond (checkExpr cond none)
    Checking.inScope (checkStmts body)
    checkOptionalStmt orElse
  | .for init cond post body => Checking.inScope do
    checkOptionalStmt init
    checkOptionalExpr cond
    checkOptionalStmt post
    Checking.inScope (checkStmts body)
  | .range vars define subject body => Checking.inScope do
    let type ← recorded subject (checkExpr subject none)
    let (keyType, valueType) ← Checking.ask (rangeTypes · type)
    checkRangeVars define vars [keyType, valueType]
    Checking.inScope (checkStmts body)
  | .switch init tag clauses => Checking.inScope do
    checkOptionalStmt init
    checkOptionalExpr tag
    checkCaseClauses clauses
  | .typeSwitch init binding subject clauses => Checking.inScope do
    checkOptionalStmt init
    let type ← recorded subject (checkExpr subject none)
    checkTypeClauses binding type clauses
  | .select clauses => checkCommClauses clauses
  | .labeled inner => checkStmt inner
  | .branch => return
  | .empty => return
termination_by structural s => s

def checkStmts : List Stmt → Checking Unit
  | [] => return
  | s :: ss => do
    checkStmt s
    checkStmts ss
termination_by structural ss => ss

def checkOptionalStmt : Option Stmt → Checking Unit
  | none => return
  | some s => checkStmt s
termination_by structural s => s

/-- Declares what stands on the left of `:=`. -/
def defineAll : List Expr → List TypeId → Checking Unit
  | [], _ => return
  | e :: es, types => do
    let type ← Checking.ask (inferredType · (types.headD .invalid))
    match e with
    | .ident node name => defineIdent node name type
    | _ =>
      let _ ← recorded e (checkExpr e none)
    defineAll es types.tail
termination_by structural es => es

/-- Declares or checks the variables of a range clause, as far as there are types for them. -/
def checkRangeVars (define : Bool) : List Expr → List TypeId → Checking Unit
  | [], _ => return
  | _ :: _, [] => return
  | e :: es, type :: types => do
    match define, e with
    | true, .ident node name => defineIdent node name type
    | _, _ =>
      let _ ← recorded e (checkExpr e none)
    checkRangeVars define es types
termination_by structural es => es

def checkCaseClauses : List CaseClause → Checking Unit
  | [] => return
  | ⟨values, body⟩ :: cs => do
    let _ ← checkExprs none values
    Checking.inScope (checkStmts body)
    checkCaseClauses cs
termination_by structural cs => cs

/-- Checks the clauses of a type switch. The binding has the type of the clause if that is a single valid
type, else the type of the subject. -/
def checkTypeClauses (binding : Option Ident) (subject : TypeId) : List TypeClause → Checking Unit
  | [] => return
  | ⟨types, body⟩ :: cs => do
    let types ← resolveTypes types
    Checking.inScope do
      match binding with
      | some name =>
        let type :=
          match types with
          | [type] => if type = .invalid then subject else type
          | _ => subject
        Checking.declareLocal name (.var type)
      | none => pure ()
      checkStmts body
    checkTypeClauses binding subject cs
termination_by structural cs => cs

def checkCommClauses : List CommClause → Checking Unit
  | [] => return
  | ⟨comm, body⟩ :: cs => do
    Checking.inScope do
      checkOptionalStmt comm
      checkStmts body
    checkCommClauses cs
termination_by structural cs => cs

def checkLocalDecl : Decl → Checking Unit
  | .var specs => checkVarSpecs .local specs
  | .const specs => checkConstSpecs .local none specs
  | .type specs => specs.forM checkLocalType
termination_by structural d => d

def checkVarSpec (level : Level) : ValueSpec → Checking Unit
  | ⟨_, names, type, values⟩ => do
    let declared ← type.mapM resolveType
    let types ← checkValues names.length declared values
    names.zipIdx.forM fun (name, i) => do
      let inferred ← Checking.ask (inferredType · (types[i]?.getD .invalid))
      Checking.declare level name (.var (declared.getD inferred))
termination_by structural s => s

def checkVarSpecs (level : Level) : List ValueSpec → Checking Unit
  | [] => return
  | s :: ss => do
    checkVarSpec level s
    checkVarSpecs level ss
termination_by structural ss => ss

/-- Declares the constants of a group. A spec without type and values repeats the last one that has them. -/
def checkConstSpecs (level : Level) (last : Option ValueSpec) : List ValueSpec → Checking Unit
  | [] => return
  | ⟨pos, names, type, values⟩ :: ss => do
    if values.isEmpty && type.isNone then
      repeatConsts level names last
      checkConstSpecs level last ss
    else
      let declared ← type.mapM resolveType
      checkConstValues level declared names values
      checkConstSpecs level (some ⟨pos, names, type, values⟩) ss
termination_by structural ss => ss

/-- Declares constants with their values. Values without a name are not checked. -/
def checkConstValues (level : Level) (declared : Option TypeId) : List Ident → List Expr → Checking Unit
  | names, [] => names.forM fun name => Checking.declare level name (.const (declared.getD .invalid))
  | [], _ :: _ => return
  | name :: names, e :: es => do
    let type ← recorded e (checkExpr e none)
    Checking.declare level name (.const (declared.getD type))
    checkConstValues level declared names es
termination_by structural _ es => es

end

end UnusedMethods.Typing
