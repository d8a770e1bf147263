import UnusedMethods.Typing.Checking

/-!
# The types that type expressions denote

What cannot be resolved denotes the invalid type.
-/

namespace UnusedMethods.Typing

open Syntax UnusedMethods.Types

mutual

def resolveType : TypeExpr → Checking TypeId
  | .name id => return (← Checking.typeNamed? id.name).getD .invalid
  | .qualified package name => return (← Checking.qualifiedType? package.name name.name).getD .invalid
  | .generic base args => do
    let base ← resolveType base
    let args ← resolveTypes args
    if base = .invalid then return .invalid else Build.instantiate base args
  | .pointer elem => do Build.pointer (← resolveType elem)
  | .slice elem => do Build.slice (← resolveType elem)
  | .array len elem => do Build.push (.array len (← resolveType elem))
  | .map key value => do
    let key ← resolveType key
    let value ← resolveType value
    Build.push (.map key value)
  | .chan dir elem => do Build.push (.chan dir (← resolveType elem))
  | .func sig => resolveSignature sig
  | .interface methods embeds => do
    let explicit ← resolveMethods methods
    let embedded ← resolveTypes embeds
    Build.interface explicit embedded
  | .struct fields => do Build.push (.struct (← resolveStructFields fields))
  | .union terms => do Build.push (.union (← resolveTerms terms))
  | .tilde elem => do Build.push (.union [{ tilde := true, type := ← resolveType elem }])
  | .bad => return .invalid
termination_by structural t => t

def resolveTypes : List TypeExpr → Checking (List TypeId)
  | [] => return []
  | t :: ts => do
    let t ← resolveType t
    return t :: (← resolveTypes ts)
termination_by structural ts => ts

def resolveTerms : List TypeExpr → Checking (List Term)
  | [] => return []
  | .tilde elem :: ts => do
    let type ← resolveType elem
    return { tilde := true, type } :: (← resolveTerms ts)
  | t :: ts => do
    let type ← resolveType t
    return { tilde := false, type } :: (← resolveTerms ts)
termination_by structural ts => ts

def resolveSignature : FuncType → Checking TypeId
  | ⟨params, results, variadic⟩ => do
    let params ← resolveFields variadic params
    let results ← resolveFields false results
    Build.signature params results variadic
termination_by structural f => f

/-- The types of parameters, one for each name. If `variadic`, the last is a slice. -/
def resolveFields (variadic : Bool) : List Field → Checking (List TypeId)
  | [] => return []
  | ⟨_, names, type⟩ :: fs => do
    let type ← resolveType type
    let type ← if variadic && fs.isEmpty then Build.slice type else pure type
    return List.replicate (max names.length 1) type ++ (← resolveFields variadic fs)
termination_by structural fs => fs

def resolveMethods : List MethodSpec → Checking (List FuncId)
  | [] => return []
  | ⟨name, sig⟩ :: ms => do
    let sig ← resolveSignature sig
    let context ← read
    let id ← Build.newFunc
      { Func.ofName name.name .interfaceMethod with
        sig, package := some context.path, pos := some ⟨context.file.id, name.pos⟩ }
    Checking.noteDef name.pos (.func id)
    return id :: (← resolveMethods ms)
termination_by structural ms => ms

def resolveStructFields : List Syntax.StructField → Checking (List Types.StructField)
  | [] => return []
  | ⟨names, type, embedded⟩ :: fs => do
    let type ← resolveType type
    return names.map (fun name => { name := name.name, type, embedded }) ++ (← resolveStructFields fs)
termination_by structural fs => fs

end

/-- The type that an expression denotes, if it can be read as a type. Nothing is recorded about the
expression. -/
def typeDenoted? : Expr → Checking (Option TypeId)
  | .ident _ name => Checking.typeNamed? name
  | .selector _ (.ident _ package) field => Checking.qualifiedType? package field.name
  | .paren _ inner => typeDenoted? inner
  | .unary _ "*" operand => do
    match ← typeDenoted? operand with
    | some t => return some (← Build.pointer t)
    | none => return none
  | .index _ operand index => do
    match ← typeDenoted? operand with
    | none => return none
    | some base =>
      match ← typeDenoted? index with
      | none => return none
      | some arg => return some (← Build.instantiate base [arg])
  | .instantiate _ operand args => do
    match ← typeDenoted? operand with
    | none => return none
    | some base =>
      let args ← resolveTypes args
      return some (← Build.instantiate base args)
  | .type _ type => return some (← resolveType type)
  | _ => return none
termination_by structural e => e

end UnusedMethods.Typing
