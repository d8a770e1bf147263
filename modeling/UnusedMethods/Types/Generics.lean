import UnusedMethods.Types.Identity

/-!
# Generic types, substitution and the method sets of interfaces

Three activities that lead into each other: an instance of a generic type is filled in by
substituting its arguments into the declaration; substitution makes new instances and interfaces;
and the method set of an interface needs the instances that the interface embeds.

Each is first given with a bound on the nesting of calls, where none means that the bound was
reached, and then with a bound that the table itself provides.
-/

namespace UnusedMethods.Types

/-- A computation on a table that may run out of its bound. -/
abbrev Expansion := StateT Table Option

instance : MonadLift Build Expansion := ⟨fun x t => some (x t)⟩

/-- Which type stands for which type parameter. -/
abbrev Subst := List (TypeId × TypeId)

/-- Substitution nested deeper than this gives the invalid type. It stops generic types that grow
without end. -/
def maxSubstDepth : Nat := 64

namespace Table

def instance? (t : Table) (origin : TypeId) (args : List TypeId) : Option TypeId :=
  t.find? fun
    | .named n => n.origin = some origin && t.identicalLists n.typeArgs args
    | _ => false

/-- Adds the methods of `inherited` whose names are not there yet. -/
def inheritMethods (t : Table) (methods inherited : List FuncId) : List FuncId :=
  inherited.foldl (fun ms m =>
    if ms.any fun e => (t.func e).name = (t.func m).name then ms else ms ++ [m]) methods

def sortMethods (t : Table) (methods : List FuncId) : List FuncId :=
  methods.mergeSort fun a b => !((t.func b).name < (t.func a).name)

end Table

namespace Expansion

mutual

def instantiate (n : Nat) (origin : TypeId) (args : List TypeId) (depth : Nat) : Expansion TypeId :=
  match n with
  | 0 => failure
  | n + 1 => do
    let t ← get
    match t.named? origin with
    | none => return .invalid
    | some d =>
      let origin := d.origin.getD origin
      match t.named? origin with
      | none => return .invalid
      | some d =>
        if d.typeParams.isEmpty then
          return origin
        else if args.length != d.typeParams.length || depth > maxSubstDepth then
          return .invalid
        else if args == d.typeParams then
          return origin
        else
          match t.instance? origin args with
          | some inst => return inst
          | none =>
            let inst ← Build.push (.named
              { name := d.name, package := d.package, rhs := .invalid, methods := [], typeParams := [],
                origin := some origin, typeArgs := args, expanded := false })
            if !t.deferring then
              expand n inst depth
            return inst

/-- Fills in an instance: right-hand side and methods of its origin with the arguments in place of
the type parameters. -/
def expand (n : Nat) (inst : TypeId) (depth : Nat) : Expansion Unit :=
  match n with
  | 0 => failure
  | n + 1 => do
    match (← get).named? inst with
    | some { expanded := false, origin := some origin, typeArgs, .. } =>
      modify (·.modifyNamed inst fun d => { d with expanded := true })
      match (← get).named? origin with
      | none => return
      | some d =>
        let map := d.typeParams.zip typeArgs
        let rhs ← subst n map (depth + 1) d.rhs
        modify (·.setRhs inst rhs)
        for method in d.methods do
          let f := (← get).func method
          let sig ← subst n map (depth + 1) f.sig
          let copy ← Build.newFunc
            { f with sig, kind := .method inst f.hasPointerRecv, origin := some (f.origin.getD method) }
          modify (·.addMethod inst copy)
        complete n [] ((← get).underlying inst)
    | _ => return

/-- The type with type parameters replaced. A type in which nothing is replaced stays itself. -/
def subst (n : Nat) (map : Subst) (depth : Nat) (id : TypeId) : Expansion TypeId :=
  match n with
  | 0 => failure
  | n + 1 => do
    if depth > maxSubstDepth then return .invalid
    let depth := depth + 1
    match (← get).get id with
    | .invalid | .basic _ => return id
    | .typeParam _ => return (map.lookup id).getD id
    | .named d =>
      match d.origin with
      | some origin =>
        let args ← d.typeArgs.mapM (subst n map depth)
        if args == d.typeArgs then return id else instantiate n origin args depth
      | none =>
        if d.typeParams.isEmpty then return id
        let args ← d.typeParams.mapM (subst n map depth)
        if args == d.typeParams then return id else instantiate n id args depth
    | .pointer elem =>
      let e ← subst n map depth elem
      if e = elem then return id else Build.pointer e
    | .slice elem =>
      let e ← subst n map depth elem
      if e = elem then return id else Build.slice e
    | .array len elem =>
      let e ← subst n map depth elem
      if e = elem then return id else Build.push (.array len e)
    | .map key value =>
      let k ← subst n map depth key
      let v ← subst n map depth value
      if k = key ∧ v = value then return id else Build.push (.map k v)
    | .chan dir elem =>
      let e ← subst n map depth elem
      if e = elem then return id else Build.push (.chan dir e)
    | .tuple elems =>
      let es ← elems.mapM (subst n map depth)
      if es == elems then return id else Build.push (.tuple es)
    | .signature s =>
      let params ← s.params.mapM (subst n map depth)
      let results ← s.results.mapM (subst n map depth)
      if params == s.params && results == s.results then return id
      else Build.signature params results s.variadic
    | .struct fields =>
      let types ← fields.mapM fun f => subst n map depth f.type
      if types == fields.map (·.type) then return id
      else Build.push (.struct (fields.zipWith (fun f type => { f with type }) types))
    | .union terms =>
      let types ← terms.mapM fun term => subst n map depth term.type
      if types == terms.map (·.type) then return id
      else Build.push (.union (terms.zipWith (fun term type => { term with type }) types))
    | .interface i =>
      let explicit ← i.explicit.mapM fun m => do
        let f := (← get).func m
        let sig ← subst n map depth f.sig
        if sig = f.sig then return m
        else Build.newFunc { f with sig, origin := some (f.origin.getD m) }
      let embedded ← i.embedded.mapM (subst n map depth)
      if explicit == i.explicit && embedded == i.embedded then return id
      else newInterface n explicit embedded

/-- An interface. Its method set is found at once unless declarations are being read. -/
def newInterface (n : Nat) (explicit : List FuncId) (embedded : List TypeId) : Expansion TypeId :=
  match n with
  | 0 => failure
  | n + 1 => do
    let id ← Build.push (.interface
      { explicit, embedded, methods := [], complete := false, hasTerms := false })
    if !(← get).deferring then
      complete n [] id
    return id

/-- Finds the method set of an interface: its own methods and those of the interfaces it embeds, by
name. Interfaces in `visiting` are being completed; of these only the own methods count. -/
def complete (n : Nat) (visiting : List TypeId) (id : TypeId) : Expansion Unit :=
  match n with
  | 0 => failure
  | n + 1 => do
    match (← get).get id with
    | .interface i =>
      if i.complete || visiting.contains id then return
      let mut methods := i.explicit
      let mut hasTerms := i.hasTerms
      for embed in i.embedded do
        expand n embed 0
        let under := (← get).underlying embed
        match (← get).get under with
        | .interface _ =>
          complete n (id :: visiting) under
          let t ← get
          match t.get under with
          | .interface inner =>
            hasTerms := hasTerms || inner.hasTerms
            methods := t.inheritMethods methods inner.methodList
          | _ => pure ()
        | .invalid => pure ()
        | _ => hasTerms := true
      let sorted := (← get).sortMethods methods
      modify (·.modifyInterface id fun i => { i with methods := sorted, complete := true, hasTerms })
    | _ => return

end

/-- Ends the declarations: completes the interfaces in `order`, then fills in all instances, then
completes all other interfaces. -/
def endDeclarations (n : Nat) (order : List TypeId) : Expansion Unit := do
  modify fun t => { t with deferring := false }
  order.forM (complete n [])
  (← get).unexpanded.forM fun inst => expand n inst 0
  (← get).incomplete.forM (complete n [])

end Expansion

/-- A bound on the nesting of calls. Calls nest beyond `maxSubstDepth` only through an instance left
over from the declarations, once for each such instance, or through interfaces not yet completed. -/
def Table.expansionBound (t : Table) : Nat := (t.types.size + 1) * (t.types.size + 400)

/-- Runs a bounded computation with the bound that the table provides. -/
def Expansion.run {α : Type} [Inhabited α] (x : Nat → Expansion α) : Build α := fun t =>
  (StateT.run (x t.expansionBound) t).getD (default, t)

namespace Build

/-- The instance of a generic type with the given arguments: the generic type itself for its own
parameters, the invalid type for a wrong number of arguments. -/
def instantiate (origin : TypeId) (args : List TypeId) : Build TypeId :=
  Expansion.run fun n => Expansion.instantiate n origin args 0

def subst (id : TypeId) (map : Subst) : Build TypeId :=
  if map.isEmpty then pure id else Expansion.run fun n => Expansion.subst n map 0 id

def interface (explicit : List FuncId) (embedded : List TypeId) : Build TypeId :=
  Expansion.run fun n => Expansion.newInterface n explicit embedded

def completeInterface (id : TypeId) : Build Unit :=
  Expansion.run fun n => Expansion.complete n [] id

/-- From now on, instances stay unexpanded and interfaces incomplete. -/
def beginDeclarations : Build Unit := modify fun t => { t with deferring := true }

/-- Ends the declarations: interfaces in `order` are completed first and in that order. -/
def endDeclarations (order : List TypeId) : Build Unit :=
  Expansion.run fun n => Expansion.endDeclarations n order

end Build

end UnusedMethods.Types
