import UnusedMethods.Proofs.Packages

/-!
# Type arguments of variadic calls

A call of a generic function gives its type arguments through the types of its arguments. If the last parameter is
variadic, a call without `...` has any number of arguments for it, each of which shows something about its element type,
and a call with `...` has one, which shows something about the slice. The two are told apart by the number of arguments
and not by the `...`: if there are as many arguments as parameters, then the last argument is taken for the slice. So a
call with one variadic argument is not like a call with two or more.
-/

namespace UnusedMethods.Types.Table

/-- What arguments show about type parameters, each compared with the type of its parameter. -/
def unifyEach (t : Table) (typeParams params args : List TypeId) (bound : Subst) : Subst :=
  (params.zip args).foldl (fun bound (p, a) => t.unify p a typeParams bound) bound

variable {t : Table} {typeParams : List TypeId}

theorem unifyEach_append {ps qs as bs : List TypeId} (h : ps.length = as.length) (bound : Subst) :
    t.unifyEach typeParams (ps ++ qs) (as ++ bs) bound =
      t.unifyEach typeParams qs bs (t.unifyEach typeParams ps as bound) := by
  rw [unifyEach, List.zip_append h, List.foldl_append]
  rfl

theorem unifyEach_singleton (p a : TypeId) (bound : Subst) :
    t.unifyEach typeParams [p] [a] bound = t.unify p a typeParams bound := rfl

theorem unifyWithin_of_mem {p arg : TypeId} {bound : Subst} (hp : p ∈ typeParams) (hfree : bound.lookup p = none) (n : Nat) :
    t.unifyWithin typeParams (n + 1) p arg bound =
      if t.isInvalid arg then bound else bound ++ [(p, t.defaultType arg)] := by
  simp [unifyWithin, hp, hfree]

theorem unify_slice_of_mem {last elem arg : TypeId} {bound : Subst} (hlast : t.get last = .slice elem)
    (hnot : last ∉ typeParams) (helem : elem ∈ typeParams) (hfree : bound.lookup elem = none) :
    t.unify last arg typeParams bound =
      match t.get arg with
      | .slice a => if t.isInvalid a then bound else bound ++ [(elem, t.defaultType a)]
      | _ => bound := by
  obtain ⟨n, hn⟩ : ∃ n, t.types.size = n + 1 := by
    cases hsize : t.types.size with
    | zero =>
      have hempty : t.types = #[] := Array.size_eq_zero_iff.1 hsize
      simp [get, hempty] at hlast
    | succ n => exact ⟨n, rfl⟩
  rw [unify, hn, unifyWithin, if_neg (by simpa using hnot), hlast]
  cases t.get arg with
  | slice a => exact unifyWithin_of_mem helem hfree n
  | _ => rfl

end UnusedMethods.Types.Table

namespace UnusedMethods.Typing

open Syntax UnusedMethods.Types

/-! ## The parameters of a call -/

section Arguments

variable {t : Table} {typeParams fixed args : List TypeId} {sig : Signature} {last elem : TypeId}

/-- A fold over numbered arguments, where the number of an argument tells its parameter. -/
theorem foldl_zipIdx_eq_unifyEach {params : List TypeId} {step : Subst → TypeId × Nat → Subst}
    (hlength : args.length ≤ params.length)
    (hstep : ∀ (bound : Subst) (arg : TypeId) (i : Nat) (p : TypeId), i < args.length → params[i]? = some p →
      step bound (arg, i) = t.unify p arg typeParams bound) (bound : Subst) :
    args.zipIdx.foldl step bound = t.unifyEach typeParams params args bound := by
  have hzip : params.zip args = args.zipIdx.map fun q => (params[q.2]?.getD .invalid, q.1) := by
    refine List.ext_getElem (by simpa using hlength) fun i hi _ => ?_
    have hi : i < params.length := by
      rw [List.length_zip] at hi
      omega
    simp [hi]
  rw [Table.unifyEach, hzip, List.foldl_map]
  refine List.foldl_ext _ _ _ fun bound q hq => ?_
  obtain ⟨arg, i⟩ := q
  have hi : i < args.length := by
    have hlt := List.snd_lt_of_mem_zipIdx hq
    omega
  have hp : params[i]? = some (params[i]?.getD .invalid) := by
    rw [List.getElem?_eq_getElem (by omega)]
    rfl
  exact hstep bound arg i _ hi hp

/-- With as many arguments as parameters, each argument is compared with its parameter. Otherwise the variadic ones are
compared with the element type. -/
theorem unifyArgs_variadic (hparams : sig.params = fixed ++ [last]) (hvariadic : sig.variadic = true)
    (hlast : t.get last = .slice elem) (hargs : fixed.length ≤ args.length) (bound : Subst) :
    unifyArgs t typeParams sig args bound =
      t.unifyEach typeParams
        (if args.length = fixed.length + 1 then fixed ++ [last]
          else fixed ++ List.replicate (args.length - fixed.length) elem) args bound := by
  have hk : sig.params.length = fixed.length + 1 := by simp [hparams]
  refine foldl_zipIdx_eq_unifyEach ?_ (fun bound arg i p hi hp => ?_) bound
  · split
    · simp [*]
    · simp [hargs]
  dsimp only
  by_cases hfixed : i < fixed.length
  · -- a parameter that is not variadic is compared as it is, whether it is a slice or not
    have hmin : min i (sig.params.length - 1) = i := by omega
    have hp' : sig.params[i]? = some p := by
      rw [hparams, List.getElem?_append_left hfixed, ← hp]
      split <;> rw [List.getElem?_append_left hfixed]
    have htail : (decide (i + 1 ≥ sig.params.length)) = false := decide_eq_false (by omega)
    rw [hmin, hp']
    dsimp only
    rw [hvariadic, htail, Bool.and_false, Bool.false_and]
    cases t.get p <;> rfl
  · have hmin : min i (sig.params.length - 1) = fixed.length := by omega
    have hp' : sig.params[fixed.length]? = some last := by simp [hparams]
    have htail : decide (i + 1 ≥ sig.params.length) = true := decide_eq_true (by omega)
    rw [hmin, hp']
    dsimp only
    rw [hlast, hvariadic, htail, hk]
    by_cases hcount : args.length = fixed.length + 1
    · have hi' : i = fixed.length := by omega
      rw [if_pos hcount, hi', List.getElem?_concat_length] at hp
      cases hp
      simp [hcount]
    · rw [if_neg hcount, List.getElem?_append_right (by omega), List.getElem?_replicate, if_pos (by omega)] at hp
      cases hp
      simp [hcount]

end Arguments

/-! ## Calls -/

/-- A generic function whose last parameter is variadic. -/
structure VariadicFunc (t : Table) where
  id : FuncId
  sig : Signature
  /-- The parameters before the variadic one. -/
  fixed : List TypeId
  /-- The type of the variadic parameter, and that of its elements. -/
  last : TypeId
  elem : TypeId
  generic : (t.func id).typeParams ≠ []
  signature : t.signature? (t.func id).sig = some sig
  params : sig.params = fixed ++ [last]
  variadic : sig.variadic = true
  slice : t.get last = .slice elem

namespace VariadicFunc

variable {t : Table} (g : VariadicFunc t)

def typeParams : List TypeId := (t.func g.id).typeParams

/-- The bindings that are computed at a call with arguments of some types. -/
def bindings (args : List TypeId) : Subst := unifyArgs t g.typeParams g.sig args []

/-- The bindings that the arguments show if they are compared with a list of parameters. -/
def shownBy (params args : List TypeId) : Subst := t.unifyEach g.typeParams params args []

theorem shownBy_concat {params args : List TypeId} (h : params.length = args.length) (p a : TypeId) :
    g.shownBy (params ++ [p]) (args ++ [a]) = t.unify p a g.typeParams (g.shownBy params args) := by
  rw [shownBy, Table.unifyEach_append h, Table.unifyEach_singleton]
  rfl

end VariadicFunc

/-- Without explicit type arguments, the type of a generic callee is instantiated with what the arguments show. -/
theorem eval_calleeSignature {c : Context} {n : Notes} {t : Table} {func : Expr} {f : FuncId} {sig : Signature}
    (huse : ((Checking.useOf? func.id).eval c n t).1.1 = some (.func f)) (hgeneric : (t.func f).typeParams ≠ [])
    (hsig : t.signature? (t.func f).sig = some sig) (args : List TypeId) :
    (calleeSignature func (t.func f).sig [] args).eval c n t =
      (do
        let type ← Build.subst (t.func f).sig (unifyArgs t (t.func f).typeParams sig args [])
        Checking.noteType func.id type
        return type : Checking TypeId).eval c n t := by
  have hstate : (Checking.useOf? func.id).eval c n t = ((some (.func f), n), t) := Prod.ext (Prod.ext huse rfl) rfl
  have hif : ((t.func f).typeParams.isEmpty || (t.func f).sig != (t.func f).sig) = false := by simp [hgeneric]
  unfold calleeSignature
  rw [Checking.eval_bind, hstate]
  dsimp only
  rw [Checking.eval_bind]
  show Checking.eval (ite ((t.func f).typeParams.isEmpty || (t.func f).sig != (t.func f).sig) _ _) c n t = _
  rw [hif, if_neg Bool.false_ne_true, Checking.eval_bind]
  -- no explicit type arguments are resolved, so the arguments start from nothing
  have hexplicit : (resolveTypes []).eval c n t = (([], n), t) := by rw [resolveTypes]; rfl
  have htable : (getThe Table : Checking Table).eval c n t = ((t, n), t) := rfl
  have hcallee : ((Checking.ask fun x => x.func f).eval c n t).1.1 = t.func f := rfl
  rw [hexplicit, Checking.eval_bind, htable, hcallee, hsig, List.zip_nil_right]
  rfl

/-- The bindings of a call of a generic variadic function without explicit type arguments. Whether the call is written with
`...` is not looked at. If there are not as many arguments as parameters, the variadic ones are compared with the element
type, as is right for a call without `...`. If there are as many, the last argument is compared with the slice, as is right
for a call with `...`; this is right for a call without `...` exactly if it shows the same about the element type. If the
element type is a type parameter that the other arguments do not bind, then such a call should bind it to the type of the
argument, but it is bound only by a slice, and then to the type of its elements. -/
theorem variadic_call_bindings {t : Table} (g : VariadicFunc t) (func : Expr) :
    (∀ node args hint, checkExpr (.call node func [] args true) hint = checkExpr (.call node func [] args false) hint) ∧
    (∀ c n, ((Checking.useOf? func.id).eval c n t).1.1 = some (.func g.id) → ∀ args,
      (calleeSignature func (t.func g.id).sig [] args).eval c n t =
        (do
          let type ← Build.subst (t.func g.id).sig (g.bindings args)
          Checking.noteType func.id type
          return type : Checking TypeId).eval c n t) ∧
    (∀ args, g.fixed.length ≤ args.length → args.length ≠ g.fixed.length + 1 →
      g.bindings args = g.shownBy (g.fixed ++ List.replicate (args.length - g.fixed.length) g.elem) args) ∧
    ∀ args arg, args.length = g.fixed.length →
      g.bindings (args ++ [arg]) = g.shownBy (g.fixed ++ [g.last]) (args ++ [arg]) ∧
      (g.bindings (args ++ [arg]) = g.shownBy (g.fixed ++ [g.elem]) (args ++ [arg]) ↔
        t.unify g.last arg g.typeParams (g.shownBy g.fixed args) = t.unify g.elem arg g.typeParams (g.shownBy g.fixed args)) ∧
      (g.last ∉ g.typeParams → g.elem ∈ g.typeParams → (g.shownBy g.fixed args).lookup g.elem = none →
        g.shownBy (g.fixed ++ [g.elem]) (args ++ [arg]) =
          (if t.isInvalid arg then g.shownBy g.fixed args else g.shownBy g.fixed args ++ [(g.elem, t.defaultType arg)]) ∧
        g.bindings (args ++ [arg]) =
          match t.get arg with
          | .slice a => if t.isInvalid a then g.shownBy g.fixed args else g.shownBy g.fixed args ++ [(g.elem, t.defaultType a)]
          | _ => g.shownBy g.fixed args) := by
  refine ⟨fun _ _ _ => rfl, fun c n huse args => eval_calleeSignature huse g.generic g.signature args, ?_, ?_⟩
  · intro args hargs hcount
    rw [VariadicFunc.bindings, unifyArgs_variadic g.params g.variadic g.slice hargs, if_neg hcount]
    rfl
  · intro args arg hargs
    have hcount : (args ++ [arg]).length = g.fixed.length + 1 := by simp [hargs]
    have hbindings : g.bindings (args ++ [arg]) = g.shownBy (g.fixed ++ [g.last]) (args ++ [arg]) := by
      rw [VariadicFunc.bindings, unifyArgs_variadic g.params g.variadic g.slice (by omega), if_pos hcount]
      rfl
    rw [hbindings, g.shownBy_concat hargs.symm, g.shownBy_concat hargs.symm]
    refine ⟨rfl, Iff.rfl, fun hnot helem hfree => ?_⟩
    exact ⟨Table.unifyWithin_of_mem helem hfree _, Table.unify_slice_of_mem g.slice hnot helem hfree⟩

/-- The element type of a slice. -/
def sliceElem? : Ty → Option TypeId
  | .slice elem => some elem
  | _ => none

theorem eq_slice_of_sliceElem? {ty : Ty} {elem : TypeId} (h : sliceElem? ty = some elem) : ty = .slice elem := by
  cases ty <;> cases h
  rfl

/-- A function whose only parameter is variadic. -/
def firstSource : String := "package app\n\nfunc first[T any](xs ...T) T \x7b return xs[0] \x7d\n"

def firstFunc : VariadicFunc (checkText firstSource).2 where
  id := ⟨1⟩
  sig := ⟨[⟨32⟩], [⟨31⟩], true⟩
  fixed := []
  last := ⟨32⟩
  elem := ⟨31⟩
  generic := by decide +kernel
  signature := by
    have hparts : ((checkText firstSource).2.signature? ((checkText firstSource).2.func ⟨1⟩).sig).map
        (fun sig => (sig.params, sig.results, sig.variadic)) = some ([⟨32⟩], [⟨31⟩], true) := by decide +kernel
    obtain ⟨⟨params, results, variadic⟩, hsig, heq⟩ := Option.map_eq_some_iff.1 hparts
    cases heq
    exact hsig
  params := rfl
  variadic := rfl
  slice := eq_slice_of_sliceElem? (by decide +kernel)

/-- `first(1)` should bind `T` to `int` but binds nothing, and `first(1, 2)` binds it. -/
theorem firstFunc_bindings :
    (firstFunc.last ∉ firstFunc.typeParams ∧ firstFunc.elem ∈ firstFunc.typeParams) ∧
    firstFunc.shownBy [firstFunc.elem] [BasicKind.untypedInt.typeId] = [(firstFunc.elem, BasicKind.int.typeId)] ∧
    firstFunc.bindings [BasicKind.untypedInt.typeId] = [] ∧
    firstFunc.bindings [BasicKind.untypedInt.typeId, BasicKind.untypedInt.typeId] =
      [(firstFunc.elem, BasicKind.int.typeId)] := by
  have hlast : firstFunc.last ∉ firstFunc.typeParams := by decide +kernel
  have helem : firstFunc.elem ∈ firstFunc.typeParams := by decide +kernel
  obtain ⟨-, -, hmore, hone⟩ := variadic_call_bindings firstFunc (.ident ⟨0, ⟨1, 1⟩⟩ "first")
  obtain ⟨-, -, hfirst⟩ := hone [] BasicKind.untypedInt.typeId rfl
  obtain ⟨hright, hbindings⟩ := hfirst hlast helem rfl
  refine ⟨⟨hlast, helem⟩, hright.trans (by decide +kernel), hbindings.trans (by decide +kernel), ?_⟩
  exact (hmore [BasicKind.untypedInt.typeId, BasicKind.untypedInt.typeId] (by decide) (by decide)).trans (by decide +kernel)

end UnusedMethods.Typing
