/-!
# TOML documents

A document is a table. Tables can be written in parts, and how a table was written decides whether
more may be added to it.
-/

namespace UnusedMethods.Toml

inductive TableKind where
  | headed
  /-- By the header of a table inside it. -/
  | implied
  | dotted
  | inline
deriving DecidableEq

inductive Value where
  | string (text : String)
  /-- A number, a truth value or a time. -/
  | other
  | array (items : List Value)
  | table (kind : TableKind) (entries : List (String × Value))
  /-- Tables that share a header in double brackets, the last one first. -/
  | tables (items : List (List (String × Value)))

/-- The values of a table by their keys. -/
abbrev Entries := List (String × Value)

namespace Entries

def replace (es : Entries) (key : String) (v : Value) : Entries :=
  es.map fun (k, w) => if k = key then (k, v) else (k, w)

/-- Adds a value. A key must not have two. -/
def add? (es : Entries) (key : String) (v : Value) : Option Entries :=
  if (es.lookup key).isSome then none else some (es ++ [(key, v)])

/-- Changes the table that the keys lead to, making tables on the way. Tables with the same header
stand for the last of them. Keys with dots must not lead through a table that has a header. The change
is told how the table was written. -/
def update? (byDots : Bool) (change : TableKind → Entries → Option Entries) :
    (path : List String) → TableKind → Entries → Option Entries
  | [], kind, es => change kind es
  | key :: path, _, es =>
    match es.lookup key with
    | none => do
      let kind := if byDots then .dotted else .implied
      return es ++ [(key, .table kind (← update? byDots change path kind []))]
    | some (.table kind inner) =>
      if kind = .inline ∨ (byDots ∧ kind = .headed) then none
      else do return es.replace key (.table kind (← update? byDots change path kind inner))
    | some (.tables (last :: before)) => do
      return es.replace key (.tables ((← update? byDots change path .headed last) :: before))
    | some _ => none

/-- Adds a value under keys with dots between them. A table that a header implies takes no values
this way. -/
def addPath? (es : Entries) (path : List String) (key : String) (v : Value) : Option Entries :=
  update? true (fun kind es => if path ≠ [] ∧ kind ≠ .dotted then none else es.add? key v) path .headed es

/-- Starts a table with a header. Only a table that has been implied may be there already. -/
def startTable? (es : Entries) (path : List String) (key : String) : Option Entries :=
  update? false (fun _ es =>
    match es.lookup key with
    | none => some (es ++ [(key, .table .headed [])])
    | some (.table .implied inner) => some (es.replace key (.table .headed inner))
    | some _ => none) path .headed es

/-- Starts another one of the tables with a header in double brackets. -/
def startItem? (es : Entries) (path : List String) (key : String) : Option Entries :=
  update? false (fun _ es =>
    match es.lookup key with
    | none => some (es ++ [(key, .tables [[]])])
    | some (.tables items) => some (es.replace key (.tables ([] :: items)))
    | some _ => none) path .headed es

def addBelow? (es : Entries) (header path : List String) (key : String) (v : Value) : Option Entries :=
  update? false (fun _ es => es.addPath? path key v) header .headed es

end Entries

end UnusedMethods.Toml
