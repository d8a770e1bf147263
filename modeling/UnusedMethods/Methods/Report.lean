import UnusedMethods.Methods.Usage

/-!
# The report on unused methods
-/

namespace UnusedMethods.Methods

structure Diagnostic where
  path : String
  line : Nat
  column : Nat
  method : String
  interface : String
deriving DecidableEq

namespace Diagnostic

def message (d : Diagnostic) : String :=
  s!"method \"{d.method}\" of interface \"{d.interface}\" is declared but not used"

def render (d : Diagnostic) : String := s!"{d.path}:{d.line}:{d.column}: {d.message}"

/-- The order of a report: by path, then by line and column. -/
def comparePlace (a b : Diagnostic) : Ordering :=
  (Path.compare a.path b.path).then ((Ord.compare a.line b.line).then (Ord.compare a.column b.column))

/-- Diagnostics in the order of a report. Those of one place keep their order. -/
def sort (ds : List Diagnostic) : List Diagnostic := ds.mergeSort fun a b => (a.comparePlace b).isLE

def ofDeclaration (d : MethodDeclaration) : Diagnostic :=
  { path := d.path, line := d.pos.line, column := d.pos.column, method := d.name,
    interface := d.interfaceName }

end Diagnostic

def Registry.diagnostics (r : Registry) : List Diagnostic :=
  Diagnostic.sort ((r.entries.filter fun d => !d.used).map .ofDeclaration)

def report (r : Registry) (used : UsedSet) : List Diagnostic := (r.apply used).diagnostics

structure UnitReport where
  package : String
  declared : Nat
  used : Nat
  diagnostics : List Diagnostic

def analyzeUnit (u : CheckedPackage) (filter : PathFilter) (options : Options) : UnitReport :=
  let registry := collect u filter options
  let used := track u registry filter options
  { package := u.package.path, declared := registry.size, used := used.size,
    diagnostics := report registry used }

end UnusedMethods.Methods
