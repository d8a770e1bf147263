import UnusedMethods.Config
import UnusedMethods.Methods.Report
import UnusedMethods.Program.Load
import UnusedMethods.Text.Decimal
import UnusedMethods.Text.Json

/-!
# Analysing a program

The packages of a program are analysed one by one, and what is found is put together in one report.
-/

namespace UnusedMethods

open Methods

structure Analysis where
  /-- What is found in each package, in the order of import paths. -/
  packages : List UnitReport
  diagnostics : List Diagnostic
  files : Nat
  declared : Nat
  used : Nat

namespace Analysis

def ofReports (files : Nat) (reports : List UnitReport) : Analysis :=
  let packages := reports.mergeSort fun a b => a.package ≤ b.package
  { packages, files,
    diagnostics := Diagnostic.sort (packages.flatMap (·.diagnostics)),
    declared := (packages.map (·.declared)).foldr (· + ·) 0,
    used := (packages.map (·.used)).foldr (· + ·) 0 }

def hasFindings (a : Analysis) : Bool := !a.diagnostics.isEmpty

/-- The share of unused methods in percent, with a number of places after the point. -/
def unusedPercentage (a : Analysis) (places : Nat) : String :=
  if a.declared = 0 then Text.fixed places 0 1
  else Text.fixed places (100 * a.diagnostics.length) a.declared

def plain (a : Analysis) : String := String.join (a.diagnostics.map (·.render ++ "\n"))

def diagnosticJson (d : Diagnostic) : Json :=
  .object
    [("column", .number d.column), ("interface", .string d.interface), ("line", .number d.line),
      ("message", .string d.message), ("method", .string d.method), ("path", .string d.path)]

/-- A report as JSON. Fields are in the order of their names. -/
def json (a : Analysis) : Json :=
  .object
    [("diagnostics", .list (a.diagnostics.map diagnosticJson)),
      ("summary", .object
        [("declared", .number a.declared), ("files", .number a.files),
          ("packages", .number a.packages.length), ("unused", .number a.diagnostics.length),
          ("used", .number a.used)])]

end Analysis

def Program.analyze (p : Program) (filter : PathFilter) (options : Options) : Analysis :=
  .ofReports p.fileCount
    (p.rootPackages.map fun package => analyzeUnit { table := p.table, package } filter options)

inductive ConfigChoice where
  | given (config : Config)
  /-- A file that is asked for, or else one in a directory; that is the working directory if none is
  named. -/
  | search (file root : Option String)

def ConfigChoice.resolve (d : Disk) : ConfigChoice → Except Error Config
  | .given config => .ok config
  | .search file root => Config.load d file (root.getD d.cwd.path)

structure Request where
  patterns : List String
  config : ConfigChoice
  options : Options

def Request.run (r : Request) (d : Disk) : Except Error Analysis := do
  let config ← r.config.resolve d
  let filter ← config.filter
  let program ← Program.load d r.patterns
  return program.analyze filter r.options

end UnusedMethods
