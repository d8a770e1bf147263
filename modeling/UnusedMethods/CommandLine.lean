import UnusedMethods.Analysis

/-!
# The command line

Arguments are patterns and options. What a run prints and how it ends depends only on the arguments
and the disk.
-/

namespace UnusedMethods.CommandLine

open Methods

/-! ### Arguments -/

/-- What the arguments ask for. An option that is not given is none. -/
structure Arguments where
  patterns : List String
  version : Bool
  json : Bool
  logJson : Bool
  includeGenerics : Option Bool
  genericMatch : Option GenericMatch
  config : Option String

def Arguments.none : Arguments :=
  { patterns := [], version := false, json := false, logJson := false,
    includeGenerics := .none, genericMatch := .none, config := .none }

/-- Why arguments are not acted upon. -/
inductive Refusal where
  | help
  | malformed
deriving DecidableEq

/-- Options that stand alone. -/
inductive Switch where
  | version
  | json
  | logJson
  | help

/-- Options that take a value. -/
inductive Setting where
  | includeGenerics
  | genericMatch
  | config

def switchNamed? : String → Option Switch
  | "version" => some .version
  | "json" => some .json
  | "log-json" => some .logJson
  | "help" => some .help
  | _ => none

def switchLettered? : Char → Option Switch
  | 'v' => some .version
  | 'h' => some .help
  | _ => none

def settingNamed? : String → Option Setting
  | "include-generics" => some .includeGenerics
  | "generic-match" => some .genericMatch
  | "config" => some .config
  | _ => none

/-- Turns a switch on. A switch must not be given twice. -/
def Arguments.turnOn (a : Arguments) : Switch → Except Refusal Arguments
  | .version => if a.version then .error .malformed else .ok { a with version := true }
  | .json => if a.json then .error .malformed else .ok { a with json := true }
  | .logJson => if a.logJson then .error .malformed else .ok { a with logJson := true }
  | .help => .error .help

/-- Sets an option. An option must not be set twice, and a file must have a name. -/
def Arguments.assign (a : Arguments) (value : String) : Setting → Except Refusal Arguments
  | .includeGenerics =>
    match a.includeGenerics, value with
    | .none, "true" => .ok { a with includeGenerics := some true }
    | .none, "false" => .ok { a with includeGenerics := some false }
    | _, _ => .error .malformed
  | .genericMatch =>
    match a.genericMatch, GenericMatch.ofName value with
    | .none, .ok mode => .ok { a with genericMatch := some mode }
    | _, _ => .error .malformed
  | .config =>
    if a.config.isSome || value.isEmpty then .error .malformed
    else .ok { a with config := some value }

inductive Form where
  /-- `--` alone: no options follow. -/
  | separator
  /-- `--name` or `--name=value`. -/
  | long (name : String) (value : Option String)
  /-- `-` and letters. -/
  | short (letters : List Char)
  | pattern

def Form.of (arg : String) : Form :=
  match arg.toList with
  | ['-', '-'] => .separator
  | '-' :: '-' :: rest =>
    let name := rest.takeWhile (· ≠ '=')
    .long (String.ofList name)
      (if name.length < rest.length then some (String.ofList (rest.drop (name.length + 1))) else .none)
  | '-' :: c :: rest => .short (c :: rest)
  | _ => .pattern

def Arguments.addPatterns (a : Arguments) (patterns : List String) : Arguments :=
  { a with patterns := a.patterns ++ patterns }

/-- Reads arguments after some have been read. The value of an option is the text after `=` or the
next argument, which then must not look like an option. -/
def Arguments.readFrom (a : Arguments) : List String → Except Refusal Arguments
  | [] => .ok a
  | arg :: rest =>
    match Form.of arg with
    | .separator => .ok (a.addPatterns rest)
    | .pattern => (a.addPatterns [arg]).readFrom rest
    | .short letters => do
      let a ← letters.foldlM (fun a c =>
        match switchLettered? c with
        | some s => a.turnOn s
        | .none => .error .malformed) a
      a.readFrom rest
    | .long name value =>
      match switchNamed? name, settingNamed? name, value with
      | some s, _, .none => do (← a.turnOn s).readFrom rest
      | .none, some s, some v => do (← a.assign v s).readFrom rest
      | .none, some s, .none =>
        match rest with
        | v :: rest =>
          match Form.of v with
          | .pattern => do (← a.assign v s).readFrom rest
          | _ => .error .malformed
        | [] => .error .malformed
      | _, _, _ => .error .malformed

def Arguments.read (args : List String) : Except Refusal Arguments := Arguments.none.readFrom args

def defaultPatterns : List String := ["./..."]

def Arguments.effectivePatterns (a : Arguments) : List String :=
  if a.patterns.isEmpty then defaultPatterns else a.patterns

def Arguments.request (a : Arguments) : Request :=
  let usual := Options.default
  { patterns := a.effectivePatterns
    config := .search a.config .none
    options :=
      { usual with
        includeGenerics := a.includeGenerics.getD usual.includeGenerics
        genericMatch := a.genericMatch.getD usual.genericMatch } }

/-! ### Runs -/

structure Outcome where
  exit : Nat
  stdout : String
  stderr : String
deriving DecidableEq

def version : String := "0.1.0"

def usage : String := Library.text [
  "Reports Go interface methods that are declared but never used",
  "",
  "Usage: deadiface [OPTIONS] [PATTERNS]...",
  "",
  "Arguments:",
  "  [PATTERNS]...  Package patterns: a directory, or a directory followed by /... to include",
  "                 subdirectories [default: ./...]",
  "",
  "Options:",
  "  -v, --version                  Print the version and exit",
  "      --include-generics <BOOL>  Include interfaces that declare type parameters [default: true]",
  "      --generic-match <MODE>     How calls on generic instances are matched: heuristic or strict",
  "                                 [default: heuristic]",
  "      --config <FILE>            Configuration file (default: .deadiface.yml in the working directory)",
  "      --json                     Output results in JSON format",
  "      --log-json                 Emit logs as JSON lines on stderr",
  "  -h, --help                     Print help",
  "",
  "Limitations:",
  "  Methods called only through reflection or generated code are reported as unused.",
  "  Calls from other packages do not count; each package is analyzed on its own.",
  "",
  "Exit status: 0 when nothing is reported, 1 when unused methods were found, 2 on error.",
  "Set DEADIFACE_VERBOSE=1 to trace file filtering and match decisions."]

/-- An error with its causes. The cause of a failed read is told once more. -/
def errorChain (e : Error) : String :=
  match e with
  | .io _ cause => e.message ++ ": " ++ cause
  | _ => e.message

def report (d : Disk) (a : Arguments) : Outcome :=
  match a.request.run d with
  | .ok found =>
    { exit := if found.hasFindings then 1 else 0
      stdout := if a.json then found.json.render 0 ++ "\n" else found.plain
      stderr := "" }
  | .error e =>
    { exit := 2
      stdout := ""
      stderr := "[ERROR] Failed to analyze " ++ " ".intercalate a.effectivePatterns ++ ": " ++
        errorChain e ++ "\n" }

def run (d : Disk) (args : List String) : Outcome :=
  match Arguments.read args with
  | .error .help => { exit := 0, stdout := usage, stderr := "" }
  | .error .malformed => { exit := 2, stdout := "", stderr := "error: invalid arguments\n" }
  | .ok a =>
    if a.version then { exit := 0, stdout := "Version: " ++ version ++ "\n", stderr := "" }
    else report d a

/-! ### Environment -/

def verboseVariable : String := "DEADIFACE_VERBOSE"

def isVerbose (value : Option String) : Bool :=
  match value with
  | .none => false
  | some v =>
    let word := (Text.trim v).map Char.toLower
    word = "1" ∨ word = "true" ∨ word = "yes" ∨ word = "on"

end UnusedMethods.CommandLine
