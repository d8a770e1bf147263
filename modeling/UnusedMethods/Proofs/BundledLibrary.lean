import UnusedMethods.Program.Load

/-!
# The bundled library can be read

The sources of the bundled library are well formed, and they import only each other, without a circle.
-/

namespace UnusedMethods

namespace Syntax

/-! ## Reading characters -/

/-- The tokens of a text that is given by its characters. -/
def Token.scanChars? : List Char → Option (List Token)
  | '\uFEFF' :: cs => (scanFrom? (Pos.start.advance '\uFEFF') cs).map (prependGap "\uFEFF")
  | cs => scanFrom? Pos.start cs

/-- The import paths of a file that is given by its characters; none if it is malformed. -/
def SourceFile.importsOfChars? (cs : List Char) : Option (List String) := do
  let tokens ← Token.scanChars? cs
  let (items, _) ← (Grammar.level (Grammar.depthFor tokens.length)).items tokens
  let file ← SourceFile.ofItems? items
  return file.imports.map (·.path)

theorem Token.scan?_eq (text : String) : Token.scan? text = Token.scanChars? text.toList := rfl

theorem SourceFile.parse_of_importsOfChars? {text : String} {paths : List String}
    (h : SourceFile.importsOfChars? text.toList = some paths) :
    ∃ tree, SourceFile.parse text = .ok tree ∧ tree.imports.map (·.path) = paths := by
  unfold SourceFile.importsOfChars? at h
  obtain ⟨tokens, htokens, h⟩ := Option.bind_eq_some_iff.1 h
  obtain ⟨⟨items, rest⟩, hitems, h⟩ := Option.bind_eq_some_iff.1 h
  obtain ⟨file, hfile, h⟩ := Option.bind_eq_some_iff.1 h
  refine ⟨file.number, ?_, Option.some.inj h⟩
  have hread : SourceFile.read text = .ok file := by
    unfold SourceFile.read
    simp only [Token.scan?_eq, htokens, hitems, hfile]
  rw [SourceFile.parse, hread]
  rfl

end Syntax

namespace Library

open Syntax

theorem toList_text (lines : List String) : (text lines).toList = lines.flatMap fun line => line.toList ++ ['\n'] := by
  induction lines with
  | nil => rfl
  | cons line lines ih =>
    have hcons : text (line :: lines) = line ++ "\n" ++ text lines := by simp [text, String.join_cons]
    rw [hcons, List.flatMap_cons, ← ih]
    simp

/-- How far a bundled package is from those that import nothing. -/
def level : String → Nat
  | "io" | "time" => 0
  | "context" => 1
  | _ => 2

/-- The source is well formed, and imports packages of lower levels that are bundled too. -/
def isInOrder (path : String) (cs : List Char) : Bool :=
  (SourceFile.importsOfChars? cs).any fun paths =>
    paths.all fun q => level q < level path && (q = "context" || q = "io" || q = "time")

theorem isInOrder_of_mem {p : String × String} (hp : p ∈ sources) : isInOrder p.1 p.2.toList = true := by
  simp only [sources, List.mem_cons, List.not_mem_nil, or_false] at hp
  rcases hp with rfl | rfl | rfl | rfl | rfl | rfl | rfl | rfl | rfl | rfl | rfl | rfl | rfl | rfl | rfl
  all_goals
    simp only [bufio, bytes, context, json, errors, fmt, io, log, http, os, sort, strconv, strings, sync, time, toList_text,
      List.flatMap_cons, List.flatMap_nil]
    repeat rw [String.toList_ofList]
    decide +kernel

theorem mem_sources {path source : String} (h : source? path = some source) : (path, source) ∈ sources := by
  obtain ⟨before, after, heq, -⟩ := List.lookup_eq_some_iff.1 h
  rw [heq]
  simp

/-- Every bundled source can be read. What it imports is bundled too, and of a lower level. -/
theorem parse_of_source? {path source : String} (h : source? path = some source) :
    ∃ tree, SourceFile.parse source = .ok tree ∧
      ∀ i ∈ tree.imports, level i.path < level path ∧ (i.path = "context" ∨ i.path = "io" ∨ i.path = "time") := by
  obtain ⟨paths, hpaths, hall⟩ := (Option.any_eq_true _ _).1 (isInOrder_of_mem (mem_sources h))
  obtain ⟨tree, hparse, rfl⟩ := SourceFile.parse_of_importsOfChars? hpaths
  refine ⟨tree, hparse, fun i hi => ?_⟩
  have hi := List.all_eq_true.1 hall i.path (List.mem_map_of_mem hi)
  simpa [or_assoc] using hi

end Library

end UnusedMethods
