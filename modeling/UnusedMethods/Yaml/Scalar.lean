import UnusedMethods.Yaml.Cursor

/-!
# Scalars of YAML

A scalar is plain, quoted or a block. Line ends in plain and quoted scalars are folded: one is read as
a space, and of several all but the first are kept. In folded blocks this holds between lines that do
not start with a space.
-/

namespace UnusedMethods.Yaml

/-! ### Gaps between words -/

/-- What stands between two words of a scalar. -/
structure Gap where
  spaces : String
  /-- Whether there is a line end, plain or escaped. -/
  broken : Bool
  /-- The first line end; empty if it is escaped. -/
  first : String
  later : String

namespace Gap

def empty : Gap := { spaces := "", broken := false, first := "", later := "" }

def escaped : Gap := { spaces := "", broken := true, first := "", later := "" }

def text (g : Gap) : String :=
  if !g.broken then g.spaces
  else if g.first = "\n" then if g.later.isEmpty then " " else g.later
  else g.first ++ g.later

def addBreak (g : Gap) (b : String) : Gap :=
  if g.broken then { g with later := g.later ++ b } else { g with broken := true, first := b }

/-- Reads a gap. A tab before column `indent` of a line after the first is a fault. -/
def read? (indent : Nat) : (fuel : Nat) → Cursor → Gap → Option (Cursor × Gap)
  | 0, c, g => some (c, g)
  | fuel + 1, c, g =>
    match c.break? with
    | some (b, next) => read? indent fuel next (g.addBreak b)
    | none =>
      match c.peek? 0 with
      | none => some (c, g)
      | some ch =>
        if !isSpace ch then some (c, g)
        else if g.broken then
          if c.column < indent && ch = '\t' then none else read? indent fuel (c.skip 1) g
        else read? indent fuel (c.skip 1) { g with spaces := g.spaces.push ch }

end Gap

/-! ### Plain scalars -/

/-- Characters that have a meaning of their own between brackets. -/
def isFlowMark (c : Char) : Bool := c = ',' || c = '[' || c = ']' || c = '{' || c = '}'

/-- How many characters of a plain scalar come before a gap, a mark or the end. Between brackets a
colon must not stand before a mark. -/
def plainRun? (inFlow : Bool) : List Char → Option Nat
  | [] => some 0
  | c :: rest =>
    if isGap c then some 0
    else if inFlow && c = ':' && rest.head?.any (fun d => isFlowMark d || d = '?') then none
    else if c = ':' && rest.head?.all isGap then some 0
    else if inFlow && isFlowMark c then some 0
    else (plainRun? inFlow rest).map (· + 1)

/-- Reads on in a plain scalar, after a text and a gap. The lines after the first have to start at
column `indent` or later, unless the scalar is between brackets. Answers also whether a line has ended
after the scalar. -/
def plainScalar? (inFlow : Bool) (indent : Nat) :
    (fuel : Nat) → Cursor → String → Gap → Option (Cursor × String × Bool)
  | 0, c, text, g => some (c, text, g.broken)
  | fuel + 1, c, text, g =>
    if c.atDocumentMark || c.at? '#' then some (c, text, g.broken)
    else
      match plainRun? inFlow c.rest with
      | none => none
      | some 0 => some (c, text, g.broken)
      | some n =>
        let text := text ++ g.text ++ String.ofList (c.rest.take n)
        let c := c.skip n
        match Gap.read? indent (c.rest.length + 1) c .empty with
        | none => none
        | some (c, g) =>
          if !inFlow && c.column < indent then some (c, text, g.broken)
          else plainScalar? inFlow indent fuel c text g

/-! ### Quoted scalars -/

def hexValue? (c : Char) : Option Nat :=
  if c.isDigit then some (c.toNat - '0'.toNat)
  else if 'a' ≤ c ∧ c ≤ 'f' then some (c.toNat - 'a'.toNat + 10)
  else if 'A' ≤ c ∧ c ≤ 'F' then some (c.toNat - 'A'.toNat + 10)
  else none

def codePoint? (digits : List Char) : Option Char := do
  let n ← digits.foldlM (fun n d => do return n * 16 + (← hexValue? d)) 0
  if n.isValidChar then some (Char.ofNat n) else none

/-- What an escape stands for, and how many characters it has after the backslash. -/
def escape? : List Char → Option (Char × Nat)
  | [] => none
  | c :: rest =>
    match c with
    | '0' => some (Char.ofNat 0, 1)
    | 'a' => some (Char.ofNat 7, 1)
    | 'b' => some (Char.ofNat 8, 1)
    | 't' | '\t' => some ('\t', 1)
    | 'n' => some ('\n', 1)
    | 'v' => some (Char.ofNat 11, 1)
    | 'f' => some (Char.ofNat 12, 1)
    | 'r' => some ('\r', 1)
    | 'e' => some (Char.ofNat 27, 1)
    | ' ' | '"' | '/' | '\\' => some (c, 1)
    | 'N' => some ('\u0085', 1)
    | '_' => some ('\u00a0', 1)
    | 'L' => some ('\u2028', 1)
    | 'P' => some ('\u2029', 1)
    | 'x' => numbered 2 rest
    | 'u' => numbered 4 rest
    | 'U' => numbered 8 rest
    | _ => none
where
  numbered (n : Nat) (rest : List Char) : Option (Char × Nat) := do
    let digits := rest.take n
    if digits.length < n then none else return (← codePoint? digits, n + 1)

/-- Reads a word of a quoted scalar, up to a gap, the closing quote or the end. Answers also whether
the word ends with an escaped line end. -/
def quotedWord? (quote : Char) : (fuel : Nat) → Cursor → String → Option (Cursor × String × Bool)
  | 0, c, text => some (c, text, false)
  | fuel + 1, c, text =>
    match c.rest with
    | [] => some (c, text, false)
    | ch :: rest =>
      if isGap ch then some (c, text, false)
      else if quote = '\'' && ch = quote && rest.head? = some quote then
        quotedWord? quote fuel (c.skip 2) (text.push quote)
      else if ch = quote then some (c, text, false)
      else if quote = '"' && ch = '\\' then
        match (c.skip 1).break? with
        | some (_, next) => some (next, text, true)
        | none =>
          match escape? rest with
          | none => none
          | some (e, n) => quotedWord? quote fuel (c.skip (n + 1)) (text.push e)
      else quotedWord? quote fuel (c.skip 1) (text.push ch)

/-- Reads on in a quoted scalar up to the closing quote. A document must not start or end in it. -/
def quotedScalar? (quote : Char) : (fuel : Nat) → Cursor → String → Option (Cursor × String)
  | 0, _, _ => none
  | fuel + 1, c, text =>
    if c.atDocumentMark || c.rest.isEmpty then none
    else
      match quotedWord? quote (c.rest.length + 1) c text with
      | none => none
      | some (c, text, escaped) =>
        if c.at? quote then some (c.skip 1, text)
        else
          match Gap.read? 0 (c.rest.length + 1) c (if escaped then .escaped else .empty) with
          | none => none
          | some (c, g) => quotedScalar? quote fuel c (text ++ g.text)

/-! ### Blocks -/

/-- What happens to the line ends after the last line of a block. -/
inductive Chomping where
  | strip
  | clip
  | keep
deriving DecidableEq

/-- The marks after the sign of a block: how its end is treated, and how far it is indented. -/
def blockHeader? (c : Cursor) : Option (Chomping × Option Nat × Cursor) := do
  let (chomping, c) := chompingAt c
  let (indent, c) ← indentAt? c
  match chomping with
  | some ch => some (ch, indent, c)
  | none =>
    if indent.isNone then some (.clip, none, c)
    else
      let (chomping, c) := chompingAt c
      some (chomping.getD .clip, indent, c)
where
  chompingAt (c : Cursor) : Option Chomping × Cursor :=
    if c.at? '+' then (some .keep, c.skip 1)
    else if c.at? '-' then (some .strip, c.skip 1)
    else (none, c)
  indentAt? (c : Cursor) : Option (Option Nat × Cursor) :=
    match c.peek? 0 with
    | some d =>
      if d = '0' then none
      else if d.isDigit then some (some (d.toNat - '0'.toNat), c.skip 1)
      else some (none, c)
    | none => some (none, c)

/-- Reads blank lines of a block and the indentation of the line after them. Answers the line ends
and the largest column that has been reached. A tab in the indentation is a fault. -/
def blockGap? (indent : Option Nat) :
    (fuel : Nat) → Cursor → String → Nat → Option (Cursor × String × Nat)
  | 0, c, breaks, deepest => some (c, breaks, deepest)
  | fuel + 1, c, breaks, deepest =>
    let spaces := (c.rest.takeWhile (· = ' ')).length
    let c := c.skip (indent.elim spaces fun n => min spaces (n - c.column))
    let deepest := max deepest c.column
    if indent.all (c.column < ·) && c.at? '\t' then none
    else
      match c.break? with
      | none => some (c, breaks, deepest)
      | some (b, next) => blockGap? indent fuel next (breaks ++ b) deepest

/-- A block while it is read. -/
structure BlockText where
  text : String
  lastBreak : String
  /-- The ends of the blank lines after it. -/
  blankBreaks : String
  /-- Whether the last line starts with a space. -/
  indented : Bool

/-- Reads the lines of a block that is indented by `indent`. -/
def blockLines? (literal : Bool) (indent : Nat) :
    (fuel : Nat) → Cursor → BlockText → Option (Cursor × BlockText)
  | 0, c, b => some (c, b)
  | fuel + 1, c, b =>
    if c.column ≠ indent || c.rest.isEmpty then some (c, b)
    else
      let indented := (c.peek? 0).any isSpace
      let line := c.rest.takeWhile (!isBreak ·)
      let joint :=
        if !literal && b.lastBreak = "\n" && !b.indented && !indented then
          if b.blankBreaks.isEmpty then " " else ""
        else b.lastBreak
      let text := b.text ++ joint ++ b.blankBreaks ++ String.ofList line
      let c := c.skip line.length
      let (lastBreak, c) := c.break?.getD ("", c)
      match blockGap? (some indent) (c.rest.length + 1) c "" 0 with
      | none => none
      | some (c, blankBreaks, _) => blockLines? literal indent fuel c { text, lastBreak, blankBreaks, indented }

/-- Reads a block after its sign. The block that it stands in is indented by `outer`. -/
def blockScalar? (literal : Bool) (outer : Int) (c : Cursor) : Option (Cursor × String) := do
  let (chomping, increment, c) ← blockHeader? c
  let c ← c.endLine?
  let given := increment.map fun n => if outer ≥ 0 then outer.toNat + n else n
  let (c, breaks, deepest) ← blockGap? given (c.rest.length + 1) c "" 0
  let indent := given.getD (max (max deepest (outer + 1).toNat) 1)
  let start : BlockText := { text := "", lastBreak := "", blankBreaks := breaks, indented := false }
  let (c, b) ← blockLines? literal indent (c.rest.length + 1) c start
  let text := if chomping = .strip then b.text else b.text ++ b.lastBreak
  return (c, if chomping = .keep then text ++ b.blankBreaks else text)

end UnusedMethods.Yaml
