import UnusedMethods.Yaml.Scalar
import UnusedMethods.Yaml.Token

/-!
# Scanning YAML

A step of the scanner does the following.

1. It goes over blank lines, comments and spaces.
2. It closes the blocks that are indented further than the column it has come to.
3. It reads a token by the characters that start it.

A token that starts where a key may start is kept in mind as a candidate. If a colon follows on the
same line, the mark of a key is put in front of it, and the start of a mapping if one starts there.
-/

namespace UnusedMethods.Yaml

/-- A token that may turn out to be the start of a key. -/
structure KeyCandidate where
  /-- Whether nothing but a key can stand there. -/
  required : Bool
  /-- How many tokens come before it. -/
  number : Nat
  index : Nat
  line : Nat
  column : Nat

/-- How far a text has been split. -/
structure Scanner where
  cursor : Cursor
  tokens : Array Token
  /-- The column of the innermost block; `-1` outside of all. -/
  indent : Int
  /-- The columns of the blocks around it, from the inner to the outer ones. -/
  outerIndents : List Int
  keyAllowed : Bool
  candidate : Option KeyCandidate
  /-- The candidates outside of the open brackets, one for each bracket. -/
  outerCandidates : List (Option KeyCandidate)

/-- A step of splitting a text. -/
abbrev Scan := StateT Scanner Option

namespace Scanner

def start (text : List Char) : Scanner :=
  { cursor := .start text, tokens := #[], indent := -1, outerIndents := [], keyAllowed := true,
    candidate := none, outerCandidates := [] }

def inFlow (s : Scanner) : Bool := !s.outerCandidates.isEmpty

def push (s : Scanner) (t : Token) : Scanner := { s with tokens := s.tokens.push t }

def putAt (s : Scanner) (number : Nat) (t : Token) : Scanner :=
  { s with tokens := (s.tokens.take number).push t ++ s.tokens.drop number }

end Scanner

/-! ### Keys -/

def forgetCandidate : Scan Unit := do
  let s ← get
  if s.candidate.any (·.required) then failure
  else set { s with candidate := none }

/-- Makes the next token the candidate, if a key may start here. -/
def noteCandidate : Scan Unit := do
  if (← get).keyAllowed then
    forgetCandidate
    modify fun s =>
      let c := s.cursor
      { s with
        candidate := some
          { required := !s.inFlow && s.indent = c.column, number := s.tokens.size,
            index := c.index, line := c.line, column := c.column } }

def longestKey : Nat := 1024

/-- A candidate as it stands at a cursor: a key is on one line and not too long. -/
def KeyCandidate.isStale (k : KeyCandidate) (c : Cursor) : Bool :=
  k.line < c.line || k.index + longestKey < c.index

/-- Gives up the candidates that can no longer be keys. -/
def forgetStale : Scan Unit := do
  let s ← get
  let isStale : KeyCandidate → Bool := (·.isStale s.cursor)
  if (s.candidate :: s.outerCandidates).any fun k => k.any fun k => isStale k && k.required then
    failure
  else
    set { s with
      candidate := s.candidate.filter (!isStale ·)
      outerCandidates := s.outerCandidates.map (Option.filter (!isStale ·)) }

def allowKey (b : Bool) : Scan Unit := modify fun s => { s with keyAllowed := b }

/-! ### Blocks -/

/-- Opens a block at a column, if it is indented further than the one around it: the token is put in
front of the one with the given number. -/
def openBlock (column number : Nat) (t : Token) : Scan Unit :=
  modify fun s =>
    if s.inFlow || s.indent ≥ (column : Int) then s
    else { s.putAt number t with indent := (column : Int), outerIndents := s.indent :: s.outerIndents }

def openBlockHere (t : Token) : Scan Unit := do
  let s ← get
  openBlock s.cursor.column s.tokens.size t

/-- How many of the open blocks are indented further than a column, and what stays open. -/
def blocksAfter (column : Int) : Int → List Int → Nat × Int × List Int
  | indent, [] => (0, indent, [])
  | indent, outer :: rest =>
    if indent > column then
      let (n, indent, rest) := blocksAfter column outer rest
      (n + 1, indent, rest)
    else (0, indent, outer :: rest)

def closeBlocks (column : Int) : Scan Unit :=
  modify fun s =>
    if s.inFlow then s
    else
      let (n, indent, outerIndents) := blocksAfter column s.indent s.outerIndents
      { s with tokens := s.tokens ++ Array.replicate n .blockEnd, indent, outerIndents }

/-! ### Gaps between tokens -/

/-- Goes over spaces, comments and line ends to the next token. A tab must not stand where a key may
start, unless it is between brackets. -/
def toNextToken : (fuel : Nat) → Scanner → Scanner
  | 0, s => s
  | fuel + 1, s =>
    let c := if s.cursor.index = 0 && s.cursor.at? '\ufeff' then s.cursor.skip 1 else s.cursor
    let tabs := s.inFlow || !s.keyAllowed
    let c := c.skipWhile fun ch => ch = ' ' || (tabs && ch = '\t')
    let c := if c.at? '#' then c.skipWhile (!isBreak ·) else c
    match c.break? with
    | none => { s with cursor := c }
    | some (_, next) =>
      toNextToken fuel { s with cursor := next, keyAllowed := s.keyAllowed || !s.inFlow }

/-! ### Tokens -/

def pushOver (n : Nat) (t : Token) : Scan Unit :=
  modify fun s => { s.push t with cursor := s.cursor.skip n }

def pushUpTo (c : Cursor) (t : Token) : Scan Unit := modify fun s => { s.push t with cursor := c }

def documentMark (t : Token) : Scan Unit := do
  closeBlocks (-1)
  forgetCandidate
  allowKey false
  pushOver 3 t

def flowStart (t : Token) : Scan Unit := do
  noteCandidate
  modify fun s => { s with candidate := none, outerCandidates := s.candidate :: s.outerCandidates }
  allowKey true
  pushOver 1 t

def flowEnd (t : Token) : Scan Unit := do
  forgetCandidate
  modify fun s =>
    match s.outerCandidates with
    | [] => s
    | k :: rest => { s with candidate := k, outerCandidates := rest }
  allowKey false
  pushOver 1 t

def flowEntry : Scan Unit := do
  forgetCandidate
  allowKey true
  pushOver 1 .flowEntry

def blockEntry : Scan Unit := do
  if !(← get).inFlow then
    if !(← get).keyAllowed then failure
    openBlockHere .blockSequenceStart
  forgetCandidate
  allowKey true
  pushOver 1 .blockEntry

def explicitKey : Scan Unit := do
  if !(← get).inFlow then
    if !(← get).keyAllowed then failure
    openBlockHere .blockMappingStart
  forgetCandidate
  allowKey (!(← get).inFlow)
  pushOver 1 .key

def value : Scan Unit := do
  let s ← get
  match s.candidate with
  | some k =>
    set (s.putAt k.number .key)
    openBlock k.column k.number .blockMappingStart
    modify fun s => { s with candidate := none }
    allowKey false
  | none =>
    if !s.inFlow then
      if !s.keyAllowed then failure
      openBlockHere .blockMappingStart
    allowKey (!s.inFlow)
  pushOver 1 .value

def anchorName? (c : Cursor) : Option (Cursor × String) :=
  let name := c.rest.takeWhile isWordChar
  let c := c.skip name.length
  if name.isEmpty then none
  else if c.gapAt 0 || (c.peek? 0).any ("?:,]\x7d%@`".contains ·) then some (c, String.ofList name)
  else none

def anchor (make : String → Token) : Scan Unit := do
  noteCandidate
  allowKey false
  let (c, name) ← anchorName? ((← get).cursor.skip 1)
  pushUpTo c (make name)

/-! ### Tags -/

/-- Characters of a tag that stand for themselves. Brackets and commas only count between angle
brackets. -/
def isTagChar (verbatim : Bool) (c : Char) : Bool :=
  isWordChar c || ";/?:@&=+$.!~*'()".contains c || (verbatim && ",[]".contains c)

/-- How many bytes the character has that starts with a byte. -/
def sequenceLength? (n : Nat) : Option Nat :=
  if n < 0x80 then some 1
  else if 0xC0 ≤ n ∧ n < 0xE0 then some 2
  else if 0xE0 ≤ n ∧ n < 0xF0 then some 3
  else if 0xF0 ≤ n ∧ n < 0xF8 then some 4
  else none

/-- A byte that is written as `%` and two digits. -/
def escapedByte? : List Char → Option (Nat × List Char)
  | '%' :: a :: b :: rest => do return ((← hexValue? a) * 16 + (← hexValue? b), rest)
  | _ => none

def escapedTail? : Nat → List Char → Option (List Nat)
  | 0, _ => some []
  | n + 1, text => do
    let (byte, rest) ← escapedByte? text
    if 0x80 ≤ byte ∧ byte < 0xC0 then return byte :: (← escapedTail? n rest) else none

/-- A character that is written as bytes, and how many bytes it has. -/
def escapedChar? (text : List Char) : Option (String × Nat) := do
  let (byte, rest) ← escapedByte? text
  let n ← sequenceLength? byte
  let bytes := byte :: (← escapedTail? (n - 1) rest)
  let decoded := String.fromUTF8? ⟨(bytes.map Nat.toUInt8).toArray⟩
  return (decoded.getD "\ufffd", n)

def tagText? (verbatim : Bool) : (fuel : Nat) → Cursor → String → Option (Cursor × String)
  | 0, c, text => some (c, text)
  | fuel + 1, c, text =>
    match c.peek? 0 with
    | none => some (c, text)
    | some ch =>
      if ch = '%' then do
        let (e, n) ← escapedChar? c.rest
        tagText? verbatim fuel (c.skip (3 * n)) (text ++ e)
      else if isTagChar verbatim ch then tagText? verbatim fuel (c.skip 1) (text.push ch)
      else some (c, text)

def nonemptyTag? (verbatim : Bool) (c : Cursor) : Option (Cursor × String) := do
  let (next, text) ← tagText? verbatim (c.rest.length + 1) c ""
  if next.index = c.index then none else return (next, text)

/-- The text up to a second `!`, or up to the first character that is not of a name. -/
def tagHandleAt? (c : Cursor) : Option (Cursor × String) :=
  if !c.at? '!' then none
  else
    let name := ((c.skip 1).rest.takeWhile isWordChar).length
    let n := if (c.skip (name + 1)).at? '!' then name + 2 else name + 1
    some (c.skip n, String.ofList (c.rest.take n))

/-- Whether a text that starts with `!` is a handle: it ends with another one. -/
def isHandle (s : String) : Bool := s.length > 1 && s.endsWith "!"

def tagAt? (c : Cursor) : Option (Cursor × Token) :=
  if c.peek? 1 = some '<' then do
    let (c, text) ← nonemptyTag? true (c.skip 2)
    if c.at? '>' then return (c.skip 1, .tag "" text) else none
  else do
    let (next, handle) ← tagHandleAt? c
    if isHandle handle then
      let (c, text) ← nonemptyTag? false next
      return (c, .tag handle text)
    else
      let (c, text) ← tagText? false (next.rest.length + 1) next (handle.drop 1).toString
      return (c, if text.isEmpty then .tag "" "!" else .tag "!" text)

def tag : Scan Unit := do
  noteCandidate
  allowKey false
  let s ← get
  let (c, t) ← tagAt? s.cursor
  if (s.inFlow && c.at? ',') || c.gapAt 0 then pushUpTo c t else failure

/-! ### Directives -/

def versionNumber? (c : Cursor) : Option (Cursor × Nat) :=
  let digits := c.rest.takeWhile Char.isDigit
  if digits.isEmpty || digits.length > 9 then none
  else some (c.skip digits.length, digits.foldl (fun n d => n * 10 + (d.toNat - '0'.toNat)) 0)

def directiveAt? (c : Cursor) : Option (Cursor × Token) := do
  let name := c.rest.takeWhile isWordChar
  let c := c.skip name.length
  if !c.gapAt 0 then failure
  let c := c.skipWhile isSpace
  match String.ofList name with
  | "YAML" =>
    let (c, major) ← versionNumber? c
    if !c.at? '.' then failure
    let (c, minor) ← versionNumber? (c.skip 1)
    return (c, .version major minor)
  | "TAG" =>
    let (c, handle) ← tagHandleAt? c
    if !(isHandle handle || handle = "!") || !(c.peek? 0).any isSpace then failure
    let (c, start) ← nonemptyTag? true (c.skipWhile isSpace)
    if !c.gapAt 0 then failure
    return (c, .tagHandle handle start)
  | _ => failure

def directive : Scan Unit := do
  closeBlocks (-1)
  forgetCandidate
  allowKey false
  let (c, t) ← directiveAt? ((← get).cursor.skip 1)
  pushUpTo (← c.endLine?) t

/-! ### Scalars -/

def blockScalar (literal : Bool) : Scan Unit := do
  forgetCandidate
  allowKey true
  let s ← get
  let (c, text) ← blockScalar? literal s.indent (s.cursor.skip 1)
  pushUpTo c (.scalar false text)

def quotedScalar (quote : Char) : Scan Unit := do
  noteCandidate
  allowKey false
  let c := (← get).cursor.skip 1
  let (c, text) ← quotedScalar? quote (c.rest.length + 1) c ""
  pushUpTo c (.scalar false text)

def plainScalar : Scan Unit := do
  noteCandidate
  allowKey false
  let s ← get
  let indent := (s.indent + 1).toNat
  let (c, text, ended) ← plainScalar? s.inFlow indent (s.cursor.rest.length + 1) s.cursor "" .empty
  pushUpTo c (.scalar true text)
  if ended then allowKey true

/-- Characters that cannot start a plain scalar, except as `startsPlain` says. -/
def isIndicator (c : Char) : Bool := "-?:,[]\x7b\x7d#&*!|>'\"%@`".contains c

def startsPlain (s : Scanner) (ch : Char) : Bool :=
  !(isGap ch || isIndicator ch) || (ch = '-' && !(s.cursor.peek? 1).any isSpace) ||
    (!s.inFlow && (ch = '?' || ch = ':') && !s.cursor.gapAt 1)

/-! ### The whole text -/

def tokenAt (s : Scanner) (ch : Char) : Scan Unit :=
  let c := s.cursor
  if c.column = 0 && ch = '%' then directive
  else if c.atMark "---" then documentMark .documentStart
  else if c.atMark "..." then documentMark .documentEnd
  else if ch = '[' then flowStart .flowSequenceStart
  else if ch = '\x7b' then flowStart .flowMappingStart
  else if ch = ']' then flowEnd .flowSequenceEnd
  else if ch = '\x7d' then flowEnd .flowMappingEnd
  else if ch = ',' then flowEntry
  else if ch = '-' && c.gapAt 1 then blockEntry
  else if ch = '?' && (s.inFlow || c.gapAt 1) then explicitKey
  else if ch = ':' && (s.inFlow || c.gapAt 1) then value
  else if ch = '*' then anchor .alias
  else if ch = '&' then anchor .anchor
  else if ch = '!' then tag
  else if ch = '|' && !s.inFlow then blockScalar true
  else if ch = '>' && !s.inFlow then blockScalar false
  else if ch = '\'' || ch = '"' then quotedScalar ch
  else if startsPlain s ch then plainScalar
  else failure

def streamEnd : Scan Unit := do
  closeBlocks (-1)
  forgetCandidate
  modify (·.push .streamEnd)

def tokens : (fuel : Nat) → Scan Unit
  | 0 => failure
  | fuel + 1 => do
    modify fun s => toNextToken (s.cursor.rest.length + 1) s
    forgetStale
    closeBlocks (← get).cursor.column
    let s ← get
    match s.cursor.peek? 0 with
    | none => streamEnd
    | some ch => do
      tokenAt s ch
      tokens fuel

/-- The tokens of a text; none if it is malformed. -/
def scan? (text : String) : Option (List Token) :=
  let chars := text.toList
  if !chars.all isPrintable then none
  else ((tokens (chars.length + 1)).run (.start chars)).map (·.2.tokens.toList)

end UnusedMethods.Yaml
