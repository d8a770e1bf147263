/-!
# Places in a YAML text

A cursor holds what is left of a text, and where that starts.
-/

namespace UnusedMethods.Yaml

def isBreak (c : Char) : Bool :=
  c = '\n' || c = '\r' || c = '\u0085' || c = '\u2028' || c = '\u2029'

def isSpace (c : Char) : Bool := c = ' ' || c = '\t'

def isGap (c : Char) : Bool := isSpace c || isBreak c

/-- Letters of names: letters, digits, `_` and `-`. -/
def isWordChar (c : Char) : Bool := c.isAlphanum || c = '_' || c = '-'

def isPrintable (c : Char) : Bool :=
  let n := c.toNat
  n == 0x09 || n == 0x0A || n == 0x0D || (0x20 ≤ n && n ≤ 0x7E) || n == 0x85 ||
    (0xA0 ≤ n && n ≤ 0xFFFD) || 0x10000 ≤ n

/-- The rest of a text with its place; all places count from zero. -/
structure Cursor where
  rest : List Char
  index : Nat
  line : Nat
  column : Nat

namespace Cursor

def start (text : List Char) : Cursor := { rest := text, index := 0, line := 0, column := 0 }

def peek? (c : Cursor) (n : Nat) : Option Char := c.rest[n]?

def at? (c : Cursor) (ch : Char) : Bool := c.peek? 0 = some ch

/-- Whether a word ends so many places ahead: at a space, a line's end or the end of the text. -/
def gapAt (c : Cursor) (n : Nat) : Bool := (c.peek? n).all isGap

def atLineEnd (c : Cursor) : Bool := (c.peek? 0).all isBreak

def skip (c : Cursor) (n : Nat) : Cursor :=
  { c with rest := c.rest.drop n, index := c.index + n, column := c.column + n }

def skipWhile (c : Cursor) (p : Char → Bool) : Cursor := c.skip (c.rest.takeWhile p).length

/-- The line end at the cursor, as a text, with the cursor after it. A carriage return and a line feed
are one line end. -/
def break? (c : Cursor) : Option (String × Cursor) :=
  match c.rest with
  | '\r' :: '\n' :: rest => some ("\n", next rest 2)
  | ch :: rest =>
    if ch = '\u2028' ∨ ch = '\u2029' then some (ch.toString, next rest 1)
    else if isBreak ch then some ("\n", next rest 1)
    else none
  | [] => none
where
  next (rest : List Char) (n : Nat) : Cursor :=
    { rest, index := c.index + n, line := c.line + 1, column := 0 }

/-- Whether a line starts here that has only the given mark, or the mark and a gap. -/
def atMark (c : Cursor) (mark : String) : Bool :=
  c.column = 0 && mark.toList.isPrefixOf c.rest && c.gapAt mark.length

/-- Whether a line starts here that starts or ends a document. -/
def atDocumentMark (c : Cursor) : Bool := c.atMark "---" || c.atMark "..."

def endLine? (c : Cursor) : Option Cursor :=
  let c := c.skipWhile isSpace
  let c := if c.at? '#' then c.skipWhile (!isBreak ·) else c
  if c.rest.isEmpty then some c else c.break?.map (·.2)

end Cursor

end UnusedMethods.Yaml
