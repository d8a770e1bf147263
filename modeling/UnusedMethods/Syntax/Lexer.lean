import UnusedMethods.Text.Letter
import UnusedMethods.Syntax.Token

/-!
# Reading tokens

`Token.scan?` splits a text into tokens. Gaps are white space, `//` comments up to the end of
their line and `/* */` comments; a `/*` that is never closed is not a comment. At every place the
longest token wins. Main statement: gaps and token texts, put together again, are the text that
was scanned.
-/

namespace UnusedMethods.Syntax

/-! ### Gaps -/

/-- White space between tokens: tab to carriage return, and the blank. -/
def isBlank (c : Char) : Bool := (9 ≤ c.toNat && c.toNat ≤ 13) || c == ' '

/-- Whether `*/` occurs in a text. -/
def closesComment : List Char → Bool
  | [] => false
  | '*' :: '/' :: _ => true
  | _ :: cs => closesComment cs

/-- Where a character of a gap stands. -/
inductive GapPart where
  | blank
  | line
  | block

/-- Extent of a gap: how many characters it has, whether a line ends in it outside its comments,
and whether it has a comment. -/
structure Gap where
  length : Nat
  breaks : Bool
  commented : Bool

namespace Gap

def none : Gap := ⟨0, false, false⟩

/-- One more character in front, which ends a line or belongs to a comment as given. -/
def cons (breaks commented : Bool) (g : Gap) : Gap :=
  ⟨g.length + 1, breaks || g.breaks, commented || g.commented⟩

/-- The longest gap at the front of a text, starting inside the given part. -/
def measure : GapPart → List Char → Gap
  | .blank, '/' :: '/' :: cs => cons false true (cons false true (measure .line cs))
  | .blank, '/' :: '*' :: cs =>
    if closesComment cs then cons false true (cons false true (measure .block cs)) else none
  | .blank, c :: cs => if isBlank c then cons (c == '\n') false (measure .blank cs) else none
  | .line, '\n' :: cs => cons true false (measure .blank cs)
  | .line, _ :: cs => cons false true (measure .line cs)
  | .block, '*' :: '/' :: cs => cons false true (cons false true (measure .blank cs))
  | .block, _ :: cs => cons false true (measure .block cs)
  | _, [] => none

end Gap

/-! ### Numbers

Each reader takes a text and gives what is left after the longest match, if any. -/

namespace Numeral

/-- A reader of one part of a numeral. -/
abbrev Reader := List Char → Option (List Char)

def one (p : Char → Bool) : Reader
  | c :: cs => if p c then some cs else none
  | [] => none

def optional (r : Reader) : Reader := fun cs => some ((r cs).getD cs)

def seq (r s : Reader) : Reader := fun cs => (r cs).bind s

def longest (r s : Reader) : Reader := fun cs =>
  match r cs, s cs with
  | some a, some b => if b.length < a.length then some b else some a
  | some a, none => some a
  | none, b => b

def moreDigits (p : Char → Bool) : List Char → List Char
  | '_' :: c :: cs => if p c then moreDigits p cs else '_' :: c :: cs
  | c :: cs => if p c then moreDigits p cs else c :: cs
  | [] => []

/-- Digits of a class, single underscores between them. -/
def digits (p : Char → Bool) : Reader := fun cs => (one p cs).map (moreDigits p)

def isHex (c : Char) : Bool :=
  c.isDigit || ('a' ≤ c && c ≤ 'f') || ('A' ≤ c && c ≤ 'F')

def isOctal (c : Char) : Bool := '0' ≤ c && c ≤ '7'

def isBinary (c : Char) : Bool := c == '0' || c == '1'

def char (c : Char) : Reader := one (· == c)

def letter (c : Char) : Reader := one fun d => d == c || d == c.toUpper

/-- A leading `0` and the letter of a base. -/
def base (c : Char) : Reader := seq (char '0') (letter c)

def decimals : Reader := digits Char.isDigit

def int : Reader :=
  longest
    (longest
      (seq (base 'b') (seq (optional (char '_')) (digits isBinary)))
      (seq (base 'x') (seq (optional (char '_')) (digits isHex))))
    (longest
      (longest (char '0')
        (seq (one fun c => c.isDigit && c != '0')
          (optional (seq (optional (char '_')) decimals))))
      (seq (char '0') (seq (optional (letter 'o')) (seq (optional (char '_')) (digits isOctal)))))

def exponent (c : Char) : Reader :=
  seq (letter c) (seq (optional (one fun d => d == '+' || d == '-')) decimals)

def decimalFloat : Reader :=
  longest
    (longest
      (seq decimals (seq (char '.') (seq (optional decimals) (optional (exponent 'e')))))
      (seq decimals (exponent 'e')))
    (seq (char '.') (seq decimals (optional (exponent 'e'))))

def hexFloat : Reader :=
  let whole := seq (optional (char '_')) (digits isHex)
  seq (base 'x')
    (longest
      (longest
        (seq whole (seq (char '.') (seq (optional (digits isHex)) (exponent 'p'))))
        (seq whole (exponent 'p')))
      (seq (char '.') (seq (digits isHex) (exponent 'p'))))

def float : Reader := longest decimalFloat hexFloat

def imag : Reader :=
  longest (longest (seq decimals (char 'i')) (seq int (char 'i'))) (seq float (char 'i'))

end Numeral

/-! ### Other literals -/

/-- Drop `n` characters of a class, all of which must be there. -/
def exactly (p : Char → Bool) : Nat → Numeral.Reader
  | 0 => some
  | n + 1 => Numeral.seq (Numeral.one p) (exactly p n)

/-- What is left of a string literal after the opening quotation mark and the literal's end. -/
def stringRest : List Char → Option (List Char)
  | [] => none
  | '"' :: cs => some cs
  | '\n' :: _ => none
  | '\\' :: 'x' :: a :: b :: cs =>
    if Numeral.isHex a && Numeral.isHex b then stringRest cs else none
  | '\\' :: 'u' :: a :: b :: c :: d :: cs =>
    if [a, b, c, d].all Numeral.isHex then stringRest cs else none
  | '\\' :: 'U' :: a :: b :: c :: d :: e :: f :: g :: h :: cs =>
    if [a, b, c, d, e, f, g, h].all Numeral.isHex then stringRest cs else none
  | '\\' :: c :: cs => if c == 'x' || c == 'u' || c == 'U' then none else stringRest cs
  | '\\' :: [] => none
  | _ :: cs => stringRest cs

/-- What is left of a raw string literal after its opening quotation mark. -/
def rawStringRest : List Char → Option (List Char)
  | [] => none
  | '\x60' :: cs => some cs
  | _ :: cs => rawStringRest cs

/-- What is left of a rune literal after its opening quotation mark. -/
def runeRest : List Char → Option (List Char)
  | '\\' :: 'x' :: cs => Numeral.seq (exactly Numeral.isHex 2) (Numeral.char '\'') cs
  | '\\' :: 'u' :: cs => Numeral.seq (exactly Numeral.isHex 4) (Numeral.char '\'') cs
  | '\\' :: 'U' :: cs => Numeral.seq (exactly Numeral.isHex 8) (Numeral.char '\'') cs
  | '\\' :: c :: cs =>
    if Numeral.isOctal c then Numeral.seq (exactly Numeral.isOctal 2) (Numeral.char '\'') cs
    else if "abfnrtv\\'\"".toList.contains c then Numeral.char '\'' cs
    else none
  | c :: cs => if c == '\'' then none else Numeral.char '\'' cs
  | [] => none

/-! ### Symbols -/

/-- Operators and brackets of more than one character, longer ones first. -/
def longSymbols : List String :=
  ["<<=", ">>=", "&^=", "...",
   "&&", "||", "<-", "++", "--", "==", "!=", "<=", ">=", ":=", "+=", "-=", "*=", "/=", "%=", "&=",
   "|=", "^=", "<<", ">>", "&^"]

/-- Operators and brackets of one character. A NUL ends a statement as `;` does. -/
def shortSymbols : List Char :=
  ['+', '-', '*', '/', '%', '&', '|', '^', '<', '>', '=', '!', '(', ')', '[', ']', '\x7b', '\x7d',
   ',', ';', '.', ':', '~', '\x00']

def symbolLength? (cs : List Char) : Option Nat :=
  match longSymbols.find? fun s => s.toList.isPrefixOf cs with
  | some s => some s.length
  | none =>
    match cs with
    | c :: _ => if shortSymbols.contains c then some 1 else none
    | [] => none

namespace Token

/-! ### Tokens -/

/-- The kind of the token that starts with `c` and goes on in `cs`, and how many characters of
`cs` belong to it. -/
def extent? (c : Char) (cs : List Char) : Option (Kind × Nat) :=
  let upTo (kind : Kind) (rest : Option (List Char)) : Option (Kind × Nat) :=
    rest.map fun r => (kind, cs.length - r.length)
  let number (kind : LitKind) (r : Numeral.Reader) : Option (LitKind × Nat) :=
    (r (c :: cs)).map fun rest => (kind, cs.length - rest.length)
  let better (a b : Option (LitKind × Nat)) : Option (LitKind × Nat) :=
    match a, b with
    | some x, some y => if x.2 < y.2 then some y else some x
    | some x, none => some x
    | none, y => y
  if Text.Letter.isStart c then
    some (.word, (cs.takeWhile Text.Letter.isTail).length)
  else if c == '"' then upTo (.literal .string) (stringRest cs)
  else if c == '\x60' then upTo (.literal .string) (rawStringRest cs)
  else if c == '\'' then upTo (.literal .rune) (runeRest cs)
  else
    match better (number .int Numeral.int)
        (better (number .float Numeral.float) (number .imag Numeral.imag)) with
    | some (kind, n) => some (.literal kind, n)
    | none => (symbolLength? (c :: cs)).map fun n => (.symbol, n - 1)

/-- Split a text that starts at `pos` into tokens. -/
def scanFrom? (pos : Pos) (cs : List Char) : Option (List Token) :=
  let gap := Gap.measure .blank cs
  let before := cs.take gap.length
  let start := pos.after before
  match _h : cs.drop gap.length with
  | [] => some [⟨.eof, "", start, String.ofList before, gap.breaks, gap.commented⟩]
  | c :: rest => do
    let (kind, n) ← extent? c rest
    let text := c :: rest.take n
    let more ← scanFrom? (start.after text) (rest.drop n)
    return ⟨kind, String.ofList text, start, String.ofList before, gap.breaks, gap.commented⟩
      :: more
termination_by cs.length
decreasing_by
  have := congrArg List.length _h
  simp only [List.length_drop, List.length_cons] at this
  simp only [List.length_drop]
  omega

/-- Put a text back in front of the first gap. -/
def prependGap (front : String) : List Token → List Token
  | t :: ts => { t with gap := front ++ t.gap } :: ts
  | [] => []

/-- Split a text into tokens. A byte order mark at the start belongs to the first gap. -/
def scan? (text : String) : Option (List Token) :=
  match text.toList with
  | '\uFEFF' :: cs => (scanFrom? (Pos.start.advance '\uFEFF') cs).map (prependGap "\uFEFF")
  | cs => scanFrom? Pos.start cs

end Token

end UnusedMethods.Syntax
