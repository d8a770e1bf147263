/-!
# Globs

Patterns for paths. `?` stands for one byte and `*` for any number of bytes, neither for `/`; `**`
between slashes stands for any number of directories; `[…]` stands for one byte of a class, and
`{…,…}` for one of several patterns. A backslash takes away the meaning of the next character.

Paths are matched as bytes of their UTF-8 encoding.
-/

namespace UnusedMethods.Glob

/-! ### Patterns -/

inductive Token where
  | literal (c : Char)
  | one
  | many
  /-- `**/` at the start. -/
  | anyDirs
  /-- `/**` at the end. -/
  | anyBelow
  /-- `/**/` in the middle. -/
  | anyBetween
  | charClass (negated : Bool) (ranges : List (Char × Char))
  | choice (branches : List (List Token))

/-- Why a text is no glob. -/
inductive Fault where
  | unclosedClass
  | invalidRange (first last : Char)
  | unopenedChoice
  | unclosedChoice
  | danglingEscape
deriving DecidableEq

def Fault.message : Fault → String
  | .unclosedClass => "unclosed character class; missing ']'"
  | .invalidRange first last =>
    "invalid range; '" ++ first.toString ++ "' > '" ++ last.toString ++ "'"
  | .unopenedChoice =>
    "unopened alternate group; missing '\x7b' (maybe escape '\x7d' with '[\x7d]'?)"
  | .unclosedChoice =>
    "unclosed alternate group; missing '\x7d' (maybe escape '\x7b' with '[\x7b]'?)"
  | .danglingEscape => "dangling '\\'"

/-! ### Reading -/

/-- A choice that is being read. -/
structure OpenChoice where
  /-- Branches read so far, the last first. -/
  branches : List (List Token)
  /-- Tokens before the choice, the last first. -/
  before : List Token

structure Progress where
  /-- Tokens of the current branch, the last first. -/
  tokens : List Token
  choices : List OpenChoice

namespace Progress

def push (p : Progress) (tok : Token) : Progress := { p with tokens := tok :: p.tokens }

/-- Puts a token in the place of the last one, unless that already stands for any directories. -/
def replaceLast (p : Progress) (tok : Token) : Progress :=
  match p.tokens with
  | .anyDirs :: _ => p
  | .anyBelow :: _ => p
  | _ :: before => { p with tokens := tok :: before }
  | [] => p

def openChoice (p : Progress) : Progress :=
  { tokens := [], choices := { branches := [], before := p.tokens } :: p.choices }

/-- Starts the next branch of a choice. Outside a choice, the comma is a literal. -/
def nextBranch (p : Progress) : Progress :=
  match p.choices with
  | [] => p.push (.literal ',')
  | c :: cs => { tokens := [], choices := { c with branches := p.tokens.reverse :: c.branches } :: cs }

def closeChoice (p : Progress) : Except Fault Progress :=
  match p.choices with
  | [] => .error .unopenedChoice
  | c :: cs =>
    .ok { tokens := .choice (p.tokens.reverse :: c.branches).reverse :: c.before, choices := cs }

end Progress

/-- The ranges of a class with the upper end of the last one set; the ranges are listed from the last
to the first. -/
def extendRange (ranges : List (Char × Char)) (last : Char) : Except Fault (List (Char × Char)) :=
  match ranges with
  | (first, _) :: rest =>
    if last < first then .error (.invalidRange first last) else .ok ((first, last) :: rest)
  | [] => .ok []

mutual

/-- Reads the rest of a glob; `prev` is the character before it. -/
def readTokens (prev : Option Char) (p : Progress) : List Char → Except Fault Progress
  | [] => .ok p
  | '?' :: cs => readTokens (some '?') (p.push .one) cs
  | '*' :: '*' :: cs =>
    let plain := (p.push .many).push .many
    if p.tokens.isEmpty then
      match cs with
      | [] => .ok (p.push .anyDirs)
      | '/' :: rest => readTokens (some '/') (p.push .anyDirs) rest
      | c :: rest => readTokens (some '*') plain (c :: rest)
    else if prev != some '/' && (p.choices.isEmpty || (prev != some ',' && prev != some '\x7b')) then
      readTokens (some '*') plain cs
    else
      match cs with
      | [] => .ok (p.replaceLast .anyBelow)
      | '/' :: rest => readTokens (some '/') (p.replaceLast .anyBetween) rest
      | c :: rest =>
        if (c = ',' ∨ c = '\x7d') ∧ !p.choices.isEmpty then
          readTokens (some '*') (p.replaceLast .anyBelow) (c :: rest)
        else readTokens (some '*') plain (c :: rest)
  | '*' :: cs => readTokens (some '*') (p.push .many) cs
  | '[' :: '!' :: cs => readClass p true [] true false cs
  | '[' :: '^' :: cs => readClass p true [] true false cs
  | '[' :: cs => readClass p false [] true false cs
  | '\x7b' :: cs => readTokens (some '\x7b') p.openChoice cs
  | '\x7d' :: cs =>
    match p.closeChoice with
    | .ok p => readTokens (some '\x7d') p cs
    | .error e => .error e
  | ',' :: cs => readTokens (some ',') p.nextBranch cs
  | '\\' :: [] => .error .danglingEscape
  | '\\' :: c :: cs => readTokens (some c) (p.push (.literal c)) cs
  | c :: cs => readTokens (some c) (p.push (.literal c)) cs
termination_by structural cs => cs

/-- Reads the rest of a class. The ranges are listed from the last to the first; `inRange` says that a
`-` was read whose right side is to come. -/
def readClass (p : Progress) (negated : Bool) (ranges : List (Char × Char)) (first inRange : Bool) :
    List Char → Except Fault Progress
  | [] => .error .unclosedClass
  | c :: cs =>
    if c = ']' ∧ !first then
      let ranges := if inRange then ('-', '-') :: ranges else ranges
      readTokens (some ']') (p.push (.charClass negated ranges.reverse)) cs
    else if inRange then
      match extendRange ranges c with
      | .ok ranges => readClass p negated ranges false false cs
      | .error e => .error e
    else if c = '-' ∧ !first then readClass p negated ranges false true cs
    else readClass p negated ((c, c) :: ranges) false false cs
termination_by structural cs => cs

end

def read (text : String) : Except Fault (List Token) :=
  match readTokens none { tokens := [], choices := [] } text.toList with
  | .error e => .error e
  | .ok p => if p.choices.isEmpty then .ok p.tokens.reverse else .error .unclosedChoice

/-! ### Matching -/

/-- A set of bytes: those in one of the ranges or, if negated, those in none. -/
structure ByteSet where
  negated : Bool
  ranges : List (UInt8 × UInt8)

namespace ByteSet

def all : ByteSet := ⟨true, []⟩

/-- All bytes but that of `/`. -/
def notSlash : ByteSet := ⟨true, [(47, 47)]⟩

def single (b : UInt8) : ByteSet := ⟨false, [(b, b)]⟩

def contains (s : ByteSet) (b : UInt8) : Bool :=
  (s.ranges.any fun (lo, hi) => lo ≤ b && b ≤ hi) != s.negated

end ByteSet

def bytesOf (c : Char) : List UInt8 := c.toString.toUTF8.toList

/-- The bytes that a range of characters stands for. Of a character with several bytes, each byte
counts on its own; the range is that between the neighbouring bytes of its ends. -/
def byteRanges : Char × Char → List (UInt8 × UInt8)
  | (first, last) =>
    let single (b : UInt8) : UInt8 × UInt8 := (b, b)
    if first = last then (bytesOf first).map single
    else
      match (bytesOf first).reverse, bytesOf last with
      | lo :: before, hi :: after => before.reverse.map single ++ (lo, hi) :: after.map single
      | _, _ => []

inductive Pattern where
  | one (set : ByteSet)
  | many (set : ByteSet)
  | choice (branches : List (List Pattern))

def slash : Pattern := .one (.single 47)

mutual

def Token.patterns : Token → List Pattern
  | .literal c => (bytesOf c).map fun b => .one (.single b)
  | .one => [.one .notSlash]
  | .many => [.many .notSlash]
  | .anyDirs => [.choice [[], [slash], [.many .all, slash]]]
  | .anyBelow => [slash, .many .all]
  | .anyBetween => [.choice [[slash], [slash, .many .all, slash]]]
  | .charClass negated ranges => [.one ⟨negated, ranges.flatMap byteRanges⟩]
  | .choice branches =>
    let branches := (branchPatterns branches).filter fun b => !b.isEmpty
    if branches.isEmpty then [] else [.choice branches]
termination_by structural t => t

def tokenPatterns : List Token → List Pattern
  | [] => []
  | t :: ts => t.patterns ++ tokenPatterns ts
termination_by structural ts => ts

def branchPatterns : List (List Token) → List (List Pattern)
  | [] => []
  | b :: bs => tokenPatterns b :: branchPatterns bs
termination_by structural bs => bs

end

/-- The patterns of a glob. A glob that stands for any directories and nothing else matches every
path. -/
def patterns : List Token → List Pattern
  | [.anyDirs] => [.many .all]
  | ts => tokenPatterns ts

/-- Whether some bytes of a set can be taken so that the rest is accepted by `k`. -/
def matchMany (set : ByteSet) (k : List UInt8 → Bool) : List UInt8 → Bool
  | [] => k []
  | b :: bs => k (b :: bs) || (set.contains b && matchMany set k bs)

mutual

/-- Whether bytes start with a pattern and the rest is accepted by `k`. -/
def Pattern.accepts (k : List UInt8 → Bool) : Pattern → List UInt8 → Bool
  | .one set, bs =>
    match bs with
    | [] => false
    | b :: bs => set.contains b && k bs
  | .many set, bs => matchMany set k bs
  | .choice branches, bs => acceptsSome k branches bs
termination_by structural p => p

/-- Whether bytes start with patterns one after the other and the rest is accepted by `k`. -/
def acceptsAll (k : List UInt8 → Bool) : List Pattern → List UInt8 → Bool
  | [], bs => k bs
  | p :: ps, bs => p.accepts (acceptsAll k ps) bs
termination_by structural ps => ps

/-- Whether bytes start with one of the branches and the rest is accepted by `k`. -/
def acceptsSome (k : List UInt8 → Bool) : List (List Pattern) → List UInt8 → Bool
  | [], _ => false
  | b :: bss, bs => acceptsAll k b bs || acceptsSome k bss bs
termination_by structural bss => bss

end

def isMatch (glob : List Token) (text : String) : Bool :=
  acceptsAll List.isEmpty (patterns glob) text.toUTF8.toList

end UnusedMethods.Glob
