import UnusedMethods.Syntax.Tree

/-!
# Tokens

A source text is a sequence of tokens, each with the gap of white space and comments in front of
it. A gap remembers whether a line ends in it, because a line end closes whatever is complete
there. The last token of every sequence stands for the end of the text.
-/

namespace UnusedMethods.Syntax

/-- What a token is. Words are identifiers and keywords, symbols are operators and brackets. -/
inductive Token.Kind where
  | word
  | literal (kind : LitKind)
  | symbol
  | eof
deriving DecidableEq

/-- A token with its text, its place and the gap in front of it. -/
structure Token where
  kind : Token.Kind
  text : String
  pos : Pos
  gap : String
  /-- A line ends in the gap, outside any comment. -/
  breaks : Bool
  commented : Bool

namespace Token

/-- Words that never name anything. -/
def keywords : List String :=
  ["break", "case", "chan", "const", "continue", "default", "defer", "else", "fallthrough", "for",
   "func", "go", "goto", "if", "import", "interface", "map", "package", "range", "return",
   "select", "struct", "switch", "type", "var"]

/-- Names that an expression reads as such and never as the name of a type. -/
def valueWords : List String := ["nil", "true", "false", "iota", "new", "make"]

def isSymbol (t : Token) (s : String) : Bool := t.kind == .symbol && t.text == s

def isKeyword (t : Token) (k : String) : Bool := t.kind == .word && t.text == k

def isName (t : Token) : Bool := t.kind == .word && !keywords.contains t.text

def toIdent (t : Token) : Ident := ⟨t.text, t.pos⟩

/-- The label of an expression that starts at the token; numbers are given later. -/
def toNode (t : Token) : Node := ⟨0, t.pos⟩

def join : List Token → String
  | [] => ""
  | t :: ts => ts.foldl (fun acc u => acc ++ u.gap ++ u.text) t.text

/-- Cut the first character off a symbol, for operators written without a blank between them. -/
def behead (t : Token) : Token :=
  { t with
    text := (t.text.drop 1).toString
    pos := ⟨t.pos.line, t.pos.column + 1⟩
    gap := ""
    breaks := false
    commented := false }

end Token

end UnusedMethods.Syntax
