import UnusedMethods.Toml.Value

/-!
# Reading TOML

Readers work on the characters that are left. A text is malformed if a reader fails.
-/

namespace UnusedMethods.Toml

/-- A reader of the front of a text. -/
abbrev Read := StateT (List Char) Option

namespace Read

def accept (text : String) : Read Bool := do
  let cs ← get
  if text.toList.isPrefixOf cs then
    set (cs.drop text.length)
    return true
  else return false

def expect (text : String) : Read Unit := do
  if !(← accept text) then failure

/-- Takes the characters that come next and have a property. -/
def takeWhile (p : Char → Bool) : Read (List Char) :=
  modifyGet fun cs => (cs.takeWhile p, cs.dropWhile p)

def spaces : Read Unit := discard (takeWhile fun c => c = ' ' || c = '\t')

/-- Goes over a line end, if it comes next. -/
def newline : Read Bool := do
  if ← accept "\n" then return true else accept "\r\n"

end Read

/-- Characters that may stand in comments and in quotes. -/
def isTextChar (c : Char) : Bool := c = '\t' || (' ' ≤ c && c ≤ '~') || '\u0080' ≤ c

def comment : Read Unit := do
  if ← Read.accept "#" then discard (Read.takeWhile isTextChar)

def lineEnd : Read Unit := do
  Read.spaces
  comment
  if !(← get).isEmpty then
    if !(← Read.newline) then failure

/-- Goes over spaces, comments and line ends. -/
def gap : (fuel : Nat) → Read Unit
  | 0 => pure ()
  | fuel + 1 => do
    Read.spaces
    comment
    if ← Read.newline then gap fuel

/-! ### Strings -/

/-- The value of digits with a base; none if one of them is no such digit. -/
def digits? (base : Nat) (cs : List Char) : Option Nat :=
  cs.foldlM (fun n c => do
    let d ← digit? c
    if d < base then some (n * base + d) else none) 0
where
  digit? (c : Char) : Option Nat :=
    if c.isDigit then some (c.toNat - '0'.toNat)
    else if 'a' ≤ c ∧ c ≤ 'f' then some (c.toNat - 'a'.toNat + 10)
    else if 'A' ≤ c ∧ c ≤ 'F' then some (c.toNat - 'A'.toNat + 10)
    else none

def numberedChar (n : Nat) : Read Char := do
  let cs ← get
  if cs.length < n then failure
  set (cs.drop n)
  match digits? 16 (cs.take n) with
  | some v => if v.isValidChar then return Char.ofNat v else failure
  | none => failure

/-- The character that an escape stands for, after the backslash. -/
def escape : Read Char := do
  match ← get with
  | [] => failure
  | c :: rest =>
    set rest
    match c with
    | 'b' => return Char.ofNat 8
    | 't' => return '\t'
    | 'n' => return '\n'
    | 'f' => return Char.ofNat 12
    | 'r' => return '\r'
    | '"' | '\\' => return c
    | 'u' => numberedChar 4
    | 'U' => numberedChar 8
    | _ => failure

def shortString (quote : Char) : (fuel : Nat) → Read (List Char)
  | 0 => failure
  | fuel + 1 => do
    match ← get with
    | [] => failure
    | c :: rest =>
      set rest
      if c = quote then return []
      else if c = '\\' ∧ quote = '"' then
        let e ← escape
        return e :: (← shortString quote fuel)
      else if isTextChar c then return c :: (← shortString quote fuel)
      else failure

/-- Whether a backslash is followed by a line end, with at most spaces between. -/
def escapesLineEnd (cs : List Char) : Bool :=
  match cs.dropWhile fun c => c = ' ' || c = '\t' with
  | '\n' :: _ => true
  | '\r' :: '\n' :: _ => true
  | _ => false

/-- The blanks that an escaped line end takes along. -/
def skipBlank : List Char → List Char
  | '\r' :: '\n' :: rest => skipBlank rest
  | c :: rest => if c = ' ' || c = '\t' || c = '\n' then skipBlank rest else c :: rest
  | [] => []

/-- The rest of a string that may have several lines. Up to two quotes may stand in front of the three
that end it. -/
def longString (quote : Char) : (fuel : Nat) → Read (List Char)
  | 0 => failure
  | fuel + 1 => do
    match ← get with
    | [] => failure
    | c :: rest =>
      if c = quote then
        let quotes := ((c :: rest).takeWhile (· = quote)).length
        if quotes ≥ 3 then
          set ((c :: rest).drop (min quotes 5))
          return List.replicate (min quotes 5 - 3) quote
        else
          set rest
          return c :: (← longString quote fuel)
      else if c = '\\' ∧ quote = '"' then
        if escapesLineEnd rest then
          set (skipBlank rest)
          longString quote fuel
        else
          set rest
          let e ← escape
          return e :: (← longString quote fuel)
      else if ← Read.newline then return '\n' :: (← longString quote fuel)
      else if isTextChar c then
        set rest
        return c :: (← longString quote fuel)
      else failure

/-- A string that may have several lines, after its opening quotes. -/
def longBody (quote : Char) : Read String := do
  discard Read.newline
  return String.ofList (← longString quote ((← get).length + 1))

def shortBody (quote : Char) : Read String := do
  return String.ofList (← shortString quote ((← get).length + 1))

/-! ### Keys -/

/-- Whether a character may stand in a key without quotation marks. -/
def isBareChar (c : Char) : Bool := c.isAlphanum || c = '_' || c = '-'

def simpleKey : Read String := do
  if ← Read.accept "\"" then shortBody '"'
  else if ← Read.accept "'" then shortBody '\''
  else
    match ← Read.takeWhile isBareChar with
    | [] => failure
    | cs => return String.ofList cs

def dottedKey : (fuel : Nat) → Read (List String)
  | 0 => failure
  | fuel + 1 => do
    Read.spaces
    let key ← simpleKey
    Read.spaces
    if ← Read.accept "." then return key :: (← dottedKey fuel)
    else return [key]

/-- A key: where it leads through, and its last part. -/
def key : Read (List String × String) := do
  let parts ← dottedKey ((← get).length + 1)
  match parts.getLast? with
  | some last => return (parts.dropLast, last)
  | none => failure

/-! ### Numbers and times -/

/-- Digits with single underscores between them, without the underscores. -/
def grouped? (isDigit : Char → Bool) (cs : List Char) : Option (List Char) :=
  go false cs
where
  go (afterDigit : Bool) : List Char → Option (List Char)
    | [] => if afterDigit then some [] else none
    | c :: rest =>
      if isDigit c then (go true rest).map (c :: ·)
      else if c = '_' ∧ afterDigit then go false rest
      else none

/-- Decimal digits that do not start with a zero, unless it is alone. -/
def decimal? (cs : List Char) : Option (List Char) := do
  let digits ← grouped? Char.isDigit cs
  if digits.length > 1 ∧ cs.head? = some '0' then none else some digits

def dropSign : List Char → Bool × List Char
  | '+' :: rest => (false, rest)
  | '-' :: rest => (true, rest)
  | cs => (false, cs)

def isInteger (cs : List Char) : Bool :=
  match cs with
  | '0' :: 'x' :: rest => fits false ((grouped? (fun c => (digits? 16 [c]).isSome) rest).bind (digits? 16))
  | '0' :: 'o' :: rest => fits false ((grouped? (fun c => (digits? 8 [c]).isSome) rest).bind (digits? 8))
  | '0' :: 'b' :: rest => fits false ((grouped? (fun c => (digits? 2 [c]).isSome) rest).bind (digits? 2))
  | _ =>
    let (negative, cs) := dropSign cs
    fits negative ((decimal? cs).bind (digits? 10))
where
  fits (negative : Bool) : Option Nat → Bool
    | some n => if negative then n ≤ Nat.pow 2 63 else n < Nat.pow 2 63
    | none => false

/-- Whether `n * 10 ^ e` is too large for a number with 53 binary digits and an exponent of 11. -/
def overflows (n : Nat) (e : Int) : Bool :=
  let limit := Nat.pow 2 1024 - Nat.pow 2 970
  if n = 0 then false
  else if e ≥ 400 then true
  else if e ≥ 0 then n * Nat.pow 10 e.toNat ≥ limit
  else n ≥ limit * Nat.pow 10 (-e).toNat

def isFloat (cs : List Char) : Bool :=
  let (negative, cs) := dropSign cs
  if cs = "inf".toList ∨ cs = "nan".toList then true
  else
    let isMark (c : Char) : Bool := c = '.' || c = 'e' || c = 'E'
    let whole := cs.takeWhile (!isMark ·)
    let rest := cs.dropWhile (!isMark ·)
    let (fraction, rest) :=
      match rest with
      | '.' :: r => (some (r.takeWhile (!isMark ·)), r.dropWhile (!isMark ·))
      | r => (none, r)
    let exponent :=
      match rest with
      | [] => some none
      | c :: r => if c = '.' then none else some (some r)
    match decimal? whole, exponent with
    | some w, some exponent =>
      let f := fraction.elim (some []) (grouped? Char.isDigit)
      let e : Option Int :=
        match exponent with
        | none => some 0
        | some r =>
          let (minus, r) := dropSign r
          (grouped? Char.isDigit r).bind fun ds => (digits? 10 ds).map fun n => if minus then -n else n
      match f, e with
      | some f, some e =>
        (fraction.isSome || exponent.isSome) &&
          (negative || !overflows ((digits? 10 (w ++ f)).getD 0) (e - f.length))
      | _, _ => false
    | _, _ => false

/-- Reads a number of so many digits that lies between two bounds. -/
def fixed? (count low high : Nat) (cs : List Char) : Option (Nat × List Char) := do
  let ds := cs.take count
  if ds.length < count ∨ !ds.all Char.isDigit then none
  else
    let n ← digits? 10 ds
    if low ≤ n ∧ n ≤ high then some (n, cs.drop count) else none

def over? (c : Char) : List Char → Option (List Char)
  | d :: rest => if c = d then some rest else none
  | [] => none

def daysIn (year month : Nat) : Nat :=
  if month = 2 then
    if (year % 4 = 0 ∧ year % 100 ≠ 0) ∨ year % 400 = 0 then 29 else 28
  else if month = 4 ∨ month = 6 ∨ month = 9 ∨ month = 11 then 30
  else 31

def date? (cs : List Char) : Option (List Char) := do
  let (year, cs) ← fixed? 4 0 9999 cs
  let (month, cs) ← fixed? 2 1 12 (← over? '-' cs)
  let (_, cs) ← fixed? 2 1 (daysIn year month) (← over? '-' cs)
  return cs

def time? (cs : List Char) : Option (List Char) := do
  let (_, cs) ← fixed? 2 0 23 cs
  let (_, cs) ← fixed? 2 0 59 (← over? ':' cs)
  let (_, cs) ← fixed? 2 0 60 (← over? ':' cs)
  match cs with
  | '.' :: rest => if rest.head?.any Char.isDigit then return rest.dropWhile Char.isDigit else none
  | _ => return cs

def offset? (cs : List Char) : Option (List Char) :=
  match cs with
  | 'Z' :: rest | 'z' :: rest => some rest
  | '+' :: rest | '-' :: rest => do
    let (_, rest) ← fixed? 2 0 23 rest
    let (_, rest) ← fixed? 2 0 59 (← over? ':' rest)
    return rest
  | _ => some cs

def isTime (cs : List Char) : Bool :=
  match date? cs with
  | some [] => true
  | some (c :: rest) =>
    (c = 'T' || c = 't' || c = ' ') && ((time? rest).bind offset?).any List.isEmpty
  | none => (time? cs).any List.isEmpty

/-- Characters that cannot stand in a number, a time or a truth value. -/
def endsWord (c : Char) : Bool := " \t\r\n,]\x7d#=[\x7b\"'".contains c

/-- A value that is neither quoted nor in brackets. -/
def word : Read Value := do
  let cs ← Read.takeWhile (!endsWord ·)
  let text := String.ofList cs
  if text = "true" ∨ text = "false" ∨ isInteger cs ∨ isFloat cs then return .other
  else if date? cs = some [] then
    match ← get with
    | ' ' :: rest =>
      let time := rest.takeWhile (!endsWord ·)
      if isTime (cs ++ ' ' :: time) then
        set (rest.drop time.length)
        return .other
      else if rest.head?.any Char.isDigit then failure
      else return .other
    | _ => return .other
  else if isTime cs then return .other
  else failure

/-! ### Values -/

mutual

def value : (fuel : Nat) → Read Value
  | 0 => failure
  | fuel + 1 => do
    if ← Read.accept "\"\"\"" then return .string (← longBody '"')
    else if ← Read.accept "'''" then return .string (← longBody '\'')
    else if ← Read.accept "\"" then return .string (← shortBody '"')
    else if ← Read.accept "'" then return .string (← shortBody '\'')
    else if ← Read.accept "[" then return .array (← items fuel)
    else if ← Read.accept "\x7b" then
      Read.spaces
      if ← Read.accept "\x7d" then return .table .inline []
      else return .table .inline (← pairs fuel [])
    else word

def items : (fuel : Nat) → Read (List Value)
  | 0 => failure
  | fuel + 1 => do
    gap ((← get).length + 1)
    if ← Read.accept "]" then return []
    else
      let v ← value fuel
      gap ((← get).length + 1)
      if ← Read.accept "," then return v :: (← items fuel)
      else
        Read.expect "]"
        return [v]

def pairs : (fuel : Nat) → Entries → Read Entries
  | 0, _ => failure
  | fuel + 1, es => do
    let (path, last) ← key
    Read.expect "="
    Read.spaces
    let v ← value fuel
    Read.spaces
    let es ← es.addPath? path last v
    if ← Read.accept "," then pairs fuel es
    else
      Read.expect "\x7d"
      return es

end

/-! ### Documents -/

/-- Reads lines. The header is that of the table which was started last. -/
def lines : (fuel : Nat) → (header : List String) → Entries → Read Entries
  | 0, _, _ => failure
  | fuel + 1, header, es => do
    Read.spaces
    match ← get with
    | [] => return es
    | c :: _ =>
      if c = '#' || c = '\n' || c = '\r' then
        lineEnd
        lines fuel header es
      else if ← Read.accept "[[" then
        let (path, last) ← key
        Read.expect "]]"
        lineEnd
        lines fuel (path ++ [last]) (← es.startItem? path last)
      else if ← Read.accept "[" then
        let (path, last) ← key
        Read.expect "]"
        lineEnd
        lines fuel (path ++ [last]) (← es.startTable? path last)
      else
        let (path, last) ← key
        Read.expect "="
        Read.spaces
        let v ← value ((← get).length + 1)
        lineEnd
        lines fuel header (← es.addBelow? header path last v)

/-- The table that a text describes; none if it is malformed. A byte order mark in front is skipped. -/
def document? (text : String) : Option Entries :=
  let cs := match text.toList with
    | '\ufeff' :: rest => rest
    | cs => cs
  ((lines (cs.length + 1) [] []).run cs).map (·.1)

end UnusedMethods.Toml
