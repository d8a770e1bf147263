import UnusedMethods.Yaml.Scanner

/-!
# YAML documents

A document is a tree of scalars, sequences and mappings. Names of nodes are resolved: an alias is the
node that it stands for.
-/

namespace UnusedMethods.Yaml

inductive Node where
  | scalar (plain : Bool) (tag : Option String) (text : String)
  | sequence (items : List Node)
  | mapping (pairs : List (Node × Node))

def Node.nothing : Node := .scalar true none ""

structure Anchor where
  name : String
  /-- Tells nodes of the same name apart. -/
  id : Nat
  node : Node

/-- The tokens that are left, and the named nodes, the last one first. -/
structure Reader where
  tokens : List Token
  anchors : List Anchor

/-- What handles of tags stand for. -/
abbrev Handles := List (String × String)

/-- A reader of tokens that knows the handles of tags. -/
abbrev Read := ReaderT Handles (StateT Reader Option)

namespace Read

def peek : Read Token := do return (← get).tokens.headD .streamEnd

def next : Read Unit := modify fun r => { r with tokens := r.tokens.tail }

def accept (t : Token) : Read Bool := do
  if (← peek) = t then
    next
    return true
  else return false

def name (name : String) (node : Node) : Read Nat :=
  modifyGet fun r => (r.anchors.length, { r with anchors := ⟨name, r.anchors.length, node⟩ :: r.anchors })

def rename (id : Nat) (node : Node) : Read Unit :=
  modify fun r =>
    { r with anchors := r.anchors.map fun a => if a.id = id then { a with node } else a }

def named (name : String) : Read Node := do
  match (← get).anchors.find? (·.name = name) with
  | some a => return a.node
  | none => failure

end Read

/-- What may stand in front of a node. -/
structure Properties where
  anchor : Option String
  tag : Option (String × String)

def properties : Read Properties := do
  match ← Read.peek with
  | .anchor a =>
    Read.next
    match ← Read.peek with
    | .tag h t => do Read.next; return ⟨some a, some (h, t)⟩
    | _ => return ⟨some a, none⟩
  | .tag h t =>
    Read.next
    match ← Read.peek with
    | .anchor a => do Read.next; return ⟨some a, some (h, t)⟩
    | _ => return ⟨none, some (h, t)⟩
  | _ => return ⟨none, none⟩

def wholeTag : Option (String × String) → Read (Option String)
  | none => return none
  | some ("", t) => return some t
  | some (h, t) => do
    match (← read).lookup h with
    | some start => return some (start ++ t)
    | none => failure

def scalarNode (anchor : Option String) (node : Node) : Read Node := do
  match anchor with
  | some a => discard (Read.name a node)
  | none => pure ()
  return node

/-- Reads a collection after its first token, naming it if it has an anchor. While it is read its name
stands for a collection without anything in it. -/
def collectionNode (anchor : Option String) (contents : Read Node) : Read Node := do
  match anchor with
  | some a =>
    let id ← Read.name a (.mapping [])
    let node ← contents
    Read.rename id node
    return node
  | none => contents

inductive Place where
  | block
  /-- After a key, where a sequence need not be indented. -/
  | afterKey
  | flow
deriving DecidableEq

mutual

def node : (fuel : Nat) → Place → Read Node
  | 0, _ => failure
  | fuel + 1, place => do
    match ← Read.peek with
    | .alias name => do
      Read.next
      Read.named name
    | _ =>
      let p ← properties
      let tag ← wholeTag p.tag
      match place, ← Read.peek with
      | .afterKey, .blockEntry => collectionNode p.anchor (return .sequence (← looseItems fuel))
      | _, .scalar plain text => do
        Read.next
        scalarNode p.anchor (.scalar plain (tag.filter (· ≠ "!")) text)
      | _, .flowSequenceStart => do
        Read.next
        collectionNode p.anchor (return .sequence (← flowItems fuel true))
      | _, .flowMappingStart => do
        Read.next
        collectionNode p.anchor (return .mapping (← flowPairs fuel true))
      | .flow, .blockSequenceStart | .flow, .blockMappingStart => bare p.anchor tag
      | _, .blockSequenceStart => do
        Read.next
        collectionNode p.anchor (return .sequence (← blockItems fuel))
      | _, .blockMappingStart => do
        Read.next
        collectionNode p.anchor (return .mapping (← blockPairs fuel))
      | _, _ => bare p.anchor tag
where
  bare (anchor tag : Option String) : Read Node :=
    if anchor.isNone && tag.isNone then failure else scalarNode anchor (.scalar true tag "")

/-- Reads a node unless one of some tokens comes, before which nothing need be written. -/
def nodeUnless (fuel : Nat) (place : Place) (ends : List Token) : Read Node := do
  if (← Read.peek) ∈ ends then return .nothing
  else
    match fuel with
    | 0 => failure
    | fuel + 1 => node fuel place

def blockItems : (fuel : Nat) → Read (List Node)
  | 0 => failure
  | fuel + 1 => do
    if ← Read.accept .blockEntry then
      let item ← nodeUnless fuel .block [.blockEntry, .blockEnd]
      return item :: (← blockItems fuel)
    else if ← Read.accept .blockEnd then return []
    else failure

def looseItems : (fuel : Nat) → Read (List Node)
  | 0 => failure
  | fuel + 1 => do
    if ← Read.accept .blockEntry then
      let item ← nodeUnless fuel .block [.blockEntry, .key, .value, .blockEnd]
      return item :: (← looseItems fuel)
    else return []

def blockPairs : (fuel : Nat) → Read (List (Node × Node))
  | 0 => failure
  | fuel + 1 => do
    if ← Read.accept .key then
      let key ← nodeUnless fuel .afterKey [.key, .value, .blockEnd]
      let value ←
        if ← Read.accept .value then nodeUnless fuel .afterKey [.key, .value, .blockEnd]
        else pure .nothing
      return (key, value) :: (← blockPairs fuel)
    else if ← Read.accept .blockEnd then return []
    else failure

/-- Reads the items of a sequence between brackets. Commas stand between them, and may stand after the
last. -/
def flowItems : (fuel : Nat) → (first : Bool) → Read (List Node)
  | 0, _ => failure
  | fuel + 1, first => do
    if ← Read.accept .flowSequenceEnd then return []
    else
      if !first then
        if !(← Read.accept .flowEntry) then failure
      if ← Read.accept .flowSequenceEnd then return []
      else
        let item ←
          if ← Read.accept .key then singlePair fuel
          else nodeUnless fuel .flow []
        return item :: (← flowItems fuel false)

/-- Reads a pair that stands as an item between brackets, after the mark of its key. -/
def singlePair : (fuel : Nat) → Read Node
  | 0 => failure
  | fuel + 1 => do
    let key ←
      if (← Read.peek) ∈ [.value, .flowEntry, .flowSequenceEnd] then do
        Read.next
        pure .nothing
      else nodeUnless fuel .flow []
    let value ←
      if ← Read.accept .value then nodeUnless fuel .flow [.flowEntry, .flowSequenceEnd]
      else pure .nothing
    return .mapping [(key, value)]

def flowPairs : (fuel : Nat) → (first : Bool) → Read (List (Node × Node))
  | 0, _ => failure
  | fuel + 1, first => do
    if ← Read.accept .flowMappingEnd then return []
    else
      if !first then
        if !(← Read.accept .flowEntry) then failure
      if ← Read.accept .flowMappingEnd then return []
      else
        let pair ←
          if ← Read.accept .key then do
            let key ← nodeUnless fuel .flow [.value, .flowEntry, .flowMappingEnd]
            let value ←
              if ← Read.accept .value then nodeUnless fuel .flow [.flowEntry, .flowMappingEnd]
              else pure .nothing
            pure (key, value)
          else do
            let key ← nodeUnless fuel .flow []
            pure (key, .nothing)
        return pair :: (← flowPairs fuel false)

end

/-! ### Documents -/

/-- The directives in front of a document. -/
structure Directives where
  version : Option (Nat × Nat)
  handles : Handles

/-- Adds directives up to another token. A second version, a second meaning of a handle and a version
other than 1.1 and 1.2 are faults. -/
def directives? : Directives → List Token → Option (Directives × List Token)
  | d, .version major minor :: rest =>
    if d.version.isSome || major ≠ 1 || (minor ≠ 1 && minor ≠ 2) then none
    else directives? { d with version := some (major, minor) } rest
  | d, .tagHandle handle start :: rest =>
    if d.handles.any (·.1 = handle) then none
    else directives? { d with handles := d.handles ++ [(handle, start)] } rest
  | d, tokens => some (d, tokens)

def usualHandles : Handles := [("!", "!"), ("!!", "tag:yaml.org,2002:")]

/-- Reads a node and the end of the text, before which marks of the document's end may stand. -/
def lastDocument? (handles : Handles) (tokens : List Token) : Option Node := do
  let (n, r) ← ((node (3 * tokens.length + 3) .block).run (handles ++ usualHandles)).run ⟨tokens, []⟩
  if r.tokens.dropWhile (· = .documentEnd) = [.streamEnd] then some n else none

/-- The document of a text, if there is one. A text with more than one is malformed. -/
def document? (text : String) : Option (Option Node) := do
  let tokens ← scan? text
  match tokens with
  | [.streamEnd] => return none
  | t :: _ =>
    match t with
    | .version .. | .tagHandle .. | .documentStart =>
      let (d, rest) ← directives? ⟨none, []⟩ tokens
      match rest with
      | .documentStart :: rest =>
        match rest with
        | .version .. :: _ | .tagHandle .. :: _ | .documentStart :: _ => none
        | .documentEnd :: _ | .streamEnd :: _ =>
          if rest.dropWhile (· = .documentEnd) = [.streamEnd] then return some .nothing else none
        | _ => return some (← lastDocument? d.handles rest)
      | _ => none
    | _ => return some (← lastDocument? [] tokens)
  | [] => none

end UnusedMethods.Yaml
