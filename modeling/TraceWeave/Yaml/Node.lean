import TraceWeave.Yaml.Token

/-!
# Documents

The tree that the tokens of a document describe. A node with an anchor can be referred to by an
alias, also from inside itself, so an alias stays a number and the document tells what it stands
for.

An anchor is numbered by how many names of anchors there were before it. A name that is given
again is numbered anew but counted once, so the next name gets the same number. Of several nodes
with a number, aliases stand for the one that begins last.

The readers below take what follows the token that they are named for, except where said
otherwise; `Reading` holds the tokens that are left.
-/

namespace TraceWeave.Yaml

/-- A part of the tree. -/
inductive Node
  | scalar (tag : Option (List UInt8)) (style : Style) (text : List Char)
  | sequence (items : List Node)
  | mapping (entries : List (Node × Node))
  /-- The last node with an anchor of this number. -/
  | alias (number : Nat)
deriving Repr

/-- A scalar that is not written at all. -/
def Node.blank : Node := .scalar none .plain []

/-- A node with an anchor. -/
structure Anchored where
  /-- The number of the anchor. -/
  number : Nat
  /-- The number of nodes with anchors that begin before it. -/
  position : Nat
deriving DecidableEq, Repr

/-- What is known while a tree is read. -/
structure Reading where
  tokens : List Token
  /-- The addresses that handles are short for. -/
  handles : List (List Char × List UInt8) := []
  /-- The names of anchors with their numbers, each name once. -/
  anchors : List (List Char × Nat) := []
  /-- The nodes with anchors that have begun, the last one first. -/
  begun : List Anchored := []
  /-- Those that are complete. -/
  complete : List (Anchored × Node) := []

/-- A reader of a part of the tree. -/
abbrev Reader := StateT Reading Option

namespace Reader

/-- The next token stays. -/
def peek : Reader (Option Token) := do
  return (← get).tokens.head?

/-- The next token goes. -/
def skip : Reader Unit :=
  modify fun r => { r with tokens := r.tokens.tail }

/-- Takes the token if it is the next one. -/
def take (token : Token) : Reader Bool := do
  if (← peek) = some token then
    skip
    return true
  else return false

/-- One of these tokens is the next one. -/
def atAny (tokens : List Token) : Reader Bool := do
  return (← peek).any tokens.contains

/-- The address in front of tags with a handle. -/
def address (handle : List Char) : Reader (List UInt8) := do
  match (← get).handles.find? (·.1 = handle) with
  | some (_, address) => return address
  | none =>
    if handle = ['!', '!'] then return Tag.common ""
    else if handle = ['!'] then return Tag.mark
    else if handle.isEmpty then return []
    else failure

/-- Takes a tag, if there is one. -/
def takeTag : Reader (Option (List UInt8)) := do
  match ← peek with
  | some (.tag handle name) =>
    skip
    return some ((← address handle) ++ name)
  | _ => return none

/-- Takes an anchor, if there is one, and numbers it. -/
def takeAnchor : Reader (Option Anchored) := do
  match ← peek with
  | some (.anchor name) =>
    skip
    let r ← get
    let anchored : Anchored := ⟨r.anchors.length, r.begun.length⟩
    set { r with
      anchors := (name, anchored.number) :: r.anchors.filter (·.1 ≠ name)
      begun := anchored :: r.begun }
    return some anchored
  | _ => return none

/-- Takes an anchor and a tag in either order. -/
def takeProperties : Reader (Option Anchored × Option (List UInt8)) := do
  match ← takeAnchor with
  | some anchored => return (some anchored, ← takeTag)
  | none =>
    match ← takeTag with
    | some tag => return (← takeAnchor, some tag)
    | none => return (none, none)

/-- Takes the comma that stands before all but the first of several items. -/
def separate (first : Bool) : Reader Unit := do
  if !first then
    if !(← take .flowEntry) then failure

/-- Remembers a node with an anchor. -/
def remember (anchored : Option Anchored) (node : Node) : Reader Node := do
  if let some a := anchored then modify fun r => { r with complete := (a, node) :: r.complete }
  return node

/-- A scalar that only its properties tell of. -/
def bare (anchored : Option Anchored) (tag : Option (List UInt8)) : Reader Node :=
  if anchored.isSome || tag.isSome then remember anchored (.scalar tag .plain []) else failure

mutual

/-- Reads a node. Only a block node may be a block collection, and only where `loose` says so may
a sequence stand without indentation. -/
def node (fuel : Nat) (block loose : Bool) : Reader Node :=
  match fuel with
  | 0 => failure
  | fuel + 1 => do
    if let some (.alias name) ← peek then
      skip
      match (← get).anchors.find? (·.1 = name) with
      | some (_, number) => return .alias number
      | none => failure
    let (anchored, tag) ← takeProperties
    match ← peek with
    | some .blockEntry =>
      if loose then remember anchored (.sequence (← looseItems fuel)) else bare anchored tag
    | some (.scalar style text) =>
      skip
      remember anchored (.scalar (tag.filter (· ≠ Tag.mark)) style text)
    | some .flowSequenceStart =>
      skip
      remember anchored (.sequence (← flowItems fuel true))
    | some .flowMappingStart =>
      skip
      remember anchored (.mapping (← flowEntries fuel true))
    | some .sequenceStart =>
      if block then
        skip
        remember anchored (.sequence (← items fuel))
      else bare anchored tag
    | some .mappingStart =>
      if block then
        skip
        remember anchored (.mapping (← entries fuel))
      else bare anchored tag
    | _ => bare anchored tag

/-- Reads a node, or a blank one if one of these tokens comes next. -/
def nodeUnless (fuel : Nat) (ends : List Token) (block loose : Bool) : Reader Node :=
  match fuel with
  | 0 => failure
  | fuel + 1 => do
    if ← atAny ends then return .blank else node fuel block loose

/-- Reads the items of a sequence and its end. -/
def items (fuel : Nat) : Reader (List Node) :=
  match fuel with
  | 0 => failure
  | fuel + 1 => do
    if ← take .blockEntry then
      let item ← nodeUnless fuel [.blockEntry, .blockEnd] true false
      return item :: (← items fuel)
    else if ← take .blockEnd then return []
    else failure

/-- Reads the items of a sequence without indentation, from the first hyphen on. -/
def looseItems (fuel : Nat) : Reader (List Node) :=
  match fuel with
  | 0 => failure
  | fuel + 1 => do
    if ← take .blockEntry then
      let item ← nodeUnless fuel [.blockEntry, .key, .value, .blockEnd] true false
      return item :: (← looseItems fuel)
    else return []

/-- Reads the entries of a mapping and its end. -/
def entries (fuel : Nat) : Reader (List (Node × Node)) :=
  match fuel with
  | 0 => failure
  | fuel + 1 => do
    if ← take .blockEnd then return []
    else if ← take .key then
      let ends := [Token.key, .value, .blockEnd]
      let key ← nodeUnless fuel ends true true
      let value ← if ← take .value then nodeUnless fuel ends true true else pure .blank
      return (key, value) :: (← entries fuel)
    else failure

/-- Reads the items between square brackets and the bracket that closes. An item may be a single
entry of a mapping; a key of it that is missing costs the token that shows this. -/
def flowItems (fuel : Nat) (first : Bool) : Reader (List Node) :=
  match fuel with
  | 0 => failure
  | fuel + 1 => do
    if ← take .flowSequenceEnd then return []
    separate first
    if ← take .flowSequenceEnd then return []
    else if ← take .key then
      let key ←
        if ← atAny [.value, .flowEntry, .flowSequenceEnd] then
          skip
          pure .blank
        else node fuel false false
      let value ←
        if ← take .value then nodeUnless fuel [.flowEntry, .flowSequenceEnd] false false
        else pure .blank
      return .mapping [(key, value)] :: (← flowItems fuel false)
    else
      let item ← node fuel false false
      return item :: (← flowItems fuel false)

/-- Reads the entries between braces and the brace that closes. -/
def flowEntries (fuel : Nat) (first : Bool) : Reader (List (Node × Node)) :=
  match fuel with
  | 0 => failure
  | fuel + 1 => do
    if ← take .flowMappingEnd then return []
    separate first
    if ← take .flowMappingEnd then return []
    else if ← take .key then
      let key ← nodeUnless fuel [.value, .flowEntry, .flowMappingEnd] false false
      let value ←
        if ← take .value then nodeUnless fuel [.flowEntry, .flowMappingEnd] false false
        else pure .blank
      return (key, value) :: (← flowEntries fuel false)
    else
      let key ← node fuel false false
      return (key, .blank) :: (← flowEntries fuel false)

end

/-- Reads the directives of a document: at most one version, and each handle at most once. -/
def directives (version : Bool) : (fuel : Nat) → Reader Unit
  | 0 => failure
  | fuel + 1 => do
    match ← peek with
    | some .versionDirective =>
      if version then failure
      skip
      directives true fuel
    | some (.tagDirective handle address) =>
      if (← get).handles.any (·.1 = handle) then failure
      skip
      modify fun r => { r with handles := (handle, address) :: r.handles }
      directives version fuel
    | _ => return

/-- Reads the only document there is. Without directives it need not be marked where it begins. -/
def document (fuel : Nat) : Reader Node := do
  let root ← match ← peek with
    | none => pure .blank
    | some .documentStart | some .versionDirective | some (.tagDirective _ _) =>
      directives false fuel
      if ← take .documentStart then
        match ← peek with
        | none | some .documentStart | some .documentEnd | some .versionDirective
        | some (.tagDirective _ _) => pure .blank
        | _ => node fuel true false
      else failure
    | _ => node fuel true false
  if (← get).tokens.all (· = .documentEnd) then return root else failure

end Reader

/-- A document, with the nodes that its aliases stand for. -/
structure Document where
  root : Node
  /-- The nodes with the numbers of their anchors, the one that begins last in front. -/
  named : List (Nat × Node)

namespace Document

/-- The node that an alias stands for, or else the node itself. -/
def follow (d : Document) : Node → Node
  | .alias number => (d.named.lookup number).getD (.alias number)
  | node => node

/-- Reads a text with one document. The depth of the tree is bounded by the number of tokens. -/
def ofText? (text : List Char) : Option Document := do
  let tokens ← tokens? (← sourceOf? text)
  let (root, reading) ← (Reader.document (2 * tokens.length + 4)).run { tokens := tokens }
  let node? (anchored : Anchored) := (reading.complete.lookup anchored).map (anchored.number, ·)
  return ⟨root, reading.begun.filterMap node?⟩

end Document

end TraceWeave.Yaml
