import TraceWeave.Text.Numeral
import TraceWeave.Yaml.Scalar
import TraceWeave.Yaml.Tag

/-!
# Tokens

The parts of a document as its grammar sees them. Where block collections begin and end shows
only in the indentation, and gets tokens of its own.

A plain or quoted text turns out to be a key only at the colon behind it; the scanner then puts
the tokens of a key in front of it. At most one such text is remembered for each bracket that is
open, and it may neither go over the end of its line nor over 1024 bytes.
-/

namespace TraceWeave.Yaml

open TraceWeave.Text

/-- A part of a document. -/
inductive Token
  | versionDirective
  /-- Tags with the handle are short for tags with the address in front. -/
  | tagDirective (handle : List Char) (address : List UInt8)
  | documentStart
  | documentEnd
  | sequenceStart
  | mappingStart
  | blockEnd
  | flowSequenceStart
  | flowSequenceEnd
  | flowMappingStart
  | flowMappingEnd
  | blockEntry
  | flowEntry
  | key
  | value
  | anchor (name : List Char)
  | alias (name : List Char)
  | tag (handle : List Char) (name : List UInt8)
  | scalar (style : Style) (text : List Char)
deriving DecidableEq, Repr

/-- A text that may turn out to be a key. -/
structure KeyCandidate where
  /-- Nothing else may stand here. -/
  required : Bool
  /-- The number of tokens before it. -/
  index : Nat
  line : Nat
  column : Nat
  /-- The number of bytes before it on its line. -/
  offset : Nat
deriving DecidableEq, Repr

/-- What is known about the document so far. -/
structure Scanner where
  tokens : List Token := []
  /-- The columns of the block collections that are open, the innermost first. -/
  columns : List Nat := []
  /-- The last text that may be a key, unless there is none. -/
  candidate : Option KeyCandidate := none
  /-- The same for every collection around the brackets that are open. -/
  outer : List (Option KeyCandidate) := []
  /-- A key may begin here. -/
  keyAllowed : Bool := true
deriving DecidableEq, Repr

namespace Scanner

/-- Some bracket is open. -/
def inFlow (s : Scanner) : Bool :=
  !s.outer.isEmpty

/-- The least column of what belongs to the innermost block collection. -/
def margin (s : Scanner) : Nat :=
  match s.columns with
  | [] => 0
  | column :: _ => column + 1

def emit (s : Scanner) (token : Token) : Scanner :=
  { s with tokens := s.tokens ++ [token] }

/-- Puts a token before all but the first tokens. -/
def insert (s : Scanner) (index : Nat) (token : Token) : Scanner :=
  { s with tokens := s.tokens.insertIdx index token }

/-- Closes the block collections to the right of a column, or all of them. -/
def close (s : Scanner) (column : Option Nat) : Scanner :=
  if s.inFlow then s
  else
    let beyond (open_ : Nat) : Bool := column.all (· < open_)
    { s with
      tokens := s.tokens ++ (s.columns.takeWhile beyond).map fun _ => .blockEnd
      columns := s.columns.dropWhile beyond }

/-- Opens a block collection at a column if there is none so far to the right, with its token
before all but the first tokens. -/
def openBlock (s : Scanner) (column index : Nat) (token : Token) : Scanner :=
  if s.inFlow || column < s.margin then s
  else { s.insert index token with columns := column :: s.columns }

/-- Forgets the candidates that a place is too far away from. -/
def expire? (s : Scanner) (p : Place) : Option Scanner :=
  let isPast (k : KeyCandidate) : Bool := k.line < p.line || k.offset + 1024 < p.offset
  let all := s.candidate :: s.outer
  if all.any fun candidate => candidate.any fun k => isPast k && k.required then none
  else
    let kept (candidate : Option KeyCandidate) := candidate.filter fun k => !isPast k
    some { s with candidate := kept s.candidate, outer := s.outer.map kept }

/-- Gives up the candidate. -/
def dropCandidate? (s : Scanner) : Option Scanner :=
  if s.candidate.any (·.required) then none else some { s with candidate := none }

/-- Takes what begins at a place for a candidate, if a key may begin there. -/
def offer? (s : Scanner) (p : Place) : Option Scanner :=
  if s.keyAllowed then do
    let required := !s.inFlow && s.columns.head? == some p.column
    let s ← s.dropCandidate?
    return { s with candidate := some ⟨required, s.tokens.length, p.line, p.column, p.offset⟩ }
  else some s

def allowKey (s : Scanner) (allowed : Bool) : Scanner :=
  { s with keyAllowed := allowed }

/-! ## White space -/

/-- Passes over white space and comments, and over a byte order mark that begins a line. Outside
brackets, keys may begin on a new line; tabs may not stand where a key could. -/
def skipSpace (s : Scanner) (inComment : Bool) : Source → Scanner × Source
  | [] => (s, [])
  | p :: rest =>
    if isBreak p.char then (s.allowKey (s.keyAllowed || !s.inFlow)).skipSpace false rest
    else if inComment || p.char == ' ' || (p.char == '\t' && (s.inFlow || !s.keyAllowed)) ||
        (p.column == 0 && p.char == '\ufeff') then
      s.skipSpace inComment rest
    else if p.char == '#' then s.skipSpace true rest
    else (s, p :: rest)

/-! ## Names -/

/-- Reads the name of an anchor. -/
def anchorName? (source : Source) : Option (List Char × Source) :=
  let (name, rest) := splitWhile isNameChar source
  if !name.isEmpty && (atBlank rest || atAny ['?', ':', ',', ']', '\x7d', '%', '@', '`'] rest) then
    some (name, rest)
  else none

/-- Reads a part of the number of a version, which has at most nine digits. -/
def versionPart? (source : Source) : Option (Nat × Source) := do
  let (digits, rest) := splitWhile Char.isDigit source
  if 9 < digits.length then none else return (← Numeral.nat? digits, rest)

/-- Reads a directive behind its percent sign. -/
def directive? (source : Source) : Option (Token × Source) := do
  let (name, rest) := splitWhile isNameChar source
  if !atBlank rest then none
  else if name = "YAML".toList then
    let (major, rest) ← versionPart? (afterGap rest)
    let (minor, after) ← versionPart? rest.tail
    if major = 1 && atAny ['.'] rest && (minor = 1 || minor = 2) then
      return (.versionDirective, ← endLine? after)
    else none
  else if name = "TAG".toList then
    let start := afterGap rest
    let (handle, rest) := Tag.handleThen start
    let (address, after) ← Tag.nameThen? true (afterGap rest)
    if atAny ['!'] start && (handle = ['!'] || Tag.isClosed handle) && atAny [' ', '\t'] rest &&
        atBlank after then
      return (.tagDirective handle address, ← endLine? after)
    else none
  else none

/-! ## Tokens -/

/-- The characters that a plain scalar cannot begin with. -/
def indicators : List Char :=
  ['-', '?', ':', ',', '[', ']', '\x7b', '\x7d', '#', '&', '*', '!', '|', '>', '\'', '"', '%',
    '@', '`']

/-- A marker between documents, after which nothing is open. -/
def marker? (s : Scanner) (token : Token) : Option Scanner := do
  let s ← (s.close none).dropCandidate?
  return (s.allowKey false).emit token

/-- A bracket that opens. -/
def openFlow? (s : Scanner) (p : Place) (token : Token) : Option Scanner := do
  let s ← s.offer? p
  return { s with
    tokens := s.tokens ++ [token]
    outer := s.candidate :: s.outer
    candidate := none
    keyAllowed := true }

/-- A bracket that closes. -/
def closeFlow? (s : Scanner) (token : Token) : Option Scanner := do
  let s ← s.dropCandidate?
  let s := match s.outer with
    | candidate :: outer => { s with candidate := candidate, outer := outer }
    | [] => s
  return (s.allowKey false).emit token

/-- A hyphen before an item. -/
def entry? (s : Scanner) (p : Place) : Option Scanner :=
  if !s.inFlow && !s.keyAllowed then none
  else do
    let s ← (s.openBlock p.column s.tokens.length .sequenceStart).dropCandidate?
    return (s.allowKey true).emit .blockEntry

/-- A question mark before a key. -/
def key? (s : Scanner) (p : Place) : Option Scanner :=
  if !s.inFlow && !s.keyAllowed then none
  else do
    let s ← (s.openBlock p.column s.tokens.length .mappingStart).dropCandidate?
    return (s.allowKey (!s.inFlow)).emit .key

/-- A colon before a value, which makes the candidate a key. -/
def value? (s : Scanner) (p : Place) : Option Scanner :=
  match s.candidate with
  | some k =>
    let s := (s.insert k.index .key).openBlock k.column k.index .mappingStart
    some ({ s with candidate := none, keyAllowed := false }.emit .value)
  | none =>
    if !s.inFlow && !s.keyAllowed then none
    else
      let s := s.openBlock p.column s.tokens.length .mappingStart
      some ((s.allowKey (!s.inFlow)).emit .value)

/-- Takes one token from a document that goes on at a place. -/
def token? (s : Scanner) (p : Place) (rest : Source) : Option (Scanner × Source) :=
  let c := p.char
  let isApart := s.inFlow || atBlank rest
  if p.column == 0 && c == '%' then do
    let s ← (s.close none).dropCandidate?
    let (token, rest) ← directive? rest
    return ((s.allowKey false).emit token, rest)
  else if atMarker '-' (p :: rest) then do
    return (← s.marker? .documentStart, rest.drop 2)
  else if atMarker '.' (p :: rest) then do
    return (← s.marker? .documentEnd, rest.drop 2)
  else if c == '[' then do return (← s.openFlow? p .flowSequenceStart, rest)
  else if c == '\x7b' then do return (← s.openFlow? p .flowMappingStart, rest)
  else if c == ']' then do return (← s.closeFlow? .flowSequenceEnd, rest)
  else if c == '\x7d' then do return (← s.closeFlow? .flowMappingEnd, rest)
  else if c == ',' then do
    return (((← s.dropCandidate?).allowKey true).emit .flowEntry, rest)
  else if c == '-' && atBlank rest then do return (← s.entry? p, rest)
  else if c == '?' && isApart then do return (← s.key? p, rest)
  else if c == ':' && isApart then do return (← s.value? p, rest)
  else if c == '*' || c == '&' then do
    let s ← s.offer? p
    let (name, rest) ← anchorName? rest
    return ((s.allowKey false).emit (if c == '*' then .alias name else .anchor name), rest)
  else if c == '!' then do
    let s ← s.offer? p
    let (handle, name, rest) ← Tag.read? s.inFlow (p :: rest)
    return ((s.allowKey false).emit (.tag handle name), rest)
  else if (c == '|' || c == '>') && !s.inFlow then do
    let s ← s.dropCandidate?
    let (text, rest) ← block (c == '|') s.margin rest
    return ((s.allowKey true).emit (.scalar (if c == '|' then .literal else .folded) text), rest)
  else if c == '\'' then do
    let s ← s.offer? p
    let (text, rest) ← singleQuoted [] rest
    return ((s.allowKey false).emit (.scalar .quoted text), rest)
  else if c == '"' then do
    let s ← s.offer? p
    let (text, rest) ← doubleQuoted [] false 0 [] rest
    return ((s.allowKey false).emit (.scalar .quoted text), rest)
  else if !indicators.contains c && !isGap c || c == '-' ||
      (!s.inFlow && (c == '?' || c == ':')) then do
    let s ← s.offer? p
    let (text, broken, rest) ← plain s.inFlow s.margin [] (p :: rest)
    return ((s.allowKey broken).emit (.scalar .plain text), rest)
  else none

/-- Takes all tokens. -/
def run? : Nat → Scanner → Source → Option (List Token)
  | 0, _, _ => none
  | fuel + 1, s, source =>
    match s.skipSpace false source with
    | (s, []) => do return (← (s.close none).dropCandidate?).tokens
    | (s, p :: rest) => do
      let s ← s.expire? p
      let (s, rest) ← (s.close (some p.column)).token? p rest
      run? fuel s rest

end Scanner

/-- The tokens of a document. Each of them takes at least one character. -/
def tokens? (source : Source) : Option (List Token) :=
  Scanner.run? (source.length + 1) {} source

end TraceWeave.Yaml
