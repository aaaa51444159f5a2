import TraceWeave.Text.Hex
import TraceWeave.Yaml.Source

/-!
# Scalars

The ways in which a text can be written in a document: plain, between single or double quotation
marks, and as a block of lines. Each reader takes what follows the first character of the scalar,
and returns the text with what follows it.

Line breaks inside a scalar are folded: a single one becomes a space, and of several the first is
dropped. Blanks next to them do not count. Only a literal block keeps its lines.
-/

namespace TraceWeave.Yaml

open TraceWeave.Text

/-- How a scalar is written. -/
inductive Style
  | plain
  | quoted
  | literal
  | folded
deriving DecidableEq, Repr

/-- What the white space between two words stands for. -/
def folded (gap : List Char) : List Char :=
  match gap.filter isBreak with
  | [] => gap
  | first :: others =>
    if first ≠ '\n' then first :: others
    else if others.isEmpty then [' '] else others

/-! ## Plain scalars -/

/-- The characters that end a plain scalar inside brackets. -/
def flowIndicators : List Char :=
  [',', '[', ']', '\x7b', '\x7d']

/-- A plain scalar ends before this place, after the white space `gap`: between lines it has to
stand at least at column `margin`. -/
def endsPlain (flow : Bool) (margin : Nat) (gap : List Char) : Source → Bool
  | [] => true
  | p :: rest =>
    (gap ≠ [] && (!flow && p.column < margin || p.char == '#' ||
      atDocumentMarker (p :: rest))) ||
    (p.char == ':' && atBlank rest) || (flow && flowIndicators.contains p.char)

/-- Reads a plain scalar. Also returns whether it ended on another line than its last word. -/
def plain (flow : Bool) (margin : Nat) (gap : List Char) :
    Source → Option (List Char × Bool × Source)
  | [] => some ([], gap.any isBreak, [])
  | p :: rest =>
    if isSeparation p.char then
      if p.char == '\t' && gap.any isBreak && p.column < margin then none
      else plain flow margin (gap ++ [p.char]) rest
    else if endsPlain flow margin gap (p :: rest) then some ([], gap.any isBreak, p :: rest)
    else if flow && p.char == ':' && atAny ('?' :: flowIndicators) rest then none
    else do
      let (text, broken, rest) ← plain flow margin [] rest
      return (folded gap ++ p.char :: text, broken, rest)

/-! ## Quoted scalars -/

/-- Reads up to the single quotation mark that is not doubled. -/
def singleQuoted (gap : List Char) : Source → Option (List Char × Source)
  | [] => none
  | p :: rest =>
    if isSeparation p.char then singleQuoted (gap ++ [p.char]) rest
    else if atDocumentMarker (p :: rest) then none
    else if p.char = '\'' then
      match rest with
      | q :: more =>
        if q.char = '\'' then do
          let (text, rest) ← singleQuoted [] more
          return (folded gap ++ '\'' :: text, rest)
        else some (folded gap, q :: more)
      | [] => some (folded gap, [])
    else do
      let (text, rest) ← singleQuoted [] rest
      return (folded gap ++ p.char :: text, rest)

/-- The character that a letter behind a backslash stands for. -/
def escape? : Char → Option Char
  | '0' => some '\u0000'
  | 'a' => some '\u0007'
  | 'b' => some '\u0008'
  | 't' | '\t' => some '\t'
  | 'n' => some '\n'
  | 'v' => some '\u000b'
  | 'f' => some '\u000c'
  | 'r' => some '\r'
  | 'e' => some '\u001b'
  | ' ' => some ' '
  | '"' => some '"'
  | '/' => some '/'
  | '\\' => some '\\'
  | 'N' => some '\u0085'
  | '_' => some '\u00a0'
  | 'L' => some '\u2028'
  | 'P' => some '\u2029'
  | _ => none

/-- The number of digits that follow a letter behind a backslash. -/
def escapeWidth? : Char → Option Nat
  | 'x' => some 2
  | 'u' => some 4
  | 'U' => some 8
  | _ => none

/-- The character with a code in hexadecimal digits. -/
def ofCode? (digits : List Char) : Option Char := do
  let values ← digits.mapM Hex.value?
  let code := values.foldl (fun n digit => 16 * n + digit) 0
  if h : code.isValidChar then some (Char.ofNatAux code h) else none

/-- Reads up to the double quotation mark. While `skip` is not zero the characters belong to a
code, whose digits so far are `digits`; after a backslash at the end of a line `escaped` tells
that the line break does not count. -/
def doubleQuoted (gap : List Char) (escaped : Bool) (skip : Nat) (digits : List Char) :
    Source → Option (List Char × Source)
  | [] => none
  | p :: rest =>
    let before := if escaped then gap.filter isBreak else folded gap
    if 1 < skip then doubleQuoted gap escaped (skip - 1) (digits ++ [p.char]) rest
    else if skip = 1 then do
      let c ← ofCode? (digits ++ [p.char])
      let (text, rest) ← doubleQuoted [] false 0 [] rest
      return (before ++ c :: text, rest)
    else if isSeparation p.char then doubleQuoted (gap ++ [p.char]) escaped 0 [] rest
    else if atDocumentMarker (p :: rest) then none
    else if p.char = '"' then some (before, rest)
    else if p.char = '\\' then
      match rest with
      | [] => none
      | q :: more =>
        if isBreak q.char then do
          let (text, rest) ← doubleQuoted [] true 0 [] more
          return (before ++ text, rest)
        else
          match escapeWidth? q.char with
          | some width => doubleQuoted gap escaped width [] more
          | none => do
            let c ← escape? q.char
            let (text, rest) ← doubleQuoted [] false 0 [] more
            return (before ++ c :: text, rest)
    else do
      let (text, rest) ← doubleQuoted [] false 0 [] rest
      return (before ++ p.char :: text, rest)

/-! ## Blocks -/

/-- What becomes of the line breaks at the end of a block. -/
inductive Chomping
  | strip
  | clip
  | keep
deriving DecidableEq, Repr

/-- The digit that fixes the indentation of a block. -/
def indentDigit? (c : Char) : Option Nat :=
  if '1' ≤ c ∧ c ≤ '9' then some (c.toNat - 0x30) else none

def chomping? : Char → Option Chomping
  | '+' => some .keep
  | '-' => some .strip
  | _ => none

/-- Reads the header of a block: the two marks stand in any order, and either may be missing. -/
def blockHeader : Source → Chomping × Option Nat × Source
  | [] => (.clip, none, [])
  | p :: rest =>
    match chomping? p.char, indentDigit? p.char with
    | some chomping, _ =>
      match rest with
      | q :: more =>
        match indentDigit? q.char with
        | some digit => (chomping, some digit, more)
        | none => (chomping, none, q :: more)
      | [] => (chomping, none, [])
    | none, some digit =>
      match rest with
      | q :: more =>
        match chomping? q.char with
        | some chomping => (chomping, some digit, more)
        | none => (.clip, some digit, q :: more)
      | [] => (.clip, some digit, [])
    | none, none => (.clip, none, p :: rest)

/-- Passes over indentation and empty lines. Returns the line breaks, the column that was reached,
and what follows. Tabs may not stand in the indentation, which is of unknown width at first. -/
def emptyLines (indent : Option Nat) : Source → Option (List Char × Nat × Source)
  | [] => some ([], 0, [])
  | p :: rest =>
    let inside := indent.all (p.column < ·)
    if inside && p.char == ' ' then emptyLines indent rest
    else if inside && p.char == '\t' then none
    else if isBreak p.char then do
      let (breaks, column, rest) ← emptyLines indent rest
      return (p.char :: breaks, max p.column column, rest)
    else some ([], p.column, p :: rest)

/-- The lines of a block at an indentation. The line break behind the last line that was read and
the empty lines after it are handed on, as what becomes of them shows only later. Returns the text
and, apart from it, the line breaks at its end. -/
def blockLines (literal : Bool) (indent : Nat) : Nat → List Char → Bool → List Char → Source →
    Option (List Char × List Char × List Char × Source)
  | 0, lineBreak, _, emptied, source => some ([], lineBreak, emptied, source)
  | _ + 1, lineBreak, _, emptied, [] => some ([], lineBreak, emptied, [])
  | fuel + 1, lineBreak, wasBlank, emptied, p :: rest =>
    if p.column ≠ indent then some ([], lineBreak, emptied, p :: rest)
    else
      let blank := isGap p.char
      let before :=
        if !literal && lineBreak == ['\n'] && !wasBlank && !blank then
          if emptied.isEmpty then [' '] else emptied
        else lineBreak ++ emptied
      let (line, after) := splitWhile (fun c => !isBreak c) (p :: rest)
      do
        let (nextEmptied, _, next) ← emptyLines (some indent) after.tail
        let (text, last, trailing, source) ←
          blockLines literal indent fuel ((after.take 1).map (·.char)) blank nextEmptied next
        return (before ++ line ++ text, last, trailing, source)

/-- Reads a block, which has to stand at least at column `margin`. -/
def block (literal : Bool) (margin : Nat) (source : Source) : Option (List Char × Source) := do
  let (chomping, digit, rest) := blockHeader source
  let rest ← endLine? rest
  let (emptied, column, rest) ← emptyLines (digit.map (margin - 1 + ·)) rest
  let indent := (digit.map (margin - 1 + ·)).getD (max column (max margin 1))
  let (text, last, trailing, rest) ← blockLines literal indent rest.length [] false emptied rest
  let tail := match chomping with
    | .strip => []
    | .clip => last
    | .keep => last ++ trailing
  return (text ++ tail, rest)

end TraceWeave.Yaml
