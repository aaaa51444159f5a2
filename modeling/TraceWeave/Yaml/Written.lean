import TraceWeave.Text.Hex
import TraceWeave.Yaml.Plain
import TraceWeave.Yaml.Source

/-!
# Writing texts

How a text is written as the value of a mapping, so that it reads back as the same text. It is
plain if that is possible and quoted if it would read as something else; a text of several lines
is a literal block. Only texts with characters that cannot be shown, or with blanks next to a line
break, need double quotation marks.
-/

namespace TraceWeave.Yaml.Written

open TraceWeave.Text

/-- The characters that can be written as they are. -/
def isPrintable (c : Char) : Bool :=
  let n := c.toNat
  n == 0x0A || (0x20 ≤ n && n ≤ 0x7E) || (0xA0 ≤ n && n ≤ 0xFFFD && n != 0xFEFF) || 0x10000 ≤ n

/-- Some character has the first property, and the one behind it the second. -/
def hasPair (p q : Char → Bool) : List Char → Bool
  | c :: d :: cs => (p c && q d) || hasPair p q (d :: cs)
  | _ => false

/-- The character is followed by white space or ends the text. -/
def isFollowed (c : Char) (cs : List Char) : Bool :=
  hasPair (· == c) isSeparation (cs ++ [' '])

/-- The characters that cannot begin a plain text. -/
def leadingIndicators : List Char :=
  ['#', ',', '[', ']', '\x7b', '\x7d', '&', '*', '!', '|', '>', '\'', '"', '%', '@', '`']

/-- Some character would be taken for more than text. -/
def isIndicated (cs : List Char) : Bool :=
  let first := cs.take 1
  "---".toList.isPrefixOf cs || "...".toList.isPrefixOf cs ||
    first.any leadingIndicators.contains ||
    isFollowed ':' cs || hasPair isSeparation (· == '#') cs ||
    (match cs with
      | c :: rest => (c == '-' || c == '?') && (rest ++ [' ']).head?.any isSeparation
      | [] => false)

/-- A space stands next to a line break, or some character cannot be shown. -/
def needsEscapes (cs : List Char) : Bool :=
  cs.any (!isPrintable ·) || hasPair (· == ' ') isBreak cs || hasPair isBreak (· == ' ') cs

/-- The text can be written as it is. -/
def canBePlain (cs : List Char) : Bool :=
  let ends := (cs.take 1 ++ cs.getLast?.toList).any fun c => c == ' '
  !ends && !cs.any isBreak && !needsEscapes cs && !isIndicated cs

/-- The text can be written as a block of lines. -/
def canBeBlock (cs : List Char) : Bool :=
  cs.getLast? != some ' ' && !cs.any (!isPrintable ·) && !hasPair (· == ' ') isBreak cs

/-! ## Quotation marks -/

/-- An upper-case hexadecimal digit. -/
def upperDigit (n : Nat) : Char :=
  (Hex.digit n).toUpper

/-- The digits of a code. -/
def codeDigits : (width : Nat) → Nat → List Char
  | 0, _ => []
  | width + 1, n => codeDigits width (n / 16) ++ [upperDigit (n % 16)]

/-- A character behind a backslash. The code of one that cannot be shown has at most four digits. -/
def escape (c : Char) : List Char :=
  let n := c.toNat
  '\\' ::
    if c = '\u0000' then ['0']
    else if c = '\u0007' then ['a']
    else if c = '\u0008' then ['b']
    else if c = '\t' then ['t']
    else if c = '\n' then ['n']
    else if c = '\u000b' then ['v']
    else if c = '\u000c' then ['f']
    else if c = '\r' then ['r']
    else if c = '\u001b' then ['e']
    else if c = '"' then ['"']
    else if c = '\\' then ['\\']
    else if c = '\u0085' then ['N']
    else if c = '\u2028' then ['L']
    else if c = '\u2029' then ['P']
    else if n ≤ 0xFF then 'x' :: codeDigits 2 n
    else 'u' :: codeDigits 4 n

/-- A text between double quotation marks. -/
def doubleQuoted (cs : List Char) : List Char :=
  '"' :: cs.flatMap (fun c =>
    if isPrintable c && !isBreak c && c != '"' && c != '\\' then [c] else escape c) ++ ['"']

/-- What stands before the next character: the indentation, if a line has just begun. -/
def indented (margin : Nat) (begun : Bool) : List Char :=
  if begun then List.replicate margin ' ' else []

/-- The characters between single quotation marks. -/
def singleQuotedBody (margin : Nat) (begun : Bool) : List Char → List Char
  | [] => indented margin begun
  | c :: cs =>
    if isBreak c then c :: singleQuotedBody margin true cs
    else if c = ' ' then c :: singleQuotedBody margin begun cs
    else
      indented margin begun ++ (if c = '\'' then ['\'', '\''] else [c]) ++
        singleQuotedBody margin false cs

/-- A text between single quotation marks. -/
def singleQuoted (margin : Nat) (cs : List Char) : List Char :=
  '\'' :: singleQuotedBody margin false cs ++ ['\'']

/-! ## Blocks -/

/-- The lines of a block. Empty lines are not indented. -/
def blockBody (margin : Nat) (begun : Bool) : List Char → List Char
  | [] => if begun then [] else ['\n']
  | c :: cs =>
    if isBreak c then c :: blockBody margin true cs
    else indented margin begun ++ c :: blockBody margin false cs

/-- The mark for what becomes of the line breaks at the end. -/
def chompingMark (cs : List Char) : List Char :=
  match cs.reverse with
  | [] => ['-']
  | [c] => if isBreak c then ['+'] else ['-']
  | c :: d :: _ => if !isBreak c then ['-'] else if isBreak d then ['+'] else []

/-- A text as a literal block. The width of the indentation is given if the text itself begins
with a blank. -/
def literalBlock (margin : Nat) (cs : List Char) : List Char :=
  let width := if (cs.take 1).any (fun c => c == ' ' || isBreak c) then ['2'] else []
  '|' :: width ++ chompingMark cs ++ '\n' :: blockBody margin true cs

/-- A text as a value, with the end of its line. What follows the first line is indented to a
margin. -/
def value (margin : Nat) (cs : List Char) : List Char :=
  let quoted := if needsEscapes cs then doubleQuoted cs else singleQuoted margin cs
  if cs.contains '\n' then
    if canBeBlock cs then literalBlock margin cs else doubleQuoted cs ++ ['\n']
  else if !Plain.isAmbiguous cs && canBePlain cs then cs ++ ['\n']
  else quoted ++ ['\n']

end TraceWeave.Yaml.Written
