/-!
# Documents as located characters

Where a character stands decides what it means in YAML, so a document is read as a list of
characters with their lines and columns. Line breaks are unified first, and a document with
control characters is refused. A byte order mark is a character like others.

* `map_char_locate`: locating changes no character.
-/

namespace TraceWeave.Yaml

/-- A character and where it stands. -/
structure Place where
  char : Char
  line : Nat
  column : Nat
  /-- The number of bytes before it on its line. -/
  offset : Nat
deriving DecidableEq, Repr

/-- What is left of a document. -/
abbrev Source := List Place

/-- The characters that end a line once line breaks are unified. -/
def isBreak (c : Char) : Bool :=
  c == '\n' || c == '\u2028' || c == '\u2029'

/-- A space or a tab. -/
def isGap (c : Char) : Bool :=
  c == ' ' || c == '\t'

def isSeparation (c : Char) : Bool :=
  isGap c || isBreak c

/-- The characters that may stand in a document. -/
def isAllowed (c : Char) : Bool :=
  let n := c.toNat
  n == 0x09 || n == 0x0A || n == 0x0D || (0x20 ≤ n && n ≤ 0x7E) || n == 0x85 ||
    (0xA0 ≤ n && n ≤ 0xFFFD) || 0x10000 ≤ n

/-- The text with every line break of the usual kinds written as a line feed. -/
def unified : List Char → List Char
  | [] => []
  | '\r' :: '\n' :: cs => '\n' :: unified cs
  | c :: cs => (if c = '\r' ∨ c = '\u0085' then '\n' else c) :: unified cs

/-- The characters of a text that starts at a line and a column, behind some bytes of the line. -/
def locate (line column offset : Nat) : List Char → Source
  | [] => []
  | c :: cs =>
    ⟨c, line, column, offset⟩ ::
      if isBreak c then locate (line + 1) 0 0 cs
      else locate line (column + 1) (offset + c.utf8Size) cs

/-- The places of a document, unless some character is not allowed. -/
def sourceOf? (text : List Char) : Option Source :=
  if text.all isAllowed then some (locate 0 0 0 (unified text)) else none

/-- White space or the end of the document comes next. -/
def atBlank : Source → Bool
  | [] => true
  | p :: _ => isSeparation p.char

/-- The end of a line comes next. -/
def atLineEnd : Source → Bool
  | [] => true
  | p :: _ => isBreak p.char

/-- One of these characters comes next. -/
def atAny (cs : List Char) : Source → Bool
  | [] => false
  | p :: _ => cs.contains p.char

/-- The characters up to the first that does not have a property, and what follows them. -/
def splitWhile (p : Char → Bool) (source : Source) : List Char × Source :=
  ((source.takeWhile fun place => p place.char).map (·.char),
    source.dropWhile fun place => p place.char)

/-- What follows the blanks of the line. -/
def afterGap (source : Source) : Source :=
  (splitWhile isGap source).2

/-- A line that starts with three times this character stands between documents. -/
def atMarker (c : Char) : Source → Bool
  | p :: q :: r :: rest =>
    p.column == 0 && p.char == c && q.char == c && r.char == c && atBlank rest
  | _ => false

/-- A document begins or ends here. -/
def atDocumentMarker (source : Source) : Bool :=
  atMarker '-' source || atMarker '.' source

/-- Passes over the rest of a line, which may only hold a comment. -/
def endLine? (source : Source) : Option Source :=
  let rest := afterGap source
  let rest := if atAny ['#'] rest then (splitWhile (fun c => !isBreak c) rest).2 else rest
  if atLineEnd rest then some rest.tail else none

theorem map_char_locate (line column offset : Nat) (cs : List Char) :
    (locate line column offset cs).map (·.char) = cs := by
  induction cs generalizing line column offset with
  | nil => rfl
  | cons c cs ih =>
    simp only [locate, List.map_cons]
    split <;> simp [ih]

end TraceWeave.Yaml
