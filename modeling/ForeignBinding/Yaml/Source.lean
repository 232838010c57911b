/-!
# Source text of a document

The characters of a document with their places. All spellings of a line break become `'\n'`, apart
from the two separators of Unicode, which stay as they are.
-/

namespace ForeignBinding.Yaml

/-- A character with its place: how many bytes of text, how many lines and how many characters of
its own line stand before it. -/
structure Located where
  char : Char
  index : Nat
  line : Nat
  column : Nat
  deriving DecidableEq, Repr

abbrev Source := List Located

/-- A character that may start a line without being part of it. -/
def byteOrderMark : Char := Char.ofNat 0xFEFF

def isBlank (c : Char) : Bool := c == ' ' || c == '\t'

def isSeparator (c : Char) : Bool := c == Char.ofNat 0x2028 || c == Char.ofNat 0x2029

/-- A line break, as it stands in a source. -/
def isBreak (c : Char) : Bool := c == '\n' || isSeparator c

/-- A character of names of anchors and of tag handles. -/
def isWord (c : Char) : Bool := c.isAlphanum || c == '_' || c == '-'

/-- A bracket, a brace or a comma, which ends plain text between brackets. -/
def isFlowIndicator (c : Char) : Bool :=
  c == ',' || c == '[' || c == ']' || c == Char.ofNat 0x7B || c == Char.ofNat 0x7D

/-- Whether a character may stand in a document at all. -/
def isAllowed (c : Char) : Bool :=
  let n := c.toNat
  n == 0x09 || n == 0x0A || n == 0x0D || (0x20 ≤ n && n ≤ 0x7E) || n == 0x85 ||
    (0xA0 ≤ n && n ≤ 0xD7FF) || (0xE000 ≤ n && n ≤ 0xFFFD) || 0x10000 ≤ n

namespace Source

def locate (index line column : Nat) : List Char → Source
  | [] => []
  | '\r' :: '\n' :: rest => ⟨'\n', index, line, column⟩ :: locate (index + 2) (line + 1) 0 rest
  | c :: rest =>
      let next := index + c.utf8Size
      if c = '\n' ∨ c = '\r' ∨ c = Char.ofNat 0x85 then
        ⟨'\n', index, line, column⟩ :: locate next (line + 1) 0 rest
      else if isSeparator c then ⟨c, index, line, column⟩ :: locate next (line + 1) 0 rest
      else ⟨c, index, line, column⟩ :: locate next line (column + 1) rest

/-- The source of a text, unless it holds a character that no document may have. -/
def ofText? (text : List Char) : Option Source :=
  if text.all isAllowed then some (locate 0 0 0 text) else none

def peek? : Source → Option Char
  | [] => none
  | x :: _ => some x.char

/-- The character after the next `n`. -/
def char? (s : Source) (n : Nat) : Option Char := s[n]?.map (·.char)

/-- Whether the next character is a blank, a line break or the end. -/
def atBlank : Source → Bool
  | [] => true
  | x :: _ => isBlank x.char || isBreak x.char

/-- The characters up to the first that does not satisfy `p`, and the rest. -/
def spanChars (p : Char → Bool) (s : Source) : List Char × Source :=
  ((s.takeWhile (p ·.char)).map (·.char), s.dropWhile (p ·.char))

/-- Whether three given characters come next, at the start of a line, and then a blank. -/
def atMarker (c : Char) (s : Source) : Bool :=
  match s with
  | x :: y :: z :: rest =>
      x.column == 0 && x.char == c && y.char == c && z.char == c && atBlank rest
  | _ => false

/-- Whether a marker of a document's start or end comes next. -/
def atDocumentMarker (s : Source) : Bool := atMarker '-' s || atMarker '.' s

/-- Skips blanks, comments, line breaks and byte order marks that start a line. A tab is skipped only
between brackets or where no key can start; after a line break outside brackets a key can start
again. -/
def skipGap (inFlow comment keyAllowed : Bool) : Source → Source × Bool
  | [] => ([], keyAllowed)
  | x :: rest =>
      if isBreak x.char then skipGap inFlow false (keyAllowed || !inFlow) rest
      else if comment then skipGap inFlow true keyAllowed rest
      else if x.char == ' ' || (x.char == '\t' && (inFlow || !keyAllowed)) then
        skipGap inFlow false keyAllowed rest
      else if x.char == '#' then skipGap inFlow true keyAllowed rest
      else if x.char == byteOrderMark && x.column == 0 then skipGap inFlow false keyAllowed rest
      else (x :: rest, keyAllowed)

/-- Skips blanks and a comment up to the end of the line, and the line break; there must be
nothing else in the line. -/
def restOfLine? (s : Source) : Option Source :=
  let s := s.dropWhile (isBlank ·.char)
  let s := if peek? s = some '#' then s.dropWhile (!isBreak ·.char) else s
  match s with
  | [] => some []
  | x :: rest => if isBreak x.char then some rest else none

end Source

end ForeignBinding.Yaml
