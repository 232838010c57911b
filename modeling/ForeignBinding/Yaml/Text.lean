import ForeignBinding.Number.Decimal
import ForeignBinding.Yaml.Source

/-!
# The text of scalars

Plain, quoted and block scalars, read character by character. Line breaks inside plain and quoted
text are folded: a single one becomes a space, further ones stay.
-/

namespace ForeignBinding.Yaml

/-- White space that has been read and that counts only if more text follows. -/
structure Gap where
  /-- Whether a line has ended. -/
  broken : Bool := false
  /-- The blanks, last one first, of a gap within a line. -/
  blanks : List Char := []
  /-- The first line break, unless it was escaped. -/
  first : Option Char := none
  /-- The further line breaks, last one first. -/
  further : List Char := []

namespace Gap

/-- The gap with one more blank; blanks at the start of a line do not count. -/
def blank (g : Gap) (c : Char) : Gap :=
  if g.broken then g else { g with blanks := c :: g.blanks }

/-- The gap with one more line break; blanks before it do not count. -/
def lineBreak (g : Gap) (c : Char) : Gap :=
  if g.broken then { g with further := c :: g.further } else { broken := true, first := some c }

def escaped : Gap := { broken := true }

def isEmpty (g : Gap) : Bool := !g.broken && g.blanks.isEmpty

/-- The text of the gap, last character first. -/
def folded (g : Gap) : List Char :=
  if g.broken then
    match g.first with
    | none => g.further
    | some '\n' => if g.further.isEmpty then [' '] else g.further
    | some c => g.further ++ [c]
  else g.blanks

end Gap

/-- A scalar's text, whether a line ended after it, and what follows. -/
structure ScalarText where
  text : String
  broken : Bool
  rest : Source

namespace ScalarText

/-- Whether plain text ends before this character. -/
def endsPlain (inFlow : Bool) (c : Char) (rest : Source) : Bool :=
  (c == ':' && Source.atBlank rest) || (inFlow && isFlowIndicator c)

/-- Whether a colon stands directly before an indicator, which plain text between brackets must
not have. -/
def isStrayColon (inFlow : Bool) (c : Char) (rest : Source) : Bool :=
  inFlow && c == ':' &&
    match Source.peek? rest with
    | some d => isFlowIndicator d || d == '?'
    | none => false

/-- Reads plain text. Its lines are indented by at least `indent`, unless they are between
brackets. `text` is what was read, last character first. -/
def plain (inFlow : Bool) (indent : Int) (text : List Char) (gap : Gap) :
    Source → Option ScalarText
  | [] => some ⟨String.ofList text.reverse, gap.broken, []⟩
  | x :: rest =>
      let stop := some ⟨String.ofList text.reverse, gap.broken, x :: rest⟩
      if isBlank x.char then
        if gap.broken && x.column < indent && x.char == '\t' then none
        else plain inFlow indent text (gap.blank x.char) rest
      else if isBreak x.char then plain inFlow indent text (gap.lineBreak x.char) rest
      else if !gap.isEmpty && ((!inFlow && x.column < indent) || x.char == '#' ||
          Source.atDocumentMarker (x :: rest)) then stop
      else if isStrayColon inFlow x.char rest then none
      else if endsPlain inFlow x.char rest then stop
      else plain inFlow indent (x.char :: gap.folded ++ text) {} rest

/-- Reads text up to a single quote; two of them stand for one. -/
def singleQuoted (text : List Char) (gap : Gap) : Source → Option ScalarText
  | [] => none
  | x :: rest =>
      if isBlank x.char then singleQuoted text (gap.blank x.char) rest
      else if isBreak x.char then singleQuoted text (gap.lineBreak x.char) rest
      else if Source.atDocumentMarker (x :: rest) then none
      else
        let text := gap.folded ++ text
        if x.char == Char.ofNat 39 then
          match rest with
          | y :: rest' =>
              if y.char == Char.ofNat 39 then singleQuoted (x.char :: text) {} rest'
              else some ⟨String.ofList text.reverse, false, rest⟩
          | [] => some ⟨String.ofList text.reverse, false, []⟩
        else singleQuoted (x.char :: text) {} rest

/-- The character that an escape with a single letter stands for. -/
def escapeChar? (c : Char) : Option Char :=
  match c with
  | '0' => some (Char.ofNat 0x00)
  | 'a' => some (Char.ofNat 0x07)
  | 'b' => some (Char.ofNat 0x08)
  | 't' | '\t' => some '\t'
  | 'n' => some '\n'
  | 'v' => some (Char.ofNat 0x0B)
  | 'f' => some (Char.ofNat 0x0C)
  | 'r' => some '\r'
  | 'e' => some (Char.ofNat 0x1B)
  | ' ' => some ' '
  | '"' => some '"'
  | '/' => some '/'
  | '\\' => some '\\'
  | 'N' => some (Char.ofNat 0x85)
  | '_' => some (Char.ofNat 0xA0)
  | 'L' => some (Char.ofNat 0x2028)
  | 'P' => some (Char.ofNat 0x2029)
  | _ => none

/-- The number of hexadecimal digits after an escape's letter. -/
def escapeWidth? (c : Char) : Option Nat :=
  match c with
  | 'x' => some 2
  | 'u' => some 4
  | 'U' => some 8
  | _ => none

/-- Whether a character is a hexadecimal digit. -/
def isHexDigit (c : Char) : Bool :=
  c.isDigit || ('a' ≤ c && c ≤ 'f') || ('A' ≤ c && c ≤ 'F')

/-- The character of a code point in hexadecimal digits, of which there must be `width`. -/
def codePoint? (width : Nat) (digits : List Char) : Option Char :=
  let n := Number.ofDigits 16 Number.digitValue digits
  if digits.length = width ∧ digits.all isHexDigit ∧ n.isValidChar then some (Char.ofNat n)
  else none

/-- How the reading of a double-quoted scalar stands: outside an escape, after its backslash, or
among its digits (the last one first), of which more are to come. -/
inductive EscapeState where
  | outside
  | started
  | digits (width more : Nat) (read : List Char)

/-- Reads text up to a double quote. A backslash starts an escape. -/
def doubleQuoted (text : List Char) (gap : Gap) : EscapeState → Source → Option ScalarText
  | _, [] => none
  | .digits width more read, x :: rest =>
      let read := x.char :: read
      match more with
      | 0 | 1 => do
          let c ← codePoint? width read.reverse
          doubleQuoted (c :: text) {} .outside rest
      | more + 1 => doubleQuoted text gap (.digits width more read) rest
  | .started, x :: rest =>
      if isBreak x.char then doubleQuoted text .escaped .outside rest
      else
        match escapeWidth? x.char with
        | some width => doubleQuoted text {} (.digits width width []) rest
        | none => do
            let c ← escapeChar? x.char
            doubleQuoted (c :: text) {} .outside rest
  | .outside, x :: rest =>
      if isBlank x.char then doubleQuoted text (gap.blank x.char) .outside rest
      else if isBreak x.char then doubleQuoted text (gap.lineBreak x.char) .outside rest
      else if Source.atDocumentMarker (x :: rest) then none
      else
        let text := gap.folded ++ text
        if x.char == '"' then some ⟨String.ofList text.reverse, false, rest⟩
        else if x.char == '\\' then doubleQuoted text {} .started rest
        else doubleQuoted (x.char :: text) {} .outside rest

/-- What becomes of the line breaks at the end of a block scalar. -/
inductive Chomp where
  | strip
  | clip
  | keep
  deriving DecidableEq, Repr

/-- The chomping that a character of the header asks for. -/
def chomp? (c : Option Char) : Option Chomp :=
  if c = some '+' then some .keep else if c = some '-' then some .strip else none

/-- The indentation that a digit of the header gives, which is not 0. -/
def blockIndent? (c : Option Char) : Option Nat :=
  match c with
  | some c => if c.isDigit then some (Number.digitValue c) else none
  | none => none

/-- The header of a block scalar: chomping and indentation in either order, and then nothing more
in the line. An indentation of 0 is refused; where none is given it is 0. -/
def blockHeader? (s : Source) : Option (Chomp × Nat × Source) := do
  let (chomp, indent, s) := match chomp? s.peek?, blockIndent? s.peek? with
    | some c, _ =>
        match blockIndent? (s.char? 1) with
        | some n => (c, some n, s.drop 2)
        | none => (c, none, s.drop 1)
    | none, some n =>
        match chomp? (s.char? 1) with
        | some c => (c, some n, s.drop 2)
        | none => (Chomp.clip, some n, s.drop 1)
    | none, none => (Chomp.clip, none, s)
  if indent = some 0 then none
  else return (chomp, indent.getD 0, ← Source.restOfLine? s)

/-- Skips indentation and empty lines before a line of a block scalar. Where the indentation is
not known yet (`indent = 0`), `widest` is the deepest so far. Gives the line breaks, last one
first. -/
def blockBreaks? (indent widest : Nat) (breaks : List Char) :
    Source → Option (Nat × List Char × Source)
  | [] => some (widest, breaks, [])
  | x :: rest =>
      let inside := indent == 0 || x.column < indent
      if inside && x.char == ' ' then blockBreaks? indent (max widest (x.column + 1)) breaks rest
      else if inside && x.char == '\t' then none
      else if isBreak x.char then blockBreaks? indent widest (x.char :: breaks) rest
      else some (widest, breaks, x :: rest)

/-- The line breaks between two lines of a block scalar, last character first. In a folded one a
single break between lines that do not start with a blank becomes a space. -/
def blockJoin (folded : Bool) (afterBlank beforeBlank : Bool) (first : Option Char)
    (further : List Char) : List Char :=
  if folded && first == some '\n' && !afterBlank && !beforeBlank then
    if further.isEmpty then [' '] else further
  else further ++ first.toList

/-- Reads the lines of a block scalar. `first` and `further` are the breaks before the line that
comes next, and `afterBlank` says whether the line before started with a blank. -/
def blockLines? (folded : Bool) (indent : Nat) (text : List Char) (afterBlank : Bool)
    (first : Option Char) (further : List Char) :
    Source → Option (List Char × Option Char × List Char × Source)
  | [] => some (text, first, further, [])
  | x :: tail =>
      if x.column = indent then
        let blank := isBlank x.char
        let (line, afterLine) := Source.spanChars (!isBreak ·) (x :: tail)
        let text := line.reverse ++ blockJoin folded afterBlank blank first further ++ text
        match blockBreaks? indent 0 [] (afterLine.drop 1) with
        | none => none
        | some (_, breaks, rest) =>
            if rest.length ≤ tail.length then
              blockLines? folded indent text blank afterLine.peek? breaks rest
            else none
      else some (text, first, further, x :: tail)
  termination_by s => s.length
  decreasing_by exact Nat.lt_succ_of_le ‹_›

/-- Reads a block scalar after its indicator. `parent` is the indentation around it. -/
def block? (folded : Bool) (parent : Int) (s : Source) : Option ScalarText := do
  let (chomp, increment, s) ← blockHeader? s
  let given := if increment = 0 then 0 else (max parent 0).toNat + increment
  let (widest, breaks, s) ← blockBreaks? given 0 [] s
  let indent := if given = 0 then max widest (max (parent + 1).toNat 1) else given
  let (text, first, further, rest) ← blockLines? folded indent [] false none breaks s
  let text := match chomp with
    | .strip => text
    | .clip => first.toList ++ text
    | .keep => further ++ first.toList ++ text
  return ⟨String.ofList text.reverse, true, rest⟩

end ScalarText

end ForeignBinding.Yaml
