import ForeignBinding.Document
import ForeignBinding.Number.Text
import ForeignBinding.Yaml.Scalar
import ForeignBinding.Yaml.Source

/-!
# Documents as YAML

Block style. Fields and items have lines of their own; the items of a list are not indented deeper
than the field they belong to. A text is plain if it reads back as the same text, is quoted
otherwise, and is a literal block if it has several lines.
-/

namespace ForeignBinding.Document

inductive TextStyle where
  | plain
  | single
  | double
  | literal
  deriving DecidableEq, Repr

/-- Whether a character can be written as it is. -/
def isPrintable (c : Char) : Bool :=
  let n := c.toNat
  n == 0x0A || (0x20 ≤ n && n ≤ 0x7E) || (0xA0 ≤ n && n ≤ 0xD7FF) ||
    (0xE000 ≤ n && n ≤ 0xFFFD && n != 0xFEFF) || 0x10000 ≤ n

def isLineBreak (c : Char) : Bool :=
  Yaml.isBreak c || c == '\r' || c == Char.ofNat 0x85

/-- Whether what follows is a blank, a line break or the end. -/
def beforeBlank : List Char → Bool
  | [] => true
  | c :: _ => Yaml.isBlank c || isLineBreak c

/-- Whether a first character, given what follows, has another meaning than to start a text. -/
def isLeadingIndicator (c : Char) (rest : List Char) : Bool :=
  ['#', ',', '[', ']', Char.ofNat 0x7B, Char.ofNat 0x7D, '&', '*', '!', '|', '>', Char.ofNat 39,
    '"', '%', '@', Char.ofNat 0x60].contains c ||
    (['?', ':', '-'].contains c && beforeBlank rest)

/-- Whether a later character has a meaning of its own: a colon before a blank, or a number sign
after one. -/
def hasInnerIndicator (afterBlank : Bool) : List Char → Bool
  | [] => false
  | c :: rest =>
      (c == ':' && beforeBlank rest) || (c == '#' && afterBlank) ||
        hasInnerIndicator (Yaml.isBlank c || isLineBreak c) rest

/-- Whether a text has a character or a beginning that would be read as something else. -/
def hasIndicator : List Char → Bool
  | [] => false
  | c :: rest =>
      "---".toList.isPrefixOf (c :: rest) || "...".toList.isPrefixOf (c :: rest) ||
        isLeadingIndicator c rest ||
        hasInnerIndicator (Yaml.isBlank c || isLineBreak c) rest

/-- Whether a space stands directly before a line break. -/
def hasSpaceBreak : List Char → Bool
  | ' ' :: c :: rest => isLineBreak c || hasSpaceBreak (c :: rest)
  | _ :: rest => hasSpaceBreak rest
  | [] => false

/-- Whether a space stands directly after a line break. -/
def hasBreakSpace : List Char → Bool
  | c :: ' ' :: rest => isLineBreak c || hasBreakSpace (' ' :: rest)
  | _ :: rest => hasBreakSpace rest
  | [] => false

/-- Whether only double quotes can hold a text: it has a character that must be escaped, or a
space before the end of a line. -/
def needsEscapes (cs : List Char) : Bool :=
  !cs.all isPrintable || hasSpaceBreak cs

/-- Whether a text can stand without quotes. -/
def canBePlain (cs : List Char) : Bool :=
  !hasIndicator cs && !cs.any isLineBreak && cs.head? != some ' ' && cs.getLast? != some ' '

def textStyle (s : String) : TextStyle :=
  let cs := s.toList
  if cs.contains '\n' then
    if needsEscapes cs || cs.getLast? == some ' ' then .double else .literal
  else if needsEscapes cs then .double
  else if Yaml.Scalar.isPlainText s && canBePlain cs then .plain
  else if hasBreakSpace cs then .double
  else .single

def escapedChar (c : Char) : String :=
  let n := c.toNat
  if c = '"' then "\\\""
  else if c = '\\' then "\\\\"
  else if isPrintable c && !isLineBreak c then String.singleton c
  else if n = 0x00 then "\\0"
  else if n = 0x07 then "\\a"
  else if n = 0x08 then "\\b"
  else if n = 0x09 then "\\t"
  else if n = 0x0A then "\\n"
  else if n = 0x0B then "\\v"
  else if n = 0x0C then "\\f"
  else if n = 0x0D then "\\r"
  else if n = 0x1B then "\\e"
  else if n = 0x85 then "\\N"
  else if n = 0x2028 then "\\L"
  else if n = 0x2029 then "\\P"
  else
    let digits := (Number.hex n).toUpper
    if n ≤ 0xFF then "\\x" ++ Number.padLeft 2 '0' digits
    else if n ≤ 0xFFFF then "\\u" ++ Number.padLeft 4 '0' digits
    else "\\U" ++ Number.padLeft 8 '0' digits

/-- A text inside single quotes, in which a single quote is written twice. A line of it after a
separator is indented, and so is the closing quote. -/
def singleQuoted (indent : Nat) (afterBreak : Bool) : List Char → String
  | [] => if afterBreak then String.ofList (List.replicate indent ' ') else ""
  | c :: rest =>
      let lead := if afterBreak && !isLineBreak c then
        String.ofList (List.replicate indent ' ') else ""
      let quoted := if c = Char.ofNat 39 then "\'\'" else String.singleton c
      lead ++ quoted ++ singleQuoted indent (isLineBreak c) rest

/-- What follows the mark of a literal block: its indentation, if the text starts with a blank or a
line break, and what becomes of the line breaks at its end. -/
def literalHints (cs : List Char) : String :=
  let indent := match cs with
    | c :: _ => if c = ' ' ∨ isLineBreak c then "2" else ""
    | [] => ""
  let chomp := match cs.reverse with
    | c :: d :: _ => if !isLineBreak c then "-" else if isLineBreak d then "+" else ""
    | [c] => if isLineBreak c then "+" else "-"
    | [] => "-"
  indent ++ chomp

def literalLines (indent : Nat) (afterBreak : Bool) : List Char → String
  | [] => ""
  | c :: rest =>
      let lead := if afterBreak && !isLineBreak c then
        String.ofList (List.replicate indent ' ') else ""
      lead ++ String.singleton c ++ literalLines indent (isLineBreak c) rest

/-- A text with the end of its line, whose further lines are indented by `indent`. A literal block
that ends in a line break of any sort has no other. -/
def yamlText (indent : Nat) (s : String) : String :=
  match textStyle s with
  | .plain => s ++ "\n"
  | .single => "\'" ++ singleQuoted indent false s.toList ++ "\'\n"
  | .double => "\"" ++ String.join (s.toList.map escapedChar) ++ "\"\n"
  | .literal =>
      let lines := "|" ++ literalHints s.toList ++ "\n" ++ literalLines indent true s.toList
      if s.toList.getLast?.any isLineBreak then lines else lines.push '\n'

def margin (indent : Nat) : String :=
  String.ofList (List.replicate indent ' ')

mutual

/-- What follows the name of a field, up to the end of the line or of the lines below it. -/
def yamlValue (indent : Nat) : Document → String
  | list [] => " []\n"
  | list items => "\n" ++ yamlItems indent items
  | record [] => " \x7b\x7d\n"
  | record fields => "\n" ++ yamlFields (indent + 2) true fields
  | text s => " " ++ yamlText (indent + 2) s
  | number n => " " ++ toString n ++ "\n"
  | bool b => " " ++ toString b ++ "\n"

/-- The fields of a record. Where the first one follows a dash its line has begun already. -/
def yamlFields (indent : Nat) (fresh : Bool) : List (String × Document) → String
  | [] => ""
  | (n, d) :: rest =>
      (if fresh then margin indent else "") ++ n ++ ":" ++ yamlValue indent d ++
        yamlFields indent true rest

def yamlItems (indent : Nat) : List Document → String
  | [] => ""
  | d :: rest => margin indent ++ "-" ++ yamlItem indent d ++ yamlItems indent rest

def yamlItem (indent : Nat) : Document → String
  | record [] => " \x7b\x7d\n"
  | record fields => " " ++ yamlFields (indent + 2) false fields
  | list [] => " []\n"
  | list items => " " ++ yamlInner (indent + 2) items
  | text s => " " ++ yamlText (indent + 2) s
  | number n => " " ++ toString n ++ "\n"
  | bool b => " " ++ toString b ++ "\n"

/-- The items of a list that is itself an item. -/
def yamlInner (indent : Nat) : List Document → String
  | [] => ""
  | d :: rest => "-" ++ yamlItem indent d ++ yamlItems indent rest

end

/-- The YAML text of a document, with a line break of some sort at its end. -/
def toYaml : Document → String
  | record (f :: fields) => yamlFields 0 true (f :: fields)
  | d => String.ofList ((yamlValue 0 d).toList.drop 1)

end ForeignBinding.Document
