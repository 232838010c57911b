import ForeignBinding.Yaml.Text

/-!
# Tags

A tag names the kind of a node. Its bytes may be written with percent signs. They end before the
first that is zero, and need not be text.
-/

namespace ForeignBinding.Yaml

/-- A tag. If its bytes are no text, a replacement character stands where they are not. -/
structure Tag where
  text : String := ""
  isText : Bool := true
  deriving DecidableEq, Repr

namespace Tag

def append (s t : Tag) : Tag := ⟨s.text ++ t.text, s.isText && t.isText⟩

/-- The tag that starts with a character and goes on as given; a zero ends it. -/
def cons (c : Char) (t : Tag) : Tag :=
  if c = Char.ofNat 0 then {} else { t with text := String.singleton c ++ t.text }

/-- The tag that starts with the bytes of one character, if they are that. -/
def consBytes (bytes : List UInt8) (t : Tag) : Tag :=
  match (String.fromUTF8? ⟨bytes.toArray⟩).bind (·.toList.head?) with
  | some c => t.cons c
  | none => ⟨String.singleton (Char.ofNat 0xFFFD) ++ t.text, false⟩

/-- How many bytes the character has that starts with a given one. -/
def byteCount? (b : UInt8) : Option Nat :=
  if b < 0x80 then some 1
  else if b < 0xC0 then none
  else if b < 0xE0 then some 2
  else if b < 0xF0 then some 3
  else if b < 0xF8 then some 4
  else none

def byte? (a b : Char) : Option UInt8 :=
  if ScalarText.isHexDigit a && ScalarText.isHexDigit b then
    some (UInt8.ofNat (Number.ofDigits 16 Number.digitValue [a, b]))
  else none

/-- Reads a tag in which bytes may be written as a percent sign and two digits. Of a character that
was begun so, `read` are the bytes so far, the last one first, and `more` are to come. -/
def decode? (more : Nat) (read : List UInt8) : List Char → Option Tag
  | [] => if more = 0 then some {} else none
  | '%' :: a :: b :: rest =>
      match byte? a b, more with
      | none, _ => none
      | some byte, 0 =>
          match byteCount? byte with
          | none => none
          | some 1 => (decode? 0 [] rest).map (·.consBytes [byte])
          | some count => decode? (count - 1) [byte] rest
      | some byte, 1 =>
          if byte &&& 0xC0 = 0x80 then
            (decode? 0 [] rest).map (·.consBytes (byte :: read).reverse)
          else none
      | some byte, more + 1 =>
          if byte &&& 0xC0 = 0x80 then decode? more (byte :: read) rest else none
  | c :: rest => if c = '%' ∨ more ≠ 0 then none else (decode? 0 [] rest).map (·.cons c)

def ofSpelling? (cs : List Char) : Option Tag := decode? 0 [] cs

/-- The beginning of the tags that every document has. -/
def commonStart : String := "tag:yaml.org,2002:"

/-- Whether this is one of the tags that every document has. -/
def isCommon (t : Tag) (name : String) : Bool := t.text == commonStart ++ name

/-- Whether a tag starts with the mark of local tags. -/
def isLocal (t : Tag) : Bool := t.text.toList.head? == some '!'

/-- The name that a local tag gives to what it stands before: the tag without its mark. A mark
alone is a name itself. What is no text gives no name. -/
def localName? (t : Tag) : Option String :=
  if !t.isText then none
  else
    match t.text.toList with
    | ['!'] => some "!"
    | '!' :: name => some (String.ofList name)
    | _ => none

end Tag

end ForeignBinding.Yaml
