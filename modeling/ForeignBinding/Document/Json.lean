import ForeignBinding.Document
import ForeignBinding.Number.Text

/-!
# Documents as JSON

Each item and each field has a line of its own, indented by two spaces. Only quotes, backslashes
and control characters are escaped.
-/

namespace ForeignBinding.Document

def jsonChar (c : Char) : String :=
  match c with
  | '"' => "\\\""
  | '\\' => "\\\\"
  | '\n' => "\\n"
  | '\r' => "\\r"
  | '\t' => "\\t"
  | c =>
      if c.toNat = 0x08 then "\\b"
      else if c.toNat = 0x0C then "\\f"
      else if c.toNat < 0x20 then "\\u" ++ Number.hexPadded 4 c.toNat
      else String.singleton c

def jsonString (s : String) : String :=
  "\"" ++ String.join (s.toList.map jsonChar) ++ "\""

def indentation (depth : Nat) : String :=
  String.ofList (List.replicate (2 * depth) ' ')

/-- Lines between brackets; nothing is between them if there are no lines. -/
def bracketed (depth : Nat) (left right : String) : List String → String
  | [] => left ++ right
  | lines =>
      left ++ "\n" ++ ",\n".intercalate (lines.map (indentation (depth + 1) ++ ·)) ++ "\n" ++
        indentation depth ++ right

mutual

/-- The JSON text of a document, inside of `depth` others. -/
def jsonAt (depth : Nat) : Document → String
  | text s => jsonString s
  | number n => toString n
  | bool b => toString b
  | list items => bracketed depth "[" "]" (jsonItems (depth + 1) items)
  | record fields => bracketed depth "\x7b" "\x7d" (jsonFields (depth + 1) fields)

def jsonItems (depth : Nat) : List Document → List String
  | [] => []
  | d :: ds => jsonAt depth d :: jsonItems depth ds

def jsonFields (depth : Nat) : List (String × Document) → List String
  | [] => []
  | (n, d) :: fs => (jsonString n ++ ": " ++ jsonAt depth d) :: jsonFields depth fs

end

/-- The JSON text of a document, without a line break at its end. -/
def toJson (d : Document) : String := jsonAt 0 d

end ForeignBinding.Document
