import ForeignBinding.Number.Text
import ForeignBinding.Text.Visible
import ForeignBinding.Yaml.Node
import ForeignBinding.Yaml.Scalar

/-!
# Values of a document

What a tree stands for. A local tag makes a tagged value; of the common tags those of scalars must
fit. Keys of a mapping do not repeat, and numbers fit into 64 bits. Collections are limited in
depth, and so is how often aliases are followed, which keeps a value in proportion to its document.
-/

namespace ForeignBinding.Yaml

inductive Value where
  | null
  | bool (b : Bool)
  /-- A whole number from `-2 ^ 63` to `2 ^ 64 - 1`. -/
  | int (n : Int)
  | float (bits : UInt64)
  | string (s : String)
  | sequence (items : List Value)
  | mapping (entries : List (Value × Value))
  | tagged (tag : String) (v : Value)
  deriving Repr, Inhabited

namespace Value

/-- The text that a value is, whatever its tags. -/
def text? : Value → Option String
  | string s => some s
  | tagged _ v => v.text?
  | _ => none

/-- A tag's name as it is shown and compared: a mark in front of it does not count. -/
def tagName (tag : String) : String :=
  match tag.toList with
  | '!' :: c :: rest => String.ofList (c :: rest)
  | cs => String.ofList cs

/-- Whether two floating-point numbers count as the same: every NaN as every other, and the two
zeros. -/
def sameFloat (a b : UInt64) : Bool :=
  match Number.binary64.decode a.toNat, Number.binary64.decode b.toNat with
  | .nan .., .nan .. => true
  | .finite _ 0 _, .finite _ 0 _ => true
  | _, _ => a == b

mutual

/-- Whether two values count as the same key. The order of a mapping's entries does not matter. -/
def same : Value → Value → Bool
  | null, null => true
  | bool a, bool b => a == b
  | int a, int b => a == b
  | float a, float b => sameFloat a b
  | string a, string b => a == b
  | sequence as, sequence bs => sameAll as bs
  | mapping as, mapping bs => as.length == bs.length && includes as bs
  | tagged s a, tagged t b => tagName s == tagName t && same a b
  | _, _ => false

/-- Whether two lists have the same values. -/
def sameAll : List Value → List Value → Bool
  | [], [] => true
  | a :: as, b :: bs => same a b && sameAll as bs
  | _, _ => false

/-- Whether every entry of the first list is in the second. -/
def includes : List (Value × Value) → List (Value × Value) → Bool
  | [], _ => true
  | (k, v) :: rest, bs => bs.any (fun b => same k b.1 && same v b.2) && includes rest bs

end

/-- A whole number, if it fits. -/
def ofInt? (n : Int) : Option Value :=
  if Int64.minValue.toInt ≤ n ∧ n < UInt64.size then some (.int n) else none

def ofScalar? : Scalar → Option Value
  | .null => some .null
  | .bool b => some (.bool b)
  | .int n => ofInt? n
  | .float bits => some (.float bits)
  | .string s => some (.string s)

/-- The value of a scalar with a tag that is not local. -/
def ofCommon? (tag : Tag) (text : String) : Option Value :=
  if tag.isCommon "bool" then (Scalar.bool? text).map .bool
  else if tag.isCommon "int" then (Scalar.int? text.toList).bind ofInt?
  else if tag.isCommon "float" then (Scalar.float? text).map .float
  else if tag.isCommon "null" then if Scalar.isNull text then some .null else none
  else some (.string text)

/-- The value of a scalar's text without a tag. -/
def ofUntagged? (plain : Bool) (text : String) : Option Value :=
  if plain then ofScalar? (Scalar.ofPlain text) else some (.string text)

/-- A value behind the name that its tag gives, if it gives one. -/
def named (tag : Option Tag) (v : Value) : Value :=
  match tag.bind Tag.localName? with
  | some name => .tagged name v
  | none => v

def ofText? (tag : Option Tag) (plain : Bool) (text : String) : Option Value :=
  match tag with
  | some t =>
      if t.isLocal then (ofUntagged? plain text).map (named tag) else ofCommon? t text
  | none => ofUntagged? plain text

/-- The mapping with one more pair, whose key must be new. -/
def addPair? (entries : List (Value × Value)) (k v : Value) : Option (List (Value × Value)) :=
  if entries.any (fun e => same e.1 k) then none else some (entries ++ [(k, v)])

end Value

/-- Reads something from a tree. The state is how many aliases may still be followed. -/
abbrev Following (α : Type) := StateT Nat Option α

namespace Following

/-- The anchored nodes that aliases lead to, the last one first. -/
abbrev Targets := List (Nat × Node)

def targets (root : Node) : Targets := root.anchored.reverse

/-- How often aliases may be followed in a tree. -/
def limit (root : Node) : Nat := 100 * root.length

/-- A node, or what it leads to if it is an alias. -/
def follow (targets : Targets) : Node → Following Node
  | .aliasOf anchor => fun left =>
      match left, targets.lookup anchor with
      | left + 1, some n => some (n, left)
      | _, _ => none
  | n => return n

def run? {α : Type} (root : Node) (read : Targets → Following α) : Option α :=
  (read (targets root)).run' (limit root)

end Following

namespace Value

def ofPairs (inner : Node → Following Value) (done : List (Value × Value)) :
    List (Node × Node) → Following (List (Value × Value))
  | [] => return done
  | (k, v) :: rest => do
      let k ← inner k
      let v ← inner v
      ofPairs inner (← addPair? done k v) rest

/-- The value of a node that is no alias, given how the nodes in it are read. -/
def ofParts (inner : Node → Following Value) : Node → Following Value
  | .scalar p plain text => ofText? p.tag plain text
  | .sequence p items => return named p.tag (.sequence (← items.mapM inner))
  | .mapping p entries => return named p.tag (.mapping (← ofPairs inner [] entries))
  | .aliasOf _ => failure

/-- The value of a tree, whose collections are at most `depth` deep. -/
def ofNode (targets : Following.Targets) : (depth : Nat) → Node → Following Value
  | 0, n => do
      match ← Following.follow targets n with
      | .scalar p plain text => ofText? p.tag plain text
      | _ => failure
  | depth + 1, n => do ofParts (ofNode targets depth) (← Following.follow targets n)

/-- Floating-point numbers in messages keep a decimal place, and very large and very small ones
are written with an exponent. -/
def floatStyle : Number.FloatStyle where
  tie := .even
  positional := fun p => -5 < p && p ≤ 16
  pointed := true
  nan := ".nan"
  infinity := ".inf"

def quoteChar (c : Char) : String :=
  match c with
  | '"' => "\\\""
  | '\\' => "\\\\"
  | '\n' => "\\n"
  | '\r' => "\\r"
  | '\t' => "\\t"
  | c =>
      if c.toNat = 0 then "\\0"
      else if Text.isVisible c then String.singleton c
      else "\\u\x7b" ++ Number.hex c.toNat ++ "\x7d"

def quote (s : String) : String :=
  "\"" ++ String.join (s.toList.map quoteChar) ++ "\""

mutual

/-- A value as it is shown in a message. -/
def display : Value → String
  | null => "Null"
  | bool b => "Bool(" ++ toString b ++ ")"
  | int n => "Number(" ++ toString n ++ ")"
  | float bits => "Number(" ++ floatStyle.print bits ++ ")"
  | string s => "String(" ++ quote s ++ ")"
  | sequence vs => "Sequence [" ++ ", ".intercalate (displayAll vs) ++ "]"
  | mapping es => "Mapping \x7b" ++ ", ".intercalate (displayPairs es) ++ "\x7d"
  | tagged t v =>
      "TaggedValue \x7b tag: !" ++ tagName t ++ ", value: " ++ v.display ++ " \x7d"

/-- A key as it is shown: a simple one without the word for its sort. -/
def displayKey : Value → String
  | bool b => toString b
  | int n => toString n
  | float bits => floatStyle.print bits
  | string s => quote s
  | v => v.display

/-- Each value as it is shown. -/
def displayAll : List Value → List String
  | [] => []
  | v :: vs => v.display :: displayAll vs

/-- Each pair as it is shown. -/
def displayPairs : List (Value × Value) → List String
  | [] => []
  | (k, v) :: es => (displayKey k ++ ": " ++ v.display) :: displayPairs es

end

end Value

end ForeignBinding.Yaml
