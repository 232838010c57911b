import ForeignBinding.Yaml.Token

/-!
# Reading tokens

The lexer keeps the indentations of the block collections it is in, and the places where a key may
have started without being marked. When a colon shows that one did, a key token is put in front of
it, and with it the start of a mapping if the key is indented deeper than what surrounds it.
-/

namespace ForeignBinding.Yaml

/-- A place where a key may have started. -/
structure PendingKey where
  /-- The number of tokens before it. -/
  position : Nat
  place : Located
  /-- Whether it must turn out to be a key, as it stands where the keys of a mapping stand. -/
  required : Bool

structure Lexer where
  source : Source
  /-- The tokens so far, the last one first. -/
  tokens : List Token := []
  /-- How many tokens there are so far. -/
  count : Nat := 0
  /-- The indentation of the innermost block collection; `-1` outside all. -/
  indent : Int := -1
  /-- The indentations around it, innermost first. -/
  indents : List Int := []
  /-- The number of open brackets and braces. -/
  flow : Nat := 0
  /-- Whether a key may start at the next token without being marked. -/
  keyAllowed : Bool := true
  /-- Where a key may have started, outside all brackets or before the innermost ones. -/
  pending : Option PendingKey := none
  /-- The same for the brackets around those, innermost first. -/
  outer : List (Option PendingKey) := []

namespace Lexer

def emit (l : Lexer) (t : Token) : Lexer :=
  { l with tokens := t :: l.tokens, count := l.count + 1 }

/-- Puts a token behind the first `position` tokens. -/
def insertAt (l : Lexer) (position : Nat) (t : Token) : Lexer :=
  let later := l.count - position
  { l with tokens := l.tokens.take later ++ t :: l.tokens.drop later, count := l.count + 1 }

/-- Closes the block collections that are indented deeper than `column`. -/
def unroll (column : Int) (l : Lexer) : Lexer :=
  if l.flow = 0 then go l l.indents else l
where
  /-- Closes collections one by one. -/
  go (l : Lexer) : List Int → Lexer
    | [] => { l with indents := [] }
    | outer :: rest =>
        if column < l.indent then go { l.emit .blockEnd with indent := outer } rest
        else { l with indents := outer :: rest }

/-- Opens a block collection at `column` behind the first `position` tokens, unless one at this
depth is open. -/
def roll (column : Int) (position : Nat) (start : Token) (l : Lexer) : Lexer :=
  if l.flow = 0 ∧ l.indent < column then
    { (l.insertAt position start) with indent := column, indents := l.indent :: l.indents }
  else l

/-- Gives up the key that may have started, which must not have been required. -/
def dropKey? (l : Lexer) : Option Lexer :=
  match l.pending with
  | some k => if k.required then none else some { l with pending := none }
  | none => some l

/-- Notes that a key may start at `x`. -/
def saveKey? (x : Located) (l : Lexer) : Option Lexer :=
  if l.keyAllowed then do
    let required := l.flow == 0 && l.indent == x.column
    let l ← l.dropKey?
    return { l with pending := some ⟨l.count, x, required⟩ }
  else some l

/-- The key that may have started and can still end at `x`: in its line, and not too far before. -/
def validKey? (x : Located) (l : Lexer) : Option (Option PendingKey) :=
  match l.pending with
  | none => some none
  | some k =>
      if k.place.line < x.line ∨ k.place.index + 1024 < x.index then
        if k.required then none else some none
      else some (some k)

/-- A token that ends whatever block collections are open. -/
def topLevel? (t : Token) (rest : Source) (l : Lexer) : Option Lexer := do
  let l ← (l.unroll (-1)).dropKey?
  return { l.emit t with keyAllowed := false, source := rest }

def flowStart? (t : Token) (x : Located) (rest : Source) (l : Lexer) : Option Lexer := do
  let l ← l.saveKey? x
  return { l.emit t with
    outer := l.pending :: l.outer, pending := none, flow := l.flow + 1,
    keyAllowed := true, source := rest }

def flowEnd? (t : Token) (rest : Source) (l : Lexer) : Option Lexer := do
  let l ← l.dropKey?
  let l := match l.outer with
    | key :: outer => { l with pending := key, outer, flow := l.flow - 1 }
    | [] => l
  return { l.emit t with keyAllowed := false, source := rest }

def flowEntry? (rest : Source) (l : Lexer) : Option Lexer := do
  let l ← l.dropKey?
  return { l.emit .flowEntry with keyAllowed := true, source := rest }

/-- Opens a block collection at a mark, where one may start. -/
def openAtMark? (start : Token) (x : Located) (l : Lexer) : Option Lexer :=
  if l.flow ≠ 0 then some l
  else if l.keyAllowed then some (l.roll x.column l.count start)
  else none

def blockEntry? (x : Located) (rest : Source) (l : Lexer) : Option Lexer := do
  let l ← l.openAtMark? .blockSequenceStart x
  let l ← l.dropKey?
  return { l.emit .blockEntry with keyAllowed := true, source := rest }

def key? (x : Located) (rest : Source) (l : Lexer) : Option Lexer := do
  let l ← l.openAtMark? .blockMappingStart x
  let l ← l.dropKey?
  return { l.emit .key with keyAllowed := l.flow == 0, source := rest }

def value? (x : Located) (rest : Source) (l : Lexer) : Option Lexer := do
  match ← l.validKey? x with
  | some k =>
      let l := (l.insertAt k.position .key).roll k.place.column k.position .blockMappingStart
      return { l.emit .value with pending := none, keyAllowed := false, source := rest }
  | none =>
      let l ← ({ l with pending := none } : Lexer).openAtMark? .blockMappingStart x
      return { l.emit .value with keyAllowed := l.flow == 0, source := rest }

/-- The name of an anchor or alias. It ends before a blank or an indicator. -/
def anchorName? (s : Source) : Option (String × Source) :=
  let (name, rest) := s.spanChars isWord
  let ends := match Source.peek? rest with
    | none => true
    | some c => isBlank c || isBreak c ||
        ['?', ':', ',', ']', Char.ofNat 0x7D, '%', '@', Char.ofNat 0x60].contains c
  if name.isEmpty || !ends then none else some (String.ofList name, rest)

def anchor? (make : String → Token) (x : Located) (rest : Source) (l : Lexer) : Option Lexer := do
  let l ← l.saveKey? x
  let (name, rest) ← anchorName? rest
  return { l.emit (make name) with keyAllowed := false, source := rest }

/-- Whether a character may stand in a tag; brackets and commas only between angle brackets. -/
def isTagChar (verbatim : Bool) (c : Char) : Bool :=
  isWord c ||
    [';', '/', '?', ':', '@', '&', '=', '+', '$', '.', '%', '!', '~', '*', Char.ofNat 39, '(',
      ')'].contains c ||
    (verbatim && (c == ',' || c == '[' || c == ']'))

/-- A handle: an exclamation mark, a word, and perhaps another exclamation mark. -/
def handle (s : Source) : List Char × Source :=
  let (word, rest) := Source.spanChars isWord (s.drop 1)
  match rest with
  | x :: rest' => if x.char == '!' then ('!' :: word ++ ['!'], rest') else ('!' :: word, x :: rest')
  | [] => ('!' :: word, [])

/-- A tag, from its exclamation mark on. -/
def tagParts? (s : Source) : Option (String × Tag × Source) :=
  if s.char? 1 = some '<' then do
    let (uri, rest) := Source.spanChars (isTagChar true) (s.drop 2)
    if uri.isEmpty || Source.peek? rest ≠ some '>' then none
    else return ("", ← Tag.ofSpelling? uri, rest.drop 1)
  else do
    let (h, rest) := handle s
    let (uri, rest) := rest.spanChars (isTagChar false)
    if 1 < h.length && h.getLast? == some '!' then
      if uri.isEmpty then none else return (String.ofList h, ← Tag.ofSpelling? uri, rest)
    else
      let suffix ← Tag.ofSpelling? (h.drop 1 ++ uri)
      return if suffix.text = "" then ("", { text := "!" }, rest) else ("!", suffix, rest)

/-- A tag, which a blank follows, or a comma between brackets. -/
def tag? (x : Located) (s : Source) (l : Lexer) : Option Lexer := do
  let l ← l.saveKey? x
  let (h, suffix, rest) ← tagParts? s
  if Source.atBlank rest || (l.flow ≠ 0 && Source.peek? rest == some ',') then
    return { l.emit (.tag h suffix) with keyAllowed := false, source := rest }
  else none

def shortNumber? (s : Source) : Option (Nat × Source) :=
  let (digits, rest) := s.spanChars Char.isDigit
  if digits.isEmpty || 9 < digits.length then none else some (Number.decimalValue digits, rest)

def directive? (s : Source) : Option (Token × Source) := do
  let (name, rest) := s.spanChars isWord
  if !Source.atBlank rest then none
  else
    let arguments : Source := rest.dropWhile (isBlank ·.char)
    match String.ofList name with
    | "YAML" =>
        let (major, rest) ← shortNumber? arguments
        if Source.peek? rest ≠ some '.' then none
        else
          let (minor, rest) ← shortNumber? (rest.drop 1)
          return (.version major minor, rest)
    | "TAG" =>
        if arguments.peek? ≠ some '!' then none
        else
          let (h, rest) := handle arguments
          if h.getLast? ≠ some '!' || !(Source.peek? rest).any isBlank then none
          else
            let (uri, rest) := Source.spanChars (isTagChar true) (rest.dropWhile (isBlank ·.char))
            if uri.isEmpty || !Source.atBlank rest then none
            else return (.tagHandle (String.ofList h) (← Tag.ofSpelling? uri), rest)
    | _ => none

def scalar? (plain : Bool) (x : Located) (read : Lexer → Option ScalarText) (l : Lexer) :
    Option Lexer := do
  let l ← l.saveKey? x
  let t ← read l
  return { l.emit (.scalar t.text plain) with keyAllowed := t.broken, source := t.rest }

def blockScalar? (folded : Bool) (rest : Source) (l : Lexer) : Option Lexer := do
  let l ← l.dropKey?
  let t ← ScalarText.block? folded l.indent rest
  return { l.emit (.scalar t.text false) with keyAllowed := true, source := t.rest }

/-- Whether plain text may start with a character, given what follows it. -/
def startsPlain (inFlow : Bool) (c : Char) (rest : Source) : Bool :=
  if c == '-' then !(Source.peek? rest).any isBlank
  else if c == '?' || c == ':' then !inFlow && !Source.atBlank rest
  else !([',', '[', ']', Char.ofNat 0x7B, Char.ofNat 0x7D, '#', '&', '*', '!', '|', '>',
    Char.ofNat 39, '"', '%', '@', Char.ofNat 0x60].contains c || isBlank c || isBreak c)

/-- Reads the token that starts with the character `x`. -/
def token? (l : Lexer) (x : Located) (rest : Source) : Option Lexer :=
  let inFlow := l.flow != 0
  let s := x :: rest
  if x.column == 0 && x.char == '%' then do
    let l ← (l.unroll (-1)).dropKey?
    let (t, rest) ← directive? rest
    return { l.emit t with keyAllowed := false, source := ← Source.restOfLine? rest }
  else if Source.atMarker '-' s then l.topLevel? .documentStart (s.drop 3)
  else if Source.atMarker '.' s then l.topLevel? .documentEnd (s.drop 3)
  else if x.char == '[' then l.flowStart? .flowSequenceStart x rest
  else if x.char == Char.ofNat 0x7B then l.flowStart? .flowMappingStart x rest
  else if x.char == ']' then l.flowEnd? .flowSequenceEnd rest
  else if x.char == Char.ofNat 0x7D then l.flowEnd? .flowMappingEnd rest
  else if x.char == ',' then l.flowEntry? rest
  else if x.char == '-' && Source.atBlank rest then l.blockEntry? x rest
  else if x.char == '?' && (inFlow || Source.atBlank rest) then l.key? x rest
  else if x.char == ':' && (inFlow || Source.atBlank rest) then l.value? x rest
  else if x.char == '*' then l.anchor? .aliasOf x rest
  else if x.char == '&' then l.anchor? .anchor x rest
  else if x.char == '!' then l.tag? x s
  else if x.char == '|' && !inFlow then l.blockScalar? false rest
  else if x.char == '>' && !inFlow then l.blockScalar? true rest
  else if x.char == Char.ofNat 39 then
    l.scalar? false x fun _ => ScalarText.singleQuoted [] {} rest
  else if x.char == '"' then l.scalar? false x fun _ => ScalarText.doubleQuoted [] {} .outside rest
  else if startsPlain inFlow x.char rest then
    l.scalar? true x fun l => ScalarText.plain inFlow (l.indent + 1) [] {} s
  else none

/-- The tokens of the rest of the source, in order, after those read so far. There are fewer than
`more` to come. -/
def run? : (more : Nat) → Lexer → Option (List Token)
  | 0, _ => none
  | more + 1, l =>
      match Source.skipGap (l.flow != 0) false l.keyAllowed l.source with
      | ([], _) => do
          let l ← (l.unroll (-1)).dropKey?
          return l.tokens.reverse
      | (x :: rest, keyAllowed) => do
          run? more (← token? ({ l with keyAllowed }.unroll x.column) x rest)

end Lexer

/-- The tokens of a text, unless it is malformed. Every step takes a character at least. -/
def Token.ofText? (text : String) : Option (List Token) := do
  let source ← Source.ofText? text.toList
  Lexer.run? (source.length + 1) { source }

end ForeignBinding.Yaml
