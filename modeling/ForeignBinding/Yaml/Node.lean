import ForeignBinding.Yaml.Lexer

/-!
# Trees of a document

A document's tokens make a tree of scalars, sequences, mappings and aliases. A node that is left out
is an empty plain scalar. Anchors are numbers: that of an anchor is how many names are anchored when
its node starts. So a name that is anchored again shares its number with the name that is anchored
next, and an alias leads to the last node of the tree with its number.
-/

namespace ForeignBinding.Yaml

structure Properties where
  anchor : Option Nat := none
  tag : Option Tag := none
  deriving DecidableEq, Repr

inductive Node where
  | scalar (p : Properties) (plain : Bool) (text : String)
  | sequence (p : Properties) (items : List Node)
  | mapping (p : Properties) (entries : List (Node × Node))
  | aliasOf (anchor : Nat)
  deriving Repr, Inhabited

namespace Node

def empty : Node := .scalar {} true ""

mutual

/-- The anchored nodes of a tree with their numbers, in the order in which they start. -/
def anchored : Node → List (Nat × Node)
  | scalar p plain text => (p.anchor.map fun a => (a, scalar p plain text)).toList
  | sequence p items => (p.anchor.map fun a => (a, sequence p items)).toList ++ anchoredIn items
  | mapping p entries =>
      (p.anchor.map fun a => (a, mapping p entries)).toList ++ anchoredInPairs entries
  | aliasOf _ => []

def anchoredIn : List Node → List (Nat × Node)
  | [] => []
  | n :: ns => n.anchored ++ anchoredIn ns

/-- The anchored nodes of the trees of pairs. -/
def anchoredInPairs : List (Node × Node) → List (Nat × Node)
  | [] => []
  | (k, v) :: rest => k.anchored ++ (v.anchored ++ anchoredInPairs rest)

end

mutual

/-- The length of a tree as a list of scalars, aliases, and starts and ends of collections. -/
def length : Node → Nat
  | scalar .. => 1
  | sequence _ items => lengthOf items + 2
  | mapping _ entries => lengthOfPairs entries + 2
  | aliasOf _ => 1

def lengthOf : List Node → Nat
  | [] => 0
  | n :: ns => n.length + lengthOf ns

def lengthOfPairs : List (Node × Node) → Nat
  | [] => 0
  | (k, v) :: rest => k.length + v.length + lengthOfPairs rest

end

/-- What is known while a tree is built: the expansions of tag handles, and the numbers of the names
that are anchored. -/
structure Context where
  handles : List (String × Tag)
  anchors : List (String × Nat) := []

namespace Context

/-- The full text of a tag, if its handle is known. -/
def tag? (c : Context) (handle : String) (suffix : Tag) : Option Tag :=
  if handle = "" then some suffix else (c.handles.lookup handle).map (·.append suffix)

/-- The context after a name has been anchored. -/
def anchor (c : Context) (name : String) : Context :=
  { c with anchors := (name, c.anchors.length) :: c.anchors.filter (·.1 != name) }

end Context

/-- A part of a tree, the context after it and the tokens that follow. -/
abbrev Parsed (α : Type) := Option (α × Context × List Token)

/-- A node of which there are only the properties, at least one. -/
def omitted (p : Properties) (c : Context) (rest : List Token) : Parsed Node :=
  if p.anchor.isSome || p.tag.isSome then some (.scalar p true "", c, rest) else none

/-- The node of a collection's contents that have been read. -/
def collected {α : Type} (make : α → Node) : Parsed α → Parsed Node
  | some (x, c, rest) => some (make x, c, rest)
  | none => none

/-- Reads the anchor and the tag before a node, in either order. -/
def properties? (c : Context) : List Token → Parsed Properties
  | .anchor a :: .tag h s :: rest =>
      (c.tag? h s).map fun t => (⟨some c.anchors.length, some t⟩, c.anchor a, rest)
  | .anchor a :: rest => some (⟨some c.anchors.length, none⟩, c.anchor a, rest)
  | .tag h s :: .anchor a :: rest =>
      (c.tag? h s).map fun t => (⟨some c.anchors.length, some t⟩, c.anchor a, rest)
  | .tag h s :: rest => (c.tag? h s).map fun t => (⟨none, some t⟩, c, rest)
  | rest => some ({}, c, rest)

/-- Whether an item of a block sequence has no node before this token. -/
def endsEntry (bare : Bool) : List Token → Bool
  | .blockEntry :: _ | .blockEnd :: _ => true
  | .key :: _ | .value :: _ => bare
  | _ => false

/-- Whether a mapping's key or value has no node before this token. -/
def endsBlockPair : List Token → Bool
  | .key :: _ | .value :: _ | .blockEnd :: _ => true
  | _ => false

/-- Where a node stands, as far as it matters for what it can be. -/
inductive Position where
  /-- Between brackets: no block collections. -/
  | flow
  | block
  /-- A key or value in a block mapping: an item may stand at the indentation of the mapping. -/
  | pair
  deriving DecidableEq, Repr

def separated : List Token → Option (List Token)
  | .flowEntry :: rest => some rest
  | _ => none

mutual

/-- Reads a node. This and what follows takes a number of steps that bounds how deep its calls
lie. -/
def read (pos : Position) : (steps : Nat) → Context → List Token → Parsed Node
  | 0, _, _ => none
  | _ + 1, c, .aliasOf name :: rest =>
      (c.anchors.lookup name).map fun a => (.aliasOf a, c, rest)
  | steps + 1, c, ts =>
      match properties? c ts with
      | none => none
      | some (p, c, rest) => content pos p steps c rest

/-- Reads what follows a node's properties. -/
def content (pos : Position) (p : Properties) : (steps : Nat) → Context → List Token → Parsed Node
  | 0, _, _ => none
  | steps + 1, c, ts =>
      match ts with
      | .scalar text plain :: rest => some (.scalar p plain text, c, rest)
      | .flowSequenceStart :: rest => collected (.sequence p) (flowItems true [] steps c rest)
      | .flowMappingStart :: rest => collected (.mapping p) (flowEntries true [] steps c rest)
      | .blockEntry :: rest =>
          if pos = .pair then collected (.sequence p) (entryItems true [] steps c rest)
          else omitted p c ts
      | .blockSequenceStart :: .blockEntry :: rest =>
          if pos = .flow then omitted p c ts
          else collected (.sequence p) (entryItems false [] steps c rest)
      | .blockMappingStart :: rest =>
          if pos = .flow then omitted p c ts
          else collected (.mapping p) (blockEntries [] steps c rest)
      | ts => omitted p c ts

/-- Reads the items of a block sequence after a dash. `bare` says that the sequence has no end of
its own, because its dashes stand where the keys of a mapping stand. -/
def entryItems (bare : Bool) (items : List Node) :
    (steps : Nat) → Context → List Token → Parsed (List Node)
  | 0, _, _ => none
  | steps + 1, c, ts =>
      match if endsEntry bare ts then some (Node.empty, c, ts) else read .block steps c ts with
      | none => none
      | some (n, c, .blockEntry :: rest) => entryItems bare (n :: items) steps c rest
      | some (n, c, .blockEnd :: rest) =>
          some ((n :: items).reverse, c, if bare then .blockEnd :: rest else rest)
      | some (n, c, rest) => if bare then some ((n :: items).reverse, c, rest) else none

def blockEntries (entries : List (Node × Node)) :
    (steps : Nat) → Context → List Token → Parsed (List (Node × Node))
  | 0, _, _ => none
  | _ + 1, c, .blockEnd :: rest => some (entries.reverse, c, rest)
  | steps + 1, c, .key :: rest =>
      match blockPart steps c rest with
      | none => none
      | some (k, c, .value :: rest) =>
          match blockPart steps c rest with
          | none => none
          | some (v, c, rest) => blockEntries ((k, v) :: entries) steps c rest
      | some (k, c, rest) => blockEntries ((k, .empty) :: entries) steps c rest
  | _ + 1, _, _ => none

/-- Reads a key or value of a block mapping, if there is one. -/
def blockPart : (steps : Nat) → Context → List Token → Parsed Node
  | 0, _, _ => none
  | steps + 1, c, ts =>
      if endsBlockPair ts then some (.empty, c, ts) else read .pair steps c ts

/-- Reads the items between brackets. An item that is marked as a key, or that has a value, is a
mapping of one pair. -/
def flowItems (first : Bool) (items : List Node) :
    (steps : Nat) → Context → List Token → Parsed (List Node)
  | 0, _, _ => none
  | _ + 1, c, .flowSequenceEnd :: rest => some (items.reverse, c, rest)
  | steps + 1, c, ts =>
      match if first then some ts else separated ts with
      | none => none
      | some (.flowSequenceEnd :: rest) => some (items.reverse, c, rest)
      | some ts =>
          match flowItem steps c ts with
          | none => none
          | some (n, c, rest) => flowItems false (n :: items) steps c rest

def flowItem : (steps : Nat) → Context → List Token → Parsed Node
  | 0, _, _ => none
  | steps + 1, c, .key :: rest =>
      match rest with
      | .value :: rest | .flowEntry :: rest | .flowSequenceEnd :: rest =>
          match flowValue steps c rest with
          | none => none
          | some (v, c, rest) => some (.mapping {} [(.empty, v)], c, rest)
      | rest =>
          match read .flow steps c rest with
          | none => none
          | some (k, c, rest) =>
              match flowValue steps c rest with
              | none => none
              | some (v, c, rest) => some (.mapping {} [(k, v)], c, rest)
  | steps + 1, c, ts => read .flow steps c ts

/-- Reads a value between brackets, if there is one. -/
def flowValue : (steps : Nat) → Context → List Token → Parsed Node
  | 0, _, _ => none
  | steps + 1, c, .value :: rest =>
      match rest with
      | .flowEntry :: _ | .flowSequenceEnd :: _ | .flowMappingEnd :: _ => some (.empty, c, rest)
      | rest => read .flow steps c rest
  | _ + 1, c, ts => some (.empty, c, ts)

def flowEntries (first : Bool) (entries : List (Node × Node)) :
    (steps : Nat) → Context → List Token → Parsed (List (Node × Node))
  | 0, _, _ => none
  | _ + 1, c, .flowMappingEnd :: rest => some (entries.reverse, c, rest)
  | steps + 1, c, ts =>
      match if first then some ts else separated ts with
      | none => none
      | some (.flowMappingEnd :: rest) => some (entries.reverse, c, rest)
      | some ts =>
          match flowPair steps c ts with
          | none => none
          | some (e, c, rest) => flowEntries false (e :: entries) steps c rest

/-- Reads a pair between braces. A node that is not marked as a key is a key without a value. -/
def flowPair : (steps : Nat) → Context → List Token → Parsed (Node × Node)
  | 0, _, _ => none
  | steps + 1, c, .key :: rest =>
      let key := match rest with
        | .value :: _ | .flowEntry :: _ | .flowMappingEnd :: _ => some (Node.empty, c, rest)
        | rest => read .flow steps c rest
      match key with
      | none => none
      | some (k, c, rest) =>
          match flowValue steps c rest with
          | none => none
          | some (v, c, rest) => some ((k, v), c, rest)
  | steps + 1, c, ts =>
      match read .flow steps c ts with
      | none => none
      | some (k, c, rest) => some ((k, .empty), c, rest)

end

/-- Reads the node of a document. Of eight calls inside each other one at least takes a token. -/
def readRoot (c : Context) (ts : List Token) : Parsed Node :=
  read .block (8 * (ts.length + 1)) c ts

/-- The expansions of tag handles that hold in every document. -/
def standardHandles : List (String × Tag) :=
  [("!", { text := "!" }), ("!!", { text := Tag.commonStart })]

/-- Reads directives up to the mark of the document's start: a version at most once, which must be
known, and each handle at most once. -/
def directives? (versioned : Bool) (handles : List (String × Tag)) :
    List Token → Option (List (String × Tag) × List Token)
  | .documentStart :: rest => some (handles, rest)
  | .version major minor :: rest =>
      if versioned || major ≠ 1 || (minor ≠ 1 && minor ≠ 2) then none
      else directives? true handles rest
  | .tagHandle h e :: rest =>
      if handles.any (fun p => p.1 == h) then none
      else directives? versioned ((h, e) :: handles) rest
  | _ => none

/-- Whether a document has no content before these tokens. -/
def endsDocument : List Token → Bool
  | [] => true
  | .version .. :: _ | .tagHandle .. :: _ | .documentStart :: _ | .documentEnd :: _ => true
  | _ => false

/-- The tree of a document that starts with directives or the mark of its start. -/
def ofMarked? (ts : List Token) : Parsed Node :=
  match directives? false [] ts with
  | none => none
  | some (handles, rest) =>
      let c : Context := { handles := handles ++ standardHandles }
      if endsDocument rest then some (.empty, c, rest) else readRoot c rest

/-- The tree of the first document. -/
def ofTokens? (ts : List Token) : Parsed Node :=
  match ts with
  | [] => none
  | .version .. :: _ | .tagHandle .. :: _ | .documentStart :: _ => ofMarked? ts
  | ts => readRoot { handles := standardHandles } ts

/-- The tree of a text that is one document. -/
def ofText? (text : String) : Option Node := do
  let ts ← Token.ofText? text
  let (n, _, rest) ← ofTokens? ts
  if (rest.dropWhile (· == .documentEnd)).isEmpty then some n else none

end Node

end ForeignBinding.Yaml
