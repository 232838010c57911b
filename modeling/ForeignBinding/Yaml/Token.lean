import ForeignBinding.Yaml.Tag

/-!
# Tokens of a document
-/

namespace ForeignBinding.Yaml

/-- A token. Indentation has become explicit: a block collection has a start and an end, and the
key of a mapping is announced even where the text does not mark it. -/
inductive Token where
  | version (major minor : Nat)
  | tagHandle (handle : String) (expansion : Tag)
  | documentStart
  | documentEnd
  | blockSequenceStart
  | blockMappingStart
  | blockEnd
  | flowSequenceStart
  | flowSequenceEnd
  | flowMappingStart
  | flowMappingEnd
  | blockEntry
  | flowEntry
  | key
  | value
  | aliasOf (name : String)
  | anchor (name : String)
  /-- A tag: the part after its handle. Without a handle the suffix is the whole tag. -/
  | tag (handle : String) (suffix : Tag)
  | scalar (text : String) (plain : Bool)
  deriving DecidableEq, Repr

end ForeignBinding.Yaml
