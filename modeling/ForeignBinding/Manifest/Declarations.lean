import ForeignBinding.Declaration.Parse
import ForeignBinding.Failure
import ForeignBinding.Manifest

/-!
# The declarations of a manifest

The libraries come first, then the calling convention, then the entries in order. An entry is a map
of one key, the kind, to a list of arguments or to a single one. What is wrong in an entry is
reported with the entry's number.
-/

namespace ForeignBinding

namespace Argument

/-- A value that has no place among arguments. -/
def unexpected {α : Type} (v : Yaml.Value) : Attempt ManifestError α :=
  (Attempt.fail .parse).noting ("Unexpected value: " ++ v.display)

/-- A number that is not a whole number of 64 bits with a sign. -/
def notInteger {α : Type} (shown : String) : Attempt ManifestError α :=
  (Attempt.fail .parse).noting s!"`{shown}` is not an integer"

def key (v : Yaml.Value) : Attempt ManifestError String :=
  match v.text? with
  | some s => .ok s
  | none => (Attempt.fail .parse).noting "Map keys must be strings"

mutual

def ofValue : Yaml.Value → Attempt ManifestError Argument
  | .string s => .ok (.symbol s)
  | .int n =>
      if n ≤ Int64.maxValue.toInt then .ok (.int (Int64.ofInt n)) else notInteger (toString n)
  | .float bits => notInteger (Yaml.Value.floatStyle.print bits)
  | .sequence vs => do
      let items ← ofValues vs
      return .list items
  | .mapping es => do
      let entries ← ofEntries es
      return .map entries
  | .null => unexpected .null
  | .bool b => unexpected (.bool b)
  | .tagged t v => unexpected (.tagged t v)

/-- The arguments that values are; the first that is none is the failure. -/
def ofValues : List Yaml.Value → Attempt ManifestError (List Argument)
  | [] => .ok []
  | v :: vs => do
      let a ← ofValue v
      let as ← ofValues vs
      return a :: as

def ofEntries : List (Yaml.Value × Yaml.Value) → Attempt ManifestError (List (String × Argument))
  | [] => .ok []
  | (k, v) :: es => do
      let name ← key k
      let a ← ofValue v
      let rest ← ofEntries es
      return (name, a) :: rest

end

end Argument

namespace Manifest

/-- The kind and the arguments of an entry. -/
def splitEntry : Yaml.Value → Attempt ManifestError (String × List Argument)
  | .mapping [(k, v)] =>
      match k.text? with
      | none => (Attempt.fail .parse).noting "A declaration kind must be a string"
      | some kind =>
          match v with
          | .sequence vs => do
              let args ← Argument.ofValues vs
              return (kind, args)
          | v => do
              let a ← Argument.ofValue v
              return (kind, [a])
  | _ => (Attempt.fail .parse).noting "A declaration must be a map with exactly one key"

def ofEntry (v : Yaml.Value) (index : Nat) : Attempt ManifestError Declaration := do
  let (kind, args) ← (splitEntry v).under (ManifestError.declaration index)
  ((Declaration.parse kind args).under (ManifestError.declaration index)).noting s!"Kind: {kind}"

/-- The declarations of entries, the first of which has the given number. -/
def ofEntries (index : Nat) : List Yaml.Value → Attempt ManifestError (List Declaration)
  | [] => .ok []
  | v :: vs => do
      let d ← ofEntry v index
      let ds ← ofEntries (index + 1) vs
      return d :: ds

/-- The declaration of the libraries, if there are any. -/
def libraryDeclaration (m : Manifest) : Attempt ManifestError (List Declaration) :=
  if m.libraries.isEmpty then .ok []
  else do
    let args ← (Argument.ofValues m.libraries).noting "In `libraries`"
    let d ← ((Declaration.parse "library" args).under ManifestError.parse).noting "In `libraries`"
    return [d]

/-- The declaration of the calling convention, if it is given. -/
def conventionDeclaration (m : Manifest) : Attempt ManifestError (List Declaration) :=
  match m.convention with
  | none => .ok []
  | some c => do
      let d ← ((Declaration.parse "convention" [.symbol c]).under ManifestError.parse).noting
        "In `convention`"
      return [d]

/-- All declarations in the order in which they are carried out. -/
def read (m : Manifest) : Attempt ManifestError (List Declaration) := do
  let libraries ← m.libraryDeclaration
  let convention ← m.conventionDeclaration
  let entries ← ofEntries 0 m.declarations
  return libraries ++ convention ++ entries

end Manifest

end ForeignBinding
