import ForeignBinding.Yaml.Value

/-!
# Manifests

The declarations of one scope as they are written in a file. Unknown keys are ignored; a key that
the manifest knows must not repeat. Where a text is asked for, any scalar is taken as it is spelt.
-/

namespace ForeignBinding

/-- A manifest, whose libraries and declarations are not yet looked into. -/
structure Manifest where
  name : String
  convention : Option String
  libraries : List Yaml.Value
  declarations : List Yaml.Value
  deriving Inhabited

namespace Manifest

/-- The name of the file that is looked for where no path is given. -/
def fileName : String := "nativebind.yaml"

structure Partial where
  name : Option String := none
  convention : Option (Option String) := none
  libraries : Option (List Yaml.Value) := none
  declarations : Option (List Yaml.Value) := none

/-- How deep collections may lie in each other inside a list of the manifest. -/
def depthLimit : Nat := 126

/-- The text of a scalar, whatever it stands for. -/
def text (targets : Yaml.Following.Targets) (n : Yaml.Node) : Yaml.Following String := do
  match ← Yaml.Following.follow targets n with
  | .scalar _ _ text => return text
  | _ => failure

/-- Whether a scalar stands for nothing; it must, if its tag says so. -/
def isAbsent? (tag : Option Yaml.Tag) (plain : Bool) (text : String) : Option Bool :=
  match tag with
  | none => some (plain && (text.isEmpty || Yaml.Scalar.isNull text))
  | some t =>
      if plain && t.isCommon "null" then if Yaml.Scalar.isNull text then some true else none
      else some false

/-- The text of a scalar, or nothing if it stands for nothing. -/
def optional (targets : Yaml.Following.Targets) (n : Yaml.Node) :
    Yaml.Following (Option String) := do
  match ← Yaml.Following.follow targets n with
  | .scalar p plain text => return if ← isAbsent? p.tag plain text then none else some text
  | _ => failure

/-- The values of a list; a node that is left out is an empty one. -/
def list (targets : Yaml.Following.Targets) (n : Yaml.Node) : Yaml.Following (List Yaml.Value) := do
  match ← Yaml.Following.follow targets n with
  | .sequence _ items => items.mapM (Yaml.Value.ofNode targets depthLimit)
  | .scalar _ plain text => if plain && text.isEmpty then return [] else failure
  | _ => failure

namespace Partial

/-- Reads one entry, unless its key is unknown or was read before. -/
def add (targets : Yaml.Following.Targets) (p : Partial) (key : String) (n : Yaml.Node) :
    Yaml.Following Partial := do
  match key with
  | "name" =>
      if p.name.isSome then failure else return { p with name := some (← text targets n) }
  | "convention" =>
      if p.convention.isSome then failure
      else return { p with convention := some (← optional targets n) }
  | "libraries" =>
      if p.libraries.isSome then failure
      else return { p with libraries := some (← list targets n) }
  | "declarations" =>
      if p.declarations.isSome then failure
      else return { p with declarations := some (← list targets n) }
  | _ => return p

def addAll (targets : Yaml.Following.Targets) (p : Partial) :
    List (Yaml.Node × Yaml.Node) → Yaml.Following Partial
  | [] => return p
  | (k, n) :: rest => do
      let p ← p.add targets (← text targets k) n
      p.addAll targets rest

/-- The manifest of what was read; only the name must be there. -/
def complete? (p : Partial) : Option Manifest :=
  p.name.map fun name =>
    { name
      convention := p.convention.join
      libraries := p.libraries.getD []
      declarations := p.declarations.getD [] }

end Partial

def ofNode? : Yaml.Node → Option Manifest
  | .mapping p entries => do
      let read ← Yaml.Following.run? (.mapping p entries) fun targets =>
        ({} : Partial).addAll targets entries
      read.complete?
  | _ => none

def ofText? (text : String) : Option Manifest := do
  ofNode? (← Yaml.Node.ofText? text)

end Manifest

end ForeignBinding
