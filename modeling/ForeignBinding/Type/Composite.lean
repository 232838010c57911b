/-!
# Struct and union types

A composite is known by its identity. Two declarations of one name in different scopes are two
composites, and what is known of their layouts is kept apart (`Definitions`).
-/

namespace ForeignBinding

/-- The two ways of putting fields together: one after the other, or all at the same place. -/
inductive CompositeKind where
  | struct
  | union
  deriving DecidableEq, Repr, Inhabited

def CompositeKind.word : CompositeKind → String
  | struct => "struct"
  | union => "union"

/-- A declared struct or union, whose `id` tells it from others of the same kind and name. -/
structure Composite where
  id : Nat
  kind : CompositeKind
  name : String
  deriving DecidableEq, Repr, Inhabited

/-- A composite as it is shown: kind and name. -/
def Composite.display (c : Composite) : String :=
  c.kind.word ++ " " ++ c.name

/-- A composite as it is cited in a message: kind and quoted name. -/
def Composite.cite (c : Composite) : String :=
  s!"{c.kind.word} `{c.name}`"

end ForeignBinding
