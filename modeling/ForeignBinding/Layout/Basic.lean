import ForeignBinding.Type.Descriptor

/-!
# Layouts

The computed layout of a composite: its fields in order, each with its place, and the size and
alignment of the whole.
-/

namespace ForeignBinding

inductive FieldKind where
  | scalar (type : Descriptor)
  /-- A composite embedded in place. -/
  | composite (c : Composite)
  | array (element : Descriptor) (count : Nat)
  deriving DecidableEq, Repr

/-- The type of a field as it is shown. -/
def FieldKind.display : FieldKind → String
  | scalar d => d.display
  | composite c => c.display
  | array d n => s!"{d.display}[{n}]"

structure Field where
  name : String
  kind : FieldKind
  offset : Nat
  size : Nat
  alignment : Nat
  deriving DecidableEq, Repr

/-- The end of a field: the first offset after it. -/
def Field.stop (f : Field) : Nat := f.offset + f.size

structure Layout where
  kind : CompositeKind
  fields : List Field
  size : Nat
  alignment : Nat
  deriving DecidableEq, Repr

namespace Layout

def field? (l : Layout) (name : String) : Option Field :=
  l.fields.find? (fun f => f.name == name)

def members (l : Layout) : List String :=
  l.fields.map (·.name)

/-- The names of the fields with their offsets. -/
def offsets (l : Layout) : List (String × Nat) :=
  l.fields.map fun f => (f.name, f.offset)

def offsetOf? (l : Layout) (name : String) : Option Nat :=
  (l.field? name).map (·.offset)

end Layout

end ForeignBinding
