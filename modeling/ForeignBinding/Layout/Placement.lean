import ForeignBinding.Failure
import ForeignBinding.Layout.Progress
import ForeignBinding.Number.Text

/-!
# Placing fields

Fields are placed one at a time. In a struct a field without an offset goes to the next offset
that its alignment allows after the field placed before it; a given offset is taken as it is, even
where it overlaps. All fields of a union are at offset 0. Every number that results must be
smaller than the number of addresses.
-/

namespace ForeignBinding

/-- The number of addresses, which bounds every size and offset. -/
def addressCount : Nat := UInt64.size

/-- The number itself, if it is smaller than the number of addresses. -/
def fitting? (n : Nat) : Option Nat :=
  if n < addressCount then some n else none

/-- The least multiple of `alignment` that is not below `n`, for a positive alignment. -/
def roundUp (n alignment : Nat) : Nat :=
  (n + (alignment - 1)) / alignment * alignment

structure Placement where
  kind : CompositeKind
  /-- What the whole must at least measure. -/
  floor : Nat := 0
  fields : List Field := []
  /-- The end of the field placed last. -/
  cursor : Nat := 0
  /-- The largest end of a field. -/
  extent : Nat := 0
  alignment : Nat := 1

namespace Placement

/-- The number itself, or the overflow of a field. -/
def fitting (field : String) (n : Nat) : Attempt LayoutError Nat :=
  match fitting? n with
  | some n => .ok n
  | none => .fail (.overflow field)

def nextOffset (p : Placement) (name : String) (alignment : Nat) (given : Option Nat) :
    Attempt LayoutError Nat :=
  match p.kind, given with
  | .union, _ => .ok 0
  | .struct, some offset => .ok offset
  | .struct, none => fitting name (roundUp p.cursor alignment)

/-- Puts a field of known size and alignment at its place. -/
def place (p : Placement) (name : String) (kind : FieldKind) (size alignment : Nat)
    (given : Option Nat) : Attempt LayoutError Placement := do
  let alignment := max alignment 1
  let offset ← p.nextOffset name alignment given
  let stop ← (fitting name (offset + size)).noting
    s!"offset=0x{Number.hex offset}, size=0x{Number.hex size}"
  return { p with
    fields := p.fields ++ [⟨name, kind, offset, size, alignment⟩]
    cursor := stop
    extent := max p.extent stop
    alignment := max p.alignment alignment }

/-- The size and alignment of a composite in a field, which must have a layout. -/
def embedded (defs : Definitions) (c : Composite) (field : String) :
    Attempt LayoutError (Nat × Nat) :=
  match defs.layout? c with
  | some l => .ok (l.size, l.alignment)
  | none => (Attempt.fail (.incomplete c.name)).noting s!"While placing field `{field}`"

/-- Size and alignment of a value in a field. -/
def extentOf (defs : Definitions) (d : Descriptor) (field : String) :
    Attempt LayoutError (Nat × Nat) :=
  match d.composite? with
  | some c => embedded defs c field
  | none => .ok (defs.sizeOf d, defs.alignmentOf d)

/-- What a field of this type holds: a composite is embedded. -/
def fieldKind (d : Descriptor) : FieldKind :=
  match d.composite? with
  | some c => .composite c
  | none => .scalar d

def addComposite (defs : Definitions) (p : Placement) (name : String) (c : Composite)
    (offset : Option Nat) : Attempt LayoutError Placement := do
  let (size, alignment) ← embedded defs c name
  p.place name (.composite c) size alignment offset

def addField (defs : Definitions) (p : Placement) (name : String) (d : Descriptor)
    (offset : Option Nat) : Attempt LayoutError Placement := do
  let (size, alignment) ← extentOf defs d name
  p.place name (fieldKind d) size alignment offset

/-- Adds an array of a resolved element type. -/
def addArray (defs : Definitions) (p : Placement) (name : String) (element : Descriptor)
    (count : Nat) (offset : Option Nat) : Attempt LayoutError Placement := do
  let (size, alignment) ← extentOf defs element name
  let total ← fitting name (size * count)
  p.place name (.array element count) total alignment offset

def lastName (p : Placement) : String :=
  (p.fields.getLast?.map (·.name)).getD ""

/-- The layout of the fields placed. Its size is a multiple of its alignment. -/
def build (p : Placement) : Attempt LayoutError Layout := do
  let size ← fitting p.lastName (roundUp (max p.extent p.floor) p.alignment)
  return { kind := p.kind, fields := p.fields, size, alignment := p.alignment }

end Placement

end ForeignBinding
