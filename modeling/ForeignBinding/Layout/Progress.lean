import ForeignBinding.Layout.Basic

/-!
# What is known of each composite

A composite starts as a mere declaration, may be given a least size, and may get a layout, which
it then keeps. Before it has one its size is the least size given, or 0, and its alignment 1.
-/

namespace ForeignBinding

/-- How far the definition of a composite has come. -/
inductive Progress where
  | declared
  /-- A least size is set. -/
  | floored (size : Nat)
  | computed (layout : Layout)
  deriving DecidableEq, Repr, Inhabited

namespace Progress

/-- The layout, once it is computed. -/
def layout? : Progress → Option Layout
  | computed l => some l
  | _ => none

/-- The least size that a layout computed now must have. -/
def floor : Progress → Nat
  | floored n => n
  | _ => 0

/-- The size of the layout, else the least size. -/
def size : Progress → Nat
  | computed l => l.size
  | p => p.floor

/-- The alignment of the layout, else 1. -/
def alignment : Progress → Nat
  | computed l => l.alignment
  | _ => 1

/-- The names of the fields of the layout, else none. -/
def members (p : Progress) : List String :=
  (p.layout?.map Layout.members).getD []

/-- The names of the fields of the layout with their offsets, else none. -/
def offsets (p : Progress) : List (String × Nat) :=
  (p.layout?.map Layout.offsets).getD []

def offsetOf? (p : Progress) (name : String) : Option Nat :=
  p.layout?.bind (·.offsetOf? name)

end Progress

/-- The progress of all composites, of which the first `count` have been declared. -/
structure Definitions where
  count : Nat
  progress : Composite → Progress

namespace Definitions

def empty : Definitions := ⟨0, fun _ => .declared⟩

instance : Inhabited Definitions := ⟨empty⟩

/-- A composite that is none of those declared before. -/
def declare (defs : Definitions) (kind : CompositeKind) (name : String) :
    Composite × Definitions :=
  (⟨defs.count, kind, name⟩, { defs with count := defs.count + 1 })

/-- The definitions after composite `c` has come as far as `p`. -/
def set (defs : Definitions) (c : Composite) (p : Progress) : Definitions :=
  { defs with progress := fun d => if d = c then p else defs.progress d }

@[simp]
theorem progress_set (defs : Definitions) (c d : Composite) (p : Progress) :
    (defs.set c p).progress d = if d = c then p else defs.progress d := rfl

/-- The layout of a composite, once it is computed. -/
def layout? (defs : Definitions) (c : Composite) : Option Layout :=
  (defs.progress c).layout?

def sizeOf (defs : Definitions) : Descriptor → Nat
  | .prim p => p.size
  | .composite c | .byValue c => (defs.progress c).size
  | .callback .. => Prim.pointer.size

def alignmentOf (defs : Definitions) : Descriptor → Nat
  | .prim p => p.alignment
  | .composite c | .byValue c => (defs.progress c).alignment
  | .callback .. => Prim.pointer.alignment

end Definitions

end ForeignBinding
