import ForeignBinding.Layout.Placement
import ForeignBinding.Layout.Spec
import ForeignBinding.Resolver

/-!
# Defining composites

A layout is computed from a specification in a resolver's view, and committed if the composite has
none yet. A least size may be set once, and only before that. Whatever fails leaves the
definitions as they were.
-/

namespace ForeignBinding

namespace Placement

/-- Resolves and places one declared field. -/
def addSpec (defs : Definitions) (r : Resolver) (p : Placement) (f : FieldSpec) :
    Attempt LayoutError Placement := do
  let d ← (r.resolveInline f.type.ref).under (LayoutError.fieldType f.name)
  match f.type with
  | .single _ => p.addField defs f.name d f.offset
  | .array _ count => p.addArray defs f.name d count f.offset

/-- Places the declared fields one after the other. A name that was placed before is refused
before its type is looked at. -/
def addSpecs (defs : Definitions) (r : Resolver) (p : Placement) :
    List FieldSpec → Attempt LayoutError Placement
  | [] => .ok p
  | f :: rest =>
      if p.fields.any (fun g => g.name == f.name) then .fail (.duplicateField f.name)
      else do addSpecs defs r (← p.addSpec defs r f) rest

end Placement

namespace Layout

/-- The layout that a specification describes, of at least `floor` bytes. -/
def compute (defs : Definitions) (r : Resolver) (kind : CompositeKind) (floor : Nat)
    (spec : LayoutSpec) : Attempt LayoutError Layout := do
  let placed ← Placement.addSpecs defs r { kind, floor } spec.fields
  placed.build

end Layout

namespace Progress

/-- The first step of a definition: the least size in force, unless there is a layout already. -/
def beginDefine (p : Progress) (c : Composite) : Attempt LayoutError Nat :=
  match p with
  | computed _ => .fail (.alreadyComputed c.name)
  | p => .ok p.floor

/-- The last step of a definition: the layout computed with least size `floor` is kept, unless
there is a layout by now, or a larger least size. -/
def commit (p : Progress) (c : Composite) (floor : Nat) (l : Layout) :
    Attempt LayoutError Progress :=
  match p with
  | computed _ => .fail (.alreadyComputed c.name)
  | floored n =>
      if floor < n then
        (Attempt.fail .sizeAlreadySet).noting
          "Size floor changed while the layout was being computed"
      else .ok (computed l)
  | declared => .ok (computed l)

/-- Sets the least size, which is possible once and only before there is a layout. -/
def setSize (p : Progress) (c : Composite) (size : Nat) : Attempt LayoutError Progress :=
  match p with
  | declared => .ok (floored size)
  | _ => (Attempt.fail .sizeAlreadySet).noting c.cite

end Progress

namespace Definitions

/-- Computes the layout of a composite and keeps it. -/
def define (defs : Definitions) (r : Resolver) (c : Composite) (spec : LayoutSpec) :
    Attempt LayoutError (Layout × Definitions) := do
  let floor ← (defs.progress c).beginDefine c
  let layout ← (Layout.compute defs r c.kind floor spec).noting s!"While defining {c.cite}"
  let progress ← (defs.progress c).commit c floor layout
  return (layout, defs.set c progress)

/-- Sets the least size of a composite. -/
def setSize (defs : Definitions) (c : Composite) (size : Nat) :
    Attempt LayoutError Definitions := do
  let progress ← (defs.progress c).setSize c size
  return defs.set c progress

end Definitions

end ForeignBinding
