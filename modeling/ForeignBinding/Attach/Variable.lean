import ForeignBinding.Layout.Define
import ForeignBinding.Library.Search
import ForeignBinding.Memory.Access

/-!
# Attaching variables

A variable's symbol is looked up in every library in order. A variable of a composite's name is a
view of that composite; any other is the single field of a struct around it.
-/

namespace ForeignBinding

structure VariableDecl where
  name : String
  /-- The symbol, where it is not the name. -/
  native : Option String
  type : TypeRef
  deriving DecidableEq, Repr

def VariableDecl.symbol (d : VariableDecl) : String :=
  d.native.getD d.name

inductive VariableAccess where
  /-- The variable is a composite, which is read as a view and written field by field. -/
  | view (v : View)
  /-- The variable is the single field of this layout. -/
  | wrapped (layout : Layout)

structure VariableBinding where
  name : String
  symbol : String
  address : Address
  type : Descriptor
  library : Library
  access : VariableAccess

namespace VariableBinding

/-- The name of the single field around a variable. -/
def fieldName : String := "gvar"

/-- Whether the variable can be written as a whole. -/
def isWritable (b : VariableBinding) : Bool :=
  match b.access with
  | .view _ => false
  | .wrapped _ => true

def get (b : VariableBinding) (defs : Definitions) (m : Memory) : Attempt MemoryError Value :=
  match b.access with
  | .view v => .ok (.view v)
  | .wrapped layout => layout.get defs m b.address fieldName

def set (b : VariableBinding) (defs : Definitions) (m : Memory) (x : Value) :
    Attempt MemoryError Unit × Memory :=
  match b.access with
  | .view _ =>
      ((Attempt.fail (.unsupported b.type.display)).noting
        s!"`{b.name}` is a struct, set its fields instead", m)
  | .wrapped layout => layout.set defs m b.address fieldName x

end VariableBinding

/-- The composite that a variable is a view of, if its type is one. -/
def VariableDecl.composite? (d : VariableDecl) (r : Resolver) : Option Composite :=
  match d.type with
  | .composite c => some c
  | .named name => r.findComposite? name
  | _ => none

/-- The layout of a struct around a single value of a resolved type. -/
def VariableDecl.wrap (d : VariableDecl) (defs : Definitions) (r : Resolver) (type : Descriptor) :
    Attempt AttachError Layout :=
  let spec : LayoutSpec :=
    .ordered [⟨VariableBinding.fieldName, .single (.resolved type), none⟩]
  ((Layout.compute defs r .struct 0 spec).noting s!"While defining struct `{d.name}`").under
    (AttachError.ofVariable d.name)

/-- The type of a variable, and how it is accessed at an address. -/
def VariableDecl.access (d : VariableDecl) (defs : Definitions) (r : Resolver) (a : Address) :
    Attempt AttachError (Descriptor × VariableAccess) :=
  match d.composite? r with
  | some c => do
      let v ← (View.at? defs c a).under (AttachError.ofVariable d.name)
      return (.composite c, .view v)
  | none => do
      let type ← (r.resolve d.type).under (AttachError.ofType d.name)
      let layout ← d.wrap defs r type
      return (type, .wrapped layout)

def attachVariable (d : VariableDecl) (defs : Definitions) (r : Resolver)
    (libraries : LibrarySet) : Attempt AttachError VariableBinding :=
  match libraries.find? d.symbol with
  | none => .fail (.notFound d.symbol libraries.names)
  | some (library, address) => do
      let (type, access) ← d.access defs r address
      return { name := d.name, symbol := d.symbol, address, type, library, access }

end ForeignBinding
