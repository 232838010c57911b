import ForeignBinding.Type.Ref

/-!
# Field specifications

The fields of a struct or union as they are declared: in order, each with an offset or without,
or keyed by name and then without offsets.
-/

namespace ForeignBinding

inductive FieldType where
  | single (type : TypeRef)
  | array (element : TypeRef) (count : Nat)
  deriving DecidableEq, Repr

/-- The type of the field, or of its elements. -/
def FieldType.ref : FieldType → TypeRef
  | single t | array t _ => t

/-- A declared field, at a given offset or wherever it falls. -/
structure FieldSpec where
  name : String
  type : FieldType
  offset : Option Nat
  deriving DecidableEq, Repr

inductive LayoutSpec where
  | ordered (fields : List FieldSpec)
  | keyed (fields : List (String × FieldType))
  deriving DecidableEq, Repr

namespace LayoutSpec

/-- The fields in declaration order. -/
def fields : LayoutSpec → List FieldSpec
  | ordered fs => fs
  | keyed fs => fs.map fun f => ⟨f.1, f.2, none⟩

def size : LayoutSpec → Nat
  | ordered fs => fs.length
  | keyed fs => fs.length

/-- The specification with one more field. A keyed one stays keyed unless the field has an offset,
and then becomes an ordered one. -/
def push (s : LayoutSpec) (name : String) (type : FieldType) (offset : Option Nat) : LayoutSpec :=
  match s, offset with
  | ordered fs, _ => ordered (fs ++ [⟨name, type, offset⟩])
  | keyed fs, none => keyed (fs ++ [(name, type)])
  | keyed fs, some _ => ordered ((keyed fs).fields ++ [⟨name, type, offset⟩])

/-- Adds a field that goes wherever it falls. -/
def field (s : LayoutSpec) (name : String) (type : FieldType) : LayoutSpec :=
  s.push name type none

def fieldAt (s : LayoutSpec) (name : String) (type : FieldType) (offset : Nat) : LayoutSpec :=
  s.push name type (some offset)

def array (s : LayoutSpec) (name : String) (element : TypeRef) (count : Nat) : LayoutSpec :=
  s.push name (.array element count) none

@[simp]
theorem fields_push (s : LayoutSpec) (name : String) (type : FieldType) (offset : Option Nat) :
    (s.push name type offset).fields = s.fields ++ [⟨name, type, offset⟩] := by
  cases s <;> cases offset <;> simp [push, fields]

theorem length_fields (s : LayoutSpec) : s.fields.length = s.size := by
  cases s <;> simp [fields, size]

end LayoutSpec

end ForeignBinding
