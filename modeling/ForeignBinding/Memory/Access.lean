import ForeignBinding.Failure
import ForeignBinding.Layout.Progress
import ForeignBinding.Memory.Basic
import ForeignBinding.Memory.Bytes
import ForeignBinding.Memory.Value

/-!
# Typed access to memory

Reading and writing values of resolved types. Integers are stored in the width of their type,
booleans in one byte, addresses and callbacks in eight. Composites are read as views and written
by copying. A write gives back the memory also where it fails, because the elements of an array
are written one by one.
-/

namespace ForeignBinding

/-- The signed word of an unsigned number of `width` bytes in two's complement. -/
def signExtend (width n : Nat) : Int64 :=
  Int64.ofInt (Int.bmod n (Nat.pow 256 width))

namespace Prim

/-- The value of a stored primitive, given its bytes; `none` where it has no values. -/
def decode? (p : Prim) (bytes : List UInt8) : Option Value :=
  let n := Bytes.decode bytes
  match p with
  | bool => some (.bool (n != 0))
  | int8 | int16 | int32 | int64 | long => some (.int (signExtend p.size n))
  | uint8 | uint16 | uint32 | uint64 | ulong => some (.uint (UInt64.ofNat n))
  | float32 => some (.float (UInt64.ofNat (Number.binary32.convert Number.binary64 n)))
  | float64 => some (.float (UInt64.ofNat n))
  | pointer | string | bufferIn | bufferOut | bufferInOut => some (.pointer ⟨UInt64.ofNat n⟩)
  | void | varargs | longDouble => none

/-- The whole number that is stored for a value, of which the type's width is kept. -/
def word? (p : Prim) (v : Value) : Option Nat :=
  if p.isInteger || p == bool then v.toInt64?.map (·.toUInt64.toNat)
  else if p.isPointer then
    match v with
    | .pointer a => some a.val.toNat
    | _ => none
  else
    match p, v with
    | float32, .float bits => some (Number.binary64.convert Number.binary32 bits.toNat)
    | float64, .float bits => some bits.toNat
    | float32, .int n => some (Number.binary32.ofInt n.toInt)
    | float64, .int n => some (Number.binary64.ofInt n.toInt)
    | _, _ => none

/-- Whether values of the type can be in memory. -/
def isStored : Prim → Bool
  | void | varargs | longDouble => false
  | _ => true

end Prim

def Value.mismatch {α : Type} (v : Value) (shownType : String) : Attempt MemoryError α :=
  .fail (.mismatch v.kind shownType)

namespace Descriptor

/-- What a type is in memory: a primitive, as which a callback is an address, or a composite. -/
def stored : Descriptor → Prim ⊕ Composite
  | prim p => .inl p
  | composite c | byValue c => .inr c
  | callback .. => .inl .pointer

end Descriptor

namespace View

/-- The view of a composite at an address, which needs a layout. -/
def at? (defs : Definitions) (c : Composite) (a : Address) : Attempt MemoryError View :=
  match defs.layout? c with
  | some layout => .ok ⟨c, layout, a⟩
  | none => .fail (.incomplete c.name)

end View

namespace Memory

def readValue (m : Memory) (defs : Definitions) (d : Descriptor) (a : Address) :
    Attempt MemoryError Value :=
  match d.stored with
  | .inr c => (View.at? defs c a).map .view
  | .inl p =>
      match p.decode? (m.read a p.size) with
      | some v => .ok v
      | none => .fail (.unsupported p.display)

/-- Reads `count` elements from the `i`-th on, until one cannot be read. -/
def readElements (m : Memory) (defs : Definitions) (d : Descriptor) (a : Address) (i : Nat) :
    (count : Nat) → Attempt MemoryError (List Value)
  | 0 => .ok []
  | count + 1 => do
      let v ← m.readValue defs d (a.offset (i * defs.sizeOf d))
      let vs ← m.readElements defs d a (i + 1) count
      return v :: vs

def readField (m : Memory) (defs : Definitions) (k : FieldKind) (a : Address) :
    Attempt MemoryError Value :=
  match k with
  | .scalar d => m.readValue defs d a
  | .composite c => (View.at? defs c a).map .view
  | .array d count => (m.readElements defs d a 0 count).map .array

/-- The bytes that a value of a type becomes; a composite's are copied from the memory. -/
def bytesOf (m : Memory) (d : Descriptor) (v : Value) : Attempt MemoryError (List UInt8) :=
  match d.stored with
  | .inr c =>
      match v with
      | .view s =>
          if s.composite = c then .ok (m.read s.address s.layout.size)
          else v.mismatch c.display
      | _ => v.mismatch c.display
  | .inl p =>
      match p.word? v with
      | some n => .ok (Bytes.encode p.size n)
      | none => if p.isStored then v.mismatch p.display else .fail (.unsupported p.display)

def writeValue (m : Memory) (d : Descriptor) (a : Address) (v : Value) :
    Attempt MemoryError Memory :=
  (m.bytesOf d v).map (m.write a)

/-- Writes elements one after the other, `stride` bytes apart, until one cannot be stored. -/
def writeElements (m : Memory) (d : Descriptor) (stride : Nat) (a : Address) (i : Nat) :
    List Value → Attempt MemoryError Unit × Memory
  | [] => (.ok (), m)
  | v :: vs =>
      match m.writeValue d (a.offset (i * stride)) v with
      | .ok m' => m'.writeElements d stride a (i + 1) vs
      | .error e => (.error e, m)

/-- A write of one value, which changes the memory if it succeeds. -/
def commit (m : Memory) : Attempt MemoryError Memory → Attempt MemoryError Unit × Memory
  | .ok m' => (.ok (), m')
  | .error e => (.error e, m)

/-- Writes what a field is to hold. An array may be given fewer elements than it has, and keeps
the others. -/
def writeField (m : Memory) (defs : Definitions) (k : FieldKind) (a : Address) (v : Value) :
    Attempt MemoryError Unit × Memory :=
  match k with
  | .scalar d => m.commit (m.writeValue d a v)
  | .composite c => m.commit (m.writeValue (.composite c) a v)
  | .array d count =>
      match v with
      | .array vs =>
          if vs.length ≤ count then m.writeElements d (defs.sizeOf d) a 0 vs
          else (v.mismatch k.display, m)
      | _ => (v.mismatch k.display, m)

end Memory

namespace Layout

/-- The field of a name, which must be one of the layout's. -/
def field (l : Layout) (name : String) : Attempt MemoryError Field :=
  match l.field? name with
  | some f => .ok f
  | none => .fail (.unknownField name)

/-- Reads a field of what lies at an address with this layout. -/
def get (l : Layout) (defs : Definitions) (m : Memory) (a : Address) (name : String) :
    Attempt MemoryError Value := do
  let f ← l.field name
  (m.readField defs f.kind (a.offset f.offset)).noting s!"While reading field `{name}`"

/-- Writes a field of what lies at an address with this layout. -/
def set (l : Layout) (defs : Definitions) (m : Memory) (a : Address) (name : String)
    (x : Value) : Attempt MemoryError Unit × Memory :=
  match l.field name with
  | .error e => (.error e, m)
  | .ok f =>
      let (result, m') := m.writeField defs f.kind (a.offset f.offset) x
      (result.noting s!"While writing field `{name}`", m')

end Layout

namespace View

def get (v : View) (defs : Definitions) (m : Memory) (name : String) :
    Attempt MemoryError Value :=
  v.layout.get defs m v.address name

def set (v : View) (defs : Definitions) (m : Memory) (name : String) (x : Value) :
    Attempt MemoryError Unit × Memory :=
  v.layout.set defs m v.address name x

/-- Reads all fields in order. -/
def values (v : View) (defs : Definitions) (m : Memory) :
    Attempt MemoryError (List (String × Value)) :=
  v.layout.fields.mapM fun f => do
    let x ← v.get defs m f.name
    return (f.name, x)

end View

end ForeignBinding
