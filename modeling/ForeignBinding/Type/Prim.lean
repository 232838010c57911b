/-!
# Primitive native types

The primitive types of the host's binary interface (64-bit, little-endian), with their sizes and
natural alignments in bytes. Every alignment is a positive power of two that divides the size.
-/

namespace ForeignBinding

inductive Prim where
  | void
  | bool
  | int8
  | uint8
  | int16
  | uint16
  | int32
  | uint32
  | int64
  | uint64
  /-- C `long`, as wide as an address here. -/
  | long
  | ulong
  | float32
  | float64
  | longDouble
  /-- An untyped address. -/
  | pointer
  /-- The address of a text that ends in a zero byte. -/
  | string
  /-- The address of bytes that native code reads only. -/
  | bufferIn
  /-- The address of bytes that native code writes only. -/
  | bufferOut
  | bufferInOut
  /-- The mark of a variadic function's further arguments. -/
  | varargs
  deriving DecidableEq, Repr, Inhabited

namespace Prim

/-- Size in bytes; `void` and `varargs` have no storage. -/
def size : Prim → Nat
  | void | varargs => 0
  | bool | int8 | uint8 => 1
  | int16 | uint16 => 2
  | int32 | uint32 | float32 => 4
  | int64 | uint64 | long | ulong | float64 => 8
  | longDouble => 16
  | pointer | string | bufferIn | bufferOut | bufferInOut => 8

/-- Natural alignment in bytes: the size, or 1 where there is no storage. -/
def alignment : Prim → Nat
  | void | varargs => 1
  | p => p.size

def isInteger : Prim → Bool
  | int8 | uint8 | int16 | uint16 | int32 | uint32 | int64 | uint64 | long | ulong => true
  | _ => false

/-- Whether the type holds whole numbers of either sign. -/
def isSigned : Prim → Bool
  | int8 | int16 | int32 | int64 | long => true
  | _ => false

/-- Whether the type is passed as an address. -/
def isPointer : Prim → Bool
  | pointer | string | bufferIn | bufferOut | bufferInOut => true
  | _ => false

/-- The name under which a type is shown. -/
def display : Prim → String
  | void => "void"
  | bool => "bool"
  | int8 => "int8"
  | uint8 => "uint8"
  | int16 => "int16"
  | uint16 => "uint16"
  | int32 => "int32"
  | uint32 => "uint32"
  | int64 => "int64"
  | uint64 => "uint64"
  | long => "long"
  | ulong => "ulong"
  | float32 => "float32"
  | float64 => "float64"
  | longDouble => "long_double"
  | pointer => "pointer"
  | string => "string"
  | bufferIn => "buffer_in"
  | bufferOut => "buffer_out"
  | bufferInOut => "buffer_inout"
  | varargs => "varargs"

theorem alignment_pos (p : Prim) : 0 < p.alignment := by
  cases p <;> decide

theorem alignment_dvd_size (p : Prim) : p.alignment ∣ p.size := by
  cases p <;> decide

end Prim

end ForeignBinding
