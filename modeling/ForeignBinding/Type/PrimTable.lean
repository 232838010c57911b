import ForeignBinding.NameMap
import ForeignBinding.Type.Prim

/-!
# The base table

The names that stand for primitive types where no declaration says otherwise. A table may be
extended, and a name added again gets the later type.
-/

namespace ForeignBinding

abbrev PrimTable := NameMap Prim

namespace PrimTable

/-- The names of the host's binary interface. Sizes and addresses are 64 bits wide. -/
def standard : PrimTable := NameMap.ofList
  [ ("void", .void), ("bool", .bool),
    ("char", .int8), ("int8", .int8), ("uchar", .uint8), ("uint8", .uint8),
    ("short", .int16), ("int16", .int16), ("ushort", .uint16), ("uint16", .uint16),
    ("int", .int32), ("int32", .int32), ("uint", .uint32), ("uint32", .uint32),
    ("long_long", .int64), ("int64", .int64), ("ulong_long", .uint64), ("uint64", .uint64),
    ("long", .long), ("ulong", .ulong),
    ("float", .float32), ("float32", .float32), ("double", .float64), ("float64", .float64),
    ("long_double", .longDouble), ("pointer", .pointer), ("string", .string),
    ("size_t", .uint64), ("ssize_t", .int64), ("intptr_t", .int64), ("uintptr_t", .uint64),
    ("buffer_in", .bufferIn), ("buffer_out", .bufferOut), ("buffer_inout", .bufferInOut),
    ("varargs", .varargs) ]

/-- The table with one more name, or another type under a name it has. -/
def withType (t : PrimTable) (name : String) (p : Prim) : PrimTable :=
  t.insert name p

end PrimTable

end ForeignBinding
