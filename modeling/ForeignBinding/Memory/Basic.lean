import ForeignBinding.Address

/-!
# Native memory

Memory gives every address a byte. A write changes the bytes of its range and no other.
-/

namespace ForeignBinding

abbrev Memory := Address → UInt8

namespace Memory

/-- The distance from `a` forward to `b`; addresses wrap around. -/
def distance (a b : Address) : Nat := (b.val - a.val).toNat

def zeroed : Memory := fun _ => 0

/-- The `n` bytes from an address on. -/
def read (m : Memory) (a : Address) (n : Nat) : List UInt8 :=
  (List.range n).map fun i => m (a.offset i)

/-- The memory after bytes are stored from an address on. -/
def write (m : Memory) (a : Address) (bytes : List UInt8) : Memory :=
  fun b => (bytes[distance a b]?).getD (m b)

@[simp]
theorem length_read (m : Memory) (a : Address) (n : Nat) : (m.read a n).length = n := by
  simp [read]

theorem write_of_le_distance {m : Memory} {a b : Address} {bytes : List UInt8}
    (h : bytes.length ≤ distance a b) : m.write a bytes b = m b := by
  simp [write, List.getElem?_eq_none h]

end Memory

end ForeignBinding
