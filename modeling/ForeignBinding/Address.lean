import ForeignBinding.Number.Text

/-!
# Addresses
-/

namespace ForeignBinding

structure Address where
  val : UInt64
  deriving DecidableEq, Repr, Inhabited

namespace Address

/-- The null address, where nothing is. -/
def null : Address := ⟨0⟩

def isNull (a : Address) : Bool := a.val == 0

/-- The address `n` bytes further on; addresses wrap around. -/
def offset (a : Address) (n : Nat) : Address := ⟨a.val + UInt64.ofNat n⟩

/-- An address as it is shown: sixteen hexadecimal digits. -/
def display (a : Address) : String := "0x" ++ Number.hexPadded 16 a.val.toNat

end Address

end ForeignBinding
