/-!
# Little-endian words

A whole number as a given count of bytes, the least significant first. Writing keeps the number
modulo `256 ^ width`, and reading undoes that.
-/

namespace ForeignBinding.Bytes

/-- The lowest `width` bytes of a number, the least significant first. -/
def encode : (width n : Nat) → List UInt8
  | 0, _ => []
  | width + 1, n => UInt8.ofNat n :: encode width (n / 256)

def decode : List UInt8 → Nat
  | [] => 0
  | b :: bs => b.toNat + 256 * decode bs

@[simp]
theorem length_encode (width n : Nat) : (encode width n).length = width := by
  induction width generalizing n with
  | zero => rfl
  | succ w ih => simp [encode, ih]

theorem decode_encode (width n : Nat) : decode (encode width n) = n % Nat.pow 256 width := by
  induction width generalizing n with
  | zero => exact (Nat.mod_one n).symm
  | succ w ih =>
      have hp : Nat.pow 256 (w + 1) = 256 * Nat.pow 256 w := Nat.mul_comm _ _
      have h : n % Nat.pow 256 (w + 1) = n % 256 + 256 * (n / 256 % Nat.pow 256 w) := by
        rw [hp, Nat.mod_mul]
      simp only [encode, decode, ih, h, UInt8.toNat_ofNat']

end ForeignBinding.Bytes
