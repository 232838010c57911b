/-!
# Binary floating-point numbers

The binary interchange formats, as patterns of bits. A finite magnitude is a whole number of the
format's units, a unit being the least positive magnitude; so exact arithmetic is that of natural
numbers. Rounding goes to the nearest number, ties to an even last bit.
-/

namespace ForeignBinding.Number

/-- The whole number nearest to `num / den`; halfway between two, the even one. -/
def roundEven (num den : Nat) : Nat :=
  let q := num / den
  let r := num % den
  if 2 * r < den then q
  else if den < 2 * r then q + 1
  else q + q % 2

/-- A binary format: the bits of the significand, the leading one included, and of the exponent. -/
structure BinaryFormat where
  precision : Nat
  exponentWidth : Nat

def binary64 : BinaryFormat := ⟨53, 11⟩

def binary32 : BinaryFormat := ⟨24, 8⟩

/-- The number that a pattern of bits stands for. -/
inductive FloatValue where
  | nan (negative : Bool) (payload : Nat)
  | infinite (negative : Bool)
  /-- The magnitude is `significand * 2 ^ scale` units. -/
  | finite (negative : Bool) (significand scale : Nat)
  deriving DecidableEq, Repr

namespace BinaryFormat

variable (f : BinaryFormat)

def fractionWidth : Nat := f.precision - 1

/-- The unit of magnitudes is two to the power of minus this. -/
def unitExponent : Nat := Nat.pow 2 (f.exponentWidth - 1) + f.precision - 3

/-- The bits of infinity, without sign. -/
def infinity : Nat := (Nat.pow 2 f.exponentWidth - 1) * Nat.pow 2 f.fractionWidth

def signBit : Nat := Nat.pow 2 (f.exponentWidth + f.fractionWidth)

def decode (bits : Nat) : FloatValue :=
  let negative := bits / f.signBit % 2 == 1
  let field := bits / Nat.pow 2 f.fractionWidth % Nat.pow 2 f.exponentWidth
  let fraction := bits % Nat.pow 2 f.fractionWidth
  if field = Nat.pow 2 f.exponentWidth - 1 then
    if fraction = 0 then .infinite negative else .nan negative fraction
  else if field = 0 then .finite negative fraction 0
  else .finite negative (Nat.pow 2 f.fractionWidth + fraction) (field - 1)

def signed (negative : Bool) (bits : Nat) : Nat :=
  if negative then f.signBit + bits else bits

/-- The bits of the number nearest to the magnitude `num / den`, in units. A magnitude that is
too large becomes infinite. -/
def roundUnits (num den : Nat) : Nat :=
  let whole := num / den
  let scale := if whole < Nat.pow 2 f.precision then 0 else Nat.log2 whole + 1 - f.precision
  min (scale * Nat.pow 2 f.fractionWidth + roundEven num (den * Nat.pow 2 scale)) f.infinity

/-- The bits of the number nearest to `num / den`. -/
def ofRatio (negative : Bool) (num den : Nat) : Nat :=
  f.signed negative (f.roundUnits (num * Nat.pow 2 f.unitExponent) den)

/-- The bits of the number nearest to a whole number. -/
def ofInt (n : Int) : Nat :=
  f.ofRatio (n < 0) n.natAbs 1

/-- The bits in format `g` of the number that has the given bits in format `f`. A NaN keeps the
upper part of its payload, and is made quiet. -/
def convert (g : BinaryFormat) (bits : Nat) : Nat :=
  match f.decode bits with
  | .infinite negative => g.signed negative g.infinity
  | .finite negative m s => g.ofRatio negative (m * Nat.pow 2 s) (Nat.pow 2 f.unitExponent)
  | .nan negative payload =>
      let quiet := Nat.pow 2 (g.fractionWidth - 1)
      let kept := payload * Nat.pow 2 g.fractionWidth / Nat.pow 2 f.fractionWidth
      g.signed negative (g.infinity + (kept ||| quiet))

end BinaryFormat

end ForeignBinding.Number
