/-!
# Whole numbers as text
-/

namespace ForeignBinding.Number

/-- The lower-case hexadecimal digits of a number, without leading zeros. -/
def hex (n : Nat) : String :=
  String.ofList (Nat.toDigits 16 n)

/-- Puts `fill` in front of a text until it has the given length. -/
def padLeft (width : Nat) (fill : Char) (s : String) : String :=
  String.ofList (List.replicate (width - s.length) fill) ++ s

/-- Lower-case hexadecimal digits, at least `width` of them. -/
def hexPadded (width n : Nat) : String :=
  padLeft width '0' (hex n)

end ForeignBinding.Number
