import ForeignBinding.Number.Binary

/-!
# Decimal text of binary numbers

Printing takes the fewest decimal digits that read back as the same number, and of those the
nearest; a style says how they are laid out. Reading rounds the exact decimal value once.
-/

namespace ForeignBinding.Number

/-- The decimal number `0.d₁d₂… * 10 ^ position`, without trailing zeros. -/
structure Decimal where
  digits : List Char
  position : Int
  deriving DecidableEq, Repr

/-- Which of two equally near decimals is taken. -/
inductive Tie where
  | even
  | up
  deriving DecidableEq, Repr

/-- The choice between `d` and `d + 1` for a value that is `num / den`, where `d` is the whole part
and either may be excluded. -/
def nearer (tie : Tie) (num den d : Nat) (low high : Bool) : Option Nat :=
  match low, high with
  | false, false => none
  | true, false => some d
  | false, true => some (d + 1)
  | true, true =>
      let below := num - d * den
      let above := (d + 1) * den - num
      if below < above then some d
      else if above < below then some (d + 1)
      else match tie with
        | .even => some (d + d % 2)
        | .up => some (d + 1)

namespace Decimal

/-- The decimal `d * 10 ^ exponent`. -/
def ofNat (d : Nat) (exponent : Int) : Decimal :=
  let digits := Nat.toDigits 10 d
  { digits := (digits.reverse.dropWhile (· == '0')).reverse
    position := exponent + digits.length }

/-- The place of the first digit of `num / den`: the least power of ten above the value. -/
def leadingPlace (num den : Nat) : Int :=
  if den ≤ num then (Nat.toDigits 10 (num / den)).length
  else 1 - ((Nat.toDigits 10 ((den - 1) / num)).length : Int)

/-- The shortest decimal, if one with `digits` digits or up to `more` further ones reads back as
`value / den`: it has to lie between `low / den` and `high / den`, ends included if `closed`. -/
def shortestFrom (tie : Tie) (value low high den : Nat) (closed : Bool) (place : Int)
    (digits : Nat) : (more : Nat) → Decimal
  | 0 => ⟨[], 0⟩
  | more + 1 =>
      let exponent := place - digits
      let up := Nat.pow 10 (-exponent).toNat
      let den' := den * Nat.pow 10 exponent.toNat
      let inside (d : Nat) : Bool :=
        if closed then low * up ≤ d * den' && d * den' ≤ high * up
        else low * up < d * den' && d * den' < high * up
      let d := value * up / den'
      match nearer tie (value * up) den' d (inside d) (inside (d + 1)) with
      | some d => ofNat d exponent
      | none => shortestFrom tie value low high den closed place (digits + 1) more

/-- The shortest decimal that reads back as the positive number of `m * 2 ^ s` units. Below a power
of two the neighbouring numbers lie half as far apart. -/
def shortest (f : BinaryFormat) (tie : Tie) (m s : Nat) : Decimal :=
  let gap := Nat.pow 2 s
  let den := 4 * Nat.pow 2 f.unitExponent
  let value := 4 * m * gap
  let low := value - (if m = Nat.pow 2 f.fractionWidth ∧ 0 < s then 1 else 2) * gap
  let high := value + 2 * gap
  shortestFrom tie value low high den (m % 2 == 0) (leadingPlace value den) 1 (f.precision + 1)

end Decimal

structure FloatStyle where
  tie : Tie
  /-- The positions that are written without an exponent. -/
  positional : Int → Bool
  /-- Whether a whole number gets `.0`. -/
  pointed : Bool
  nan : String
  infinity : String

namespace FloatStyle

/-- The digits with the point at its place. -/
def plain (pointed : Bool) (d : Decimal) : String :=
  let n := d.digits.length
  if d.position ≤ 0 then
    "0." ++ String.ofList (List.replicate (-d.position).toNat '0' ++ d.digits)
  else if n ≤ d.position.toNat then
    String.ofList (d.digits ++ List.replicate (d.position.toNat - n) '0') ++
      (if pointed then ".0" else "")
  else
    String.ofList (d.digits.take d.position.toNat) ++ "." ++
      String.ofList (d.digits.drop d.position.toNat)

/-- One digit, the point if more follow, and the power of ten. -/
def scientific (d : Decimal) : String :=
  String.ofList (d.digits.take 1) ++
    (if d.digits.length ≤ 1 then "" else "." ++ String.ofList (d.digits.drop 1)) ++
    "e" ++ toString (d.position - 1)

/-- The text of a number of the 64-bit format. -/
def print (style : FloatStyle) (bits : UInt64) : String :=
  match binary64.decode bits.toNat with
  | .nan _ _ => style.nan
  | .infinite negative => (if negative then "-" else "") ++ style.infinity
  | .finite negative m s =>
      (if negative then "-" else "") ++
        if m = 0 then (if style.pointed then "0.0" else "0")
        else
          let d := Decimal.shortest binary64 style.tie m s
          if style.positional d.position then plain style.pointed d else scientific d

end FloatStyle

def ofDigits (base : Nat) (digit : Char → Nat) (cs : List Char) : Nat :=
  cs.foldl (fun n c => base * n + digit c) 0

/-- The value of a hexadecimal digit of either case. -/
def digitValue (c : Char) : Nat :=
  if c.isDigit then c.toNat - '0'.toNat
  else if c.isLower then c.toNat - 'a'.toNat + 10
  else c.toNat - 'A'.toNat + 10

def decimalValue (cs : List Char) : Nat :=
  ofDigits 10 digitValue cs

/-- Splits an exponent mark and the whole number after it. -/
def readExponent : List Char → Option Int
  | [] => some 0
  | c :: rest =>
      if c = 'e' ∨ c = 'E' then
        let (negative, digits) := match rest with
          | '-' :: ds => (true, ds)
          | '+' :: ds => (false, ds)
          | ds => (false, ds)
        if digits.isEmpty || !digits.all Char.isDigit then none
        else
          let n : Int := decimalValue digits
          some (if negative then -n else n)
      else none

/-- The 64-bit number nearest to `digits * 10 ^ exponent`. Exponents beyond the format's range give
zero or infinity without being computed. -/
def ofScientific (negative : Bool) (digits : Nat) (exponent : Int) : Nat :=
  let place := exponent + (Nat.toDigits 10 digits).length
  if digits = 0 ∨ place < -330 then binary64.signed negative 0
  else if 400 < place then binary64.signed negative binary64.infinity
  else binary64.ofRatio negative (digits * Nat.pow 10 exponent.toNat)
    (Nat.pow 10 (-exponent).toNat)

/-- Reads decimal text: an optional sign, digits with an optional point among them, at least one
digit, and an optional exponent. -/
def readDecimal? (text : List Char) : Option Nat :=
  let (negative, body) := match text with
    | '-' :: cs => (true, cs)
    | '+' :: cs => (false, cs)
    | cs => (false, cs)
  let whole := body.takeWhile Char.isDigit
  let afterWhole := body.dropWhile Char.isDigit
  let (fraction, rest) := match afterWhole with
    | '.' :: cs => (cs.takeWhile Char.isDigit, cs.dropWhile Char.isDigit)
    | cs => ([], cs)
  if whole.isEmpty && fraction.isEmpty then none
  else (readExponent rest).map fun e =>
    ofScientific negative (decimalValue (whole ++ fraction)) (e - fraction.length)

end ForeignBinding.Number
