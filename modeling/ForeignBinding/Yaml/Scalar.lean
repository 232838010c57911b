import ForeignBinding.Number.Decimal

/-!
# The meaning of plain scalars

A plain scalar is nothing, a truth value, a number or a text, by its spelling alone. Whole numbers
may be signed and may be written in base 16, 8 or 2; digits after a leading zero are a text.
-/

namespace ForeignBinding.Yaml

inductive Scalar where
  | null
  | bool (b : Bool)
  | int (n : Int)
  /-- The bits of a 64-bit number. -/
  | float (bits : UInt64)
  | string (s : String)
  deriving DecidableEq, Repr

namespace Scalar

def isNull (s : String) : Bool :=
  s == "null" || s == "Null" || s == "NULL" || s == "~"

def bool? (s : String) : Option Bool :=
  if s == "true" || s == "True" || s == "TRUE" then some true
  else if s == "false" || s == "False" || s == "FALSE" then some false
  else none

/-- Whether a character is a digit in a base up to 16. -/
def isDigitOf (base : Nat) (c : Char) : Bool :=
  (c.isDigit || ('a' ≤ c && c ≤ 'f') || ('A' ≤ c && c ≤ 'F')) && Number.digitValue c < base

def natOf? (base : Nat) (cs : List Char) : Option Nat :=
  if cs.isEmpty || !cs.all (isDigitOf base) then none
  else some (Number.ofDigits base Number.digitValue cs)

/-- A number without a sign: in the base that its start tells, or decimal. -/
def magnitude? : List Char → Option Nat
  | '0' :: 'x' :: cs => natOf? 16 cs
  | '0' :: 'o' :: cs => natOf? 8 cs
  | '0' :: 'b' :: cs => natOf? 2 cs
  | cs => natOf? 10 cs

/-- The text without a leading sign. -/
def unsigned : List Char → List Char
  | '-' :: cs | '+' :: cs => cs
  | cs => cs

/-- Whether there are only digits, more than one, and the first is zero. -/
def isZeroLed (cs : List Char) : Bool :=
  match unsigned cs with
  | '0' :: c :: rest => (c :: rest).all Char.isDigit
  | _ => false

/-- Whether a whole number fits into 128 bits, without a sign or with one. A wider one is not read
as a whole number. -/
def isWord (n : Int) : Bool := -(Nat.pow 2 127 : Nat) ≤ n && n < (Nat.pow 2 128 : Nat)

def int? (cs : List Char) : Option Int :=
  if isZeroLed cs then none
  else
    let n := match cs with
      | '-' :: rest => (magnitude? rest).map fun n => -(n : Int)
      | '+' :: rest => (magnitude? rest).map Int.ofNat
      | rest => (magnitude? rest).map Int.ofNat
    n.filter isWord

def finite? (cs : List Char) : Option UInt64 :=
  match Number.readDecimal? cs with
  | some bits =>
      match Number.binary64.decode bits with
      | .finite .. => some (UInt64.ofNat bits)
      | _ => none
  | none => none

def float? (s : String) : Option UInt64 :=
  let infinity := UInt64.ofNat Number.binary64.infinity
  if [".inf", ".Inf", ".INF", "+.inf", "+.Inf", "+.INF"].contains s then some infinity
  else if ["-.inf", "-.Inf", "-.INF"].contains s then
    some (UInt64.ofNat (Number.binary64.signed true Number.binary64.infinity))
  else if [".nan", ".NaN", ".NAN"].contains s then
    some (UInt64.ofNat (Number.binary64.infinity + Nat.pow 2 51))
  else
    match s.toList with
    | '+' :: '+' :: _ | '+' :: '-' :: _ => none
    | cs => finite? cs

def ofPlain (s : String) : Scalar :=
  if s.isEmpty || isNull s then .null
  else
    match bool? s with
    | some b => .bool b
    | none =>
        match int? s.toList with
        | some n => .int n
        | none =>
            if isZeroLed s.toList then .string s
            else
              match float? s with
              | some bits => .float bits
              | none => .string s

/-- Whether a text stays a text when it is written without quotes. Digits after a leading zero do,
but not for every reader. -/
def isPlainText (s : String) : Bool :=
  match ofPlain s with
  | .string _ => !isZeroLed s.toList
  | _ => false

end Scalar

end ForeignBinding.Yaml
