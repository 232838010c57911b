import ForeignBinding.Address
import ForeignBinding.Layout.Basic
import ForeignBinding.Number.Decimal

/-!
# Values at the native boundary
-/

namespace ForeignBinding

/-- A composite at an address. The layout is the one the composite had when the view was made. -/
structure View where
  composite : Composite
  layout : Layout
  address : Address
  deriving DecidableEq, Repr

/-- A view as it is shown. -/
def View.display (v : View) : String :=
  v.composite.display ++ " @ " ++ v.address.display

/-- A value that is passed to native code or read from native memory. -/
inductive Value where
  | void
  | bool (b : Bool)
  | int (n : Int64)
  | uint (n : UInt64)
  /-- The bits of a 64-bit floating-point number. -/
  | float (bits : UInt64)
  | pointer (a : Address)
  /-- A composite that lives in native memory. -/
  | view (v : View)
  | array (elements : List Value)
  deriving Repr, Inhabited

namespace Value

/-- The value as a signed word; an unsigned one is taken modulo `2 ^ 64`. -/
def toInt64? : Value → Option Int64
  | int n => some n
  | uint n => some n.toInt64
  | bool b => some (if b then 1 else 0)
  | _ => none

def toFloatBits? : Value → Option UInt64
  | float bits => some bits
  | _ => none

/-- The sort of a value, as it is named in a message. -/
def kind : Value → String
  | void => "void"
  | bool _ => "bool"
  | int _ | uint _ => "integer"
  | float _ => "float"
  | pointer _ => "pointer"
  | view _ => "struct"
  | array _ => "array"

/-- Floating-point values are shown without an exponent. -/
def floatStyle : Number.FloatStyle where
  tie := .up
  positional := fun _ => true
  pointed := false
  nan := "NaN"
  infinity := "inf"

mutual

/-- A value as it is shown. -/
def display : Value → String
  | void => "void"
  | bool b => toString b
  | int n => toString n.toInt
  | uint n => toString n.toNat
  | float bits => floatStyle.print bits
  | pointer a => a.display
  | view v => v.display
  | array vs => "[" ++ ", ".intercalate (displayAll vs) ++ "]"

/-- Each value as it is shown. -/
def displayAll : List Value → List String
  | [] => []
  | v :: vs => v.display :: displayAll vs

end

end Value

end ForeignBinding
