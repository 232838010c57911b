import ForeignBinding.Type.Descriptor

/-!
# Enumerations

An item without a value takes the value after the one before it, counted in 64-bit signed words;
the first such item takes 0. Every enumeration is stored as a 32-bit signed integer.
-/

namespace ForeignBinding

/-- An item of an enumeration as it is declared. -/
inductive EnumItem where
  | implicit (symbol : String)
  | explicit (symbol : String) (value : Int64)
  deriving DecidableEq, Repr

/-- A named or anonymous enumeration with its symbols and values in order. -/
structure Enumeration where
  name : Option String
  enumerators : List (String × Int64)
  deriving DecidableEq, Repr

namespace EnumItem

def symbol : EnumItem → String
  | implicit s | explicit s _ => s

/-- The value of an item where the count stands at `next`. -/
def value (next : Int64) : EnumItem → Int64
  | implicit _ => next
  | explicit _ v => v

/-- Gives each item its value, counting from `next`. -/
def enumerate (next : Int64) : List EnumItem → List (String × Int64)
  | [] => []
  | item :: rest => (item.symbol, item.value next) :: enumerate (item.value next + 1) rest

end EnumItem

namespace Enumeration

def ofItems (name : Option String) (items : List EnumItem) : Enumeration :=
  { name, enumerators := EnumItem.enumerate 0 items }

/-- The primitive that every enumeration is stored as. -/
def storage : Prim := .int32

def descriptor : Descriptor := .prim storage

/-- The symbols in declaration order. -/
def symbols (e : Enumeration) : List String :=
  e.enumerators.map (·.1)

/-- The value of a symbol; of a repeated symbol the last one. -/
def find? (e : Enumeration) (symbol : String) : Option Int64 :=
  e.enumerators.reverse.lookup symbol

/-- The first symbol with a value. -/
def symbolOf? (e : Enumeration) (value : Int64) : Option String :=
  (e.enumerators.find? (fun p => p.2 == value)).map (·.1)

end Enumeration

end ForeignBinding
