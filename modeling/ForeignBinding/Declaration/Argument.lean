import ForeignBinding.Failure.Cause

/-!
# Arguments of declarations
-/

namespace ForeignBinding

/-- An argument of a declaration, as loosely typed as it arrives. -/
inductive Argument where
  | symbol (s : String)
  | int (n : Int64)
  | list (items : List Argument)
  /-- Pairs in the order they were written; a key may repeat. -/
  | map (entries : List (String × Argument))
  deriving Repr, Inhabited

namespace Argument

def shape : Argument → ArgumentShape
  | symbol _ => .symbol
  | int _ => .integer
  | list _ => .list
  | map _ => .map

end Argument

end ForeignBinding
