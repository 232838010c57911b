/-!
# Documents

What is written as a report: texts, numbers, truth values, lists, and records whose fields keep
their order.
-/

namespace ForeignBinding

inductive Document where
  | text (s : String)
  | number (n : Int)
  | bool (b : Bool)
  | list (items : List Document)
  | record (fields : List (String × Document))
  deriving Repr, Inhabited

namespace Document

/-- A field with a list, left out if the list is empty. -/
def listField (name : String) : List Document → List (String × Document)
  | [] => []
  | items => [(name, .list items)]

end Document

end ForeignBinding
