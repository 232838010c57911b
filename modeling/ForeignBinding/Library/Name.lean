/-!
# Libraries as they are declared
-/

namespace ForeignBinding

inductive LibraryName where
  /-- The process itself. -/
  | currentProcess
  | named (name : String)
  /-- Several names for one library, tried in order. -/
  | alternatives (names : List String)
  deriving DecidableEq, Repr

namespace LibraryName

/-- How the process itself is shown as a library. -/
def currentProcessName : String := "[current process]"

def names : LibraryName → List String
  | currentProcess => []
  | named n => [n]
  | alternatives ns => ns

/-- A declared library as it is shown. -/
def display : LibraryName → String
  | currentProcess => currentProcessName
  | named n => n
  | alternatives ns => "[" ++ ", ".intercalate ns ++ "]"

end LibraryName

end ForeignBinding
