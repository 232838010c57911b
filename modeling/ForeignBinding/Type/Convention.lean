/-!
# Calling conventions
-/

namespace ForeignBinding

/-- How arguments are passed to a function or a callback. -/
inductive Convention where
  | standard
  | stdcall
  deriving DecidableEq, Repr, Inhabited

namespace Convention

def display : Convention → String
  | standard => "default"
  | stdcall => "stdcall"

/-- The convention of a name; `cdecl` is another name of the default one. -/
def ofName? : String → Option Convention
  | "default" | "cdecl" => some standard
  | "stdcall" => some stdcall
  | _ => none

/-- What follows a signature: nothing for the default convention, else its name in brackets. -/
def mark : Convention → String
  | standard => ""
  | stdcall => " [stdcall]"

theorem ofName?_display (c : Convention) : ofName? c.display = some c := by
  cases c <;> rfl

end Convention

end ForeignBinding
