import ForeignBinding.Attach.Function
import ForeignBinding.Attach.Variable

/-!
# Declarations
-/

namespace ForeignBinding

inductive Declaration where
  | libraries (names : List LibraryName)
  | convention (c : Convention)
  | typedef (existing : TypeRef) (name : String)
  | enumeration (name : Option String) (items : List EnumItem)
  | callback (name : Option String) (params : List TypeRef) (ret : TypeRef)
  | composite (kind : CompositeKind) (name : String) (layout : Option LayoutSpec)
  /-- The least size of a composite. -/
  | size (name : String) (size : Nat)
  | function (d : FunctionDecl)
  | global (d : VariableDecl)
  deriving DecidableEq, Repr

namespace Declaration

def kind : Declaration → String
  | libraries _ => "library"
  | convention _ => "convention"
  | typedef .. => "typedef"
  | enumeration .. => "enum"
  | callback .. => "callback"
  | composite k _ _ => k.word
  | size .. => "size"
  | function _ => "function"
  | global _ => "variable"

/-- The name that a declaration introduces, if any. -/
def name? : Declaration → Option String
  | libraries _ | convention _ => none
  | typedef _ name => some name
  | enumeration name _ | callback name _ _ => name
  | composite _ name _ | size name _ => some name
  | function d => some d.name
  | global d => some d.name

/-- A declaration as it is cited: kind and quoted name. -/
def cite (d : Declaration) : String :=
  match d.name? with
  | some name => s!"{d.kind} `{name}`"
  | none => d.kind

/-- Whether a declaration is about types alone, and needs no library. -/
def isType : Declaration → Bool
  | libraries _ | function _ | global _ => false
  | _ => true

end Declaration

end ForeignBinding
