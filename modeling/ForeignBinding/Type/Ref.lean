import ForeignBinding.Type.Descriptor

/-!
# Type references

A type as a declaration writes it, before names are looked up.
-/

namespace ForeignBinding

inductive TypeRef where
  /-- A name, whose meaning depends on the scope. -/
  | named (name : String)
  /-- A type that needs no looking up. -/
  | resolved (d : Descriptor)
  /-- A composite at hand. -/
  | composite (c : Composite)
  /-- The composite that `inner` denotes, by value. -/
  | byValue (inner : TypeRef)
  deriving DecidableEq, Repr, Inhabited

/-- A reference as it is shown. -/
def TypeRef.display : TypeRef → String
  | named n => n
  | resolved d => d.display
  | composite c => c.display
  | byValue t => t.display ++ " (by value)"

end ForeignBinding
