import ForeignBinding.Enumeration
import ForeignBinding.NameMap

/-!
# The types declared in one scope

A registry holds the aliases, enumerations, callbacks and composites of a scope. A named
enumeration or callback is also an alias. A later declaration of a name replaces an earlier one of
the same sort; the enumerations themselves are all kept, in order.
-/

namespace ForeignBinding

structure Registry where
  aliases : NameMap Descriptor
  /-- The values of all symbols, later enumerations winning. -/
  enumValues : NameMap Int64
  enumerations : List Enumeration
  callbacks : NameMap Signature
  composites : NameMap Composite
  deriving Inhabited

namespace Registry

/-- The registry of a scope without declarations. -/
def empty : Registry := ⟨.empty, .empty, [], .empty, .empty⟩

def insertAlias (r : Registry) (name : String) (d : Descriptor) : Registry :=
  { r with aliases := r.aliases.insert name d }

/-- The registry with one more callback, which is an alias too. -/
def insertCallback (r : Registry) (name : String) (s : Signature) : Registry :=
  { r.insertAlias name s.toDescriptor with callbacks := r.callbacks.insert name s }

/-- The alias that an enumeration adds, if it has a name. -/
def insertEnumAlias (r : Registry) : Option String → Registry
  | none => r
  | some name => r.insertAlias name Enumeration.descriptor

/-- The registry with one more enumeration, its symbols and, if it has a name, its alias. -/
def insertEnum (r : Registry) (e : Enumeration) : Registry :=
  { r.insertEnumAlias e.name with
    enumValues := r.enumValues.insertAll e.enumerators
    enumerations := r.enumerations ++ [e] }

/-- The registry with one more composite, under its own name. -/
def insertComposite (r : Registry) (c : Composite) : Registry :=
  { r with composites := r.composites.insert c.name c }

/-- The latest enumeration of a name. -/
def findEnum? (r : Registry) (name : String) : Option Enumeration :=
  r.enumerations.reverse.find? (fun e => e.name == some name)

/-- What a name stands for in parameter position in this registry: the address of a composite, an
alias, or a callback, the first that is declared. -/
def resolve? (r : Registry) (name : String) : Option Descriptor :=
  match r.composites.get? name with
  | some _ => some .pointer
  | none =>
      match r.aliases.get? name with
      | some d => some d
      | none => (r.callbacks.get? name).map Signature.toDescriptor

end Registry

end ForeignBinding
