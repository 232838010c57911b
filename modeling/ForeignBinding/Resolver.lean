import ForeignBinding.Failure
import ForeignBinding.Registry
import ForeignBinding.Type.PrimTable
import ForeignBinding.Type.Ref

/-!
# The meaning of type references

A name is looked up in the registries of a scope and its ancestors, innermost first, then in the
base table. A composite stands for its address where it is a parameter, and for itself where it is
a field.
-/

namespace ForeignBinding

/-- Where names are looked up: registries, innermost first, then the base table. -/
structure Resolver where
  registries : List Registry
  base : PrimTable

namespace Resolver

/-- The composite that the innermost registry with a composite of this name declares. -/
def findComposite? (r : Resolver) (name : String) : Option Composite :=
  r.registries.findSome? (·.composites.get? name)

/-- The meaning of a name in parameter position. -/
def resolveName (r : Resolver) (name : String) : Attempt TypeError Descriptor :=
  match r.registries.findSome? (·.resolve? name) with
  | some d => .ok d
  | none =>
      match r.base.get? name with
      | some p => .ok (.prim p)
      | none => .fail (.unknownType name)

/-- The meaning of a reference passed by value, which must denote a composite. -/
def resolveByValue (r : Resolver) : TypeRef → Attempt TypeError Descriptor
  | .byValue inner => r.resolveByValue inner
  | .composite c => .ok (.byValue c)
  | .named name =>
      match r.findComposite? name with
      | some c => .ok (.byValue c)
      | none => .fail (.notComposite name)
  | .resolved d =>
      match d.composite? with
      | some c => .ok (.byValue c)
      | none => .fail (.notComposite d.display)

/-- The meaning of a reference as a parameter, a result, an alias or a variable. -/
def resolve (r : Resolver) : TypeRef → Attempt TypeError Descriptor
  | .resolved d => .ok d
  | .composite _ => .ok .pointer
  | .byValue inner => r.resolveByValue inner
  | .named name => r.resolveName name

/-- The meanings of several references; the first that has none is the failure. -/
def resolveAll (r : Resolver) (ts : List TypeRef) : Attempt TypeError (List Descriptor) :=
  ts.mapM r.resolve

/-- The meaning of a reference as a field, where composites are embedded. -/
def resolveInline (r : Resolver) : TypeRef → Attempt TypeError Descriptor
  | .composite c => .ok (.composite c)
  | .named name =>
      match r.findComposite? name with
      | some c => .ok (.composite c)
      | none => r.resolveName name
  | t => r.resolve t

/-- The signature of a function in this place. -/
def signature (r : Resolver) (params : List TypeRef) (ret : TypeRef) (convention : Convention) :
    Attempt TypeError Signature := do
  let params ← r.resolveAll params
  let ret ← r.resolve ret
  return { params, ret, convention }

end Resolver

end ForeignBinding
