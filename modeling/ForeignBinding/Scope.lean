import ForeignBinding.Attach.Function
import ForeignBinding.Attach.Variable

/-!
# Scopes

A scope declares types, opens libraries and attaches functions and variables under names. A scope
nested in another sees its types and starts with its calling convention; it does not inherit its
libraries. An operation changes the scope only by what it returns, so ancestors never change.
-/

namespace ForeignBinding

inductive Binding where
  | ofFunction (b : FunctionBinding)
  | ofVariable (b : VariableBinding)

/-- What a scope works with: file naming, the loader, the base table and a builder of invokers. -/
structure Host where
  platform : Platform
  load : Loader
  base : PrimTable
  invokers : Option InvokerBuilder

structure Frame where
  name : String
  registry : Registry
  /-- The convention of functions and callbacks declared from now on. -/
  convention : Convention
  libraries : Option LibrarySet
  bindings : NameMap Binding

def Frame.empty (name : String) (convention : Convention) : Frame :=
  { name, registry := .empty, convention, libraries := none, bindings := .empty }

/-- A scope: its own frame, and those of the scopes around it, innermost first. -/
structure Scope where
  frame : Frame
  ancestors : List Frame
  host : Host

namespace Scope

def new (name : String) (host : Host) : Scope :=
  { frame := .empty name .standard, ancestors := [], host }

def nested (name : String) (parent : Scope) : Scope :=
  { frame := .empty name parent.frame.convention
    ancestors := parent.frame :: parent.ancestors
    host := parent.host }

def name (s : Scope) : String := s.frame.name

def registry (s : Scope) : Registry := s.frame.registry

/-- The registries of the scope and those around it, innermost first. -/
def registries (s : Scope) : List Registry :=
  s.registry :: s.ancestors.map (·.registry)

def withRegistry (s : Scope) (r : Registry) : Scope :=
  { s with frame := { s.frame with registry := r } }

/-- The scope with another calling convention. -/
def setConvention (s : Scope) (c : Convention) : Scope :=
  { s with frame := { s.frame with convention := c } }

/-- The scope with something attached under a name, whatever was there. -/
def bind (s : Scope) (name : String) (b : Binding) : Scope :=
  { s with frame := { s.frame with bindings := s.frame.bindings.insert name b } }

/-- The meaning of type references in this scope. -/
def resolver (s : Scope) : Resolver :=
  { registries := s.registries, base := s.host.base }

/-- Opens the libraries that functions and variables are searched in. Also gives the names tried. -/
def declareLibraries (s : Scope) (names : List LibraryName) :
    Attempt LibraryError (LibrarySet × Scope) × List (Option String) :=
  let (result, tried) := resolveLibraries s.host.load s.host.platform names
  let declared := (result.noting s!"Declaring libraries of scope `{s.name}`").map fun set =>
    (set, { s with frame := { s.frame with libraries := some set } })
  (declared, tried)

/-- The libraries, which must have been declared. -/
def libraries (s : Scope) : Attempt LibraryError LibrarySet :=
  match s.frame.libraries with
  | some set => .ok set
  | none => .fail .notDeclared

def findType (s : Scope) (t : TypeRef) : Attempt TypeError Descriptor :=
  s.resolver.resolve t

/-- Stores what a type means now under a name. -/
def typedef (s : Scope) (existing : TypeRef) (name : String) :
    Attempt TypeError (Descriptor × Scope) := do
  let d ← (s.findType existing).noting s!"While declaring typedef `{name}`"
  return (d, s.withRegistry (s.registry.insertAlias name d))

/-- Declares an enumeration, whose name, if it has one, is a type from now on. -/
def enumeration (s : Scope) (name : Option String) (items : List EnumItem) :
    Enumeration × Scope :=
  let e := Enumeration.ofItems name items
  (e, s.withRegistry (s.registry.insertEnum e))

/-- The latest enumeration of a name in the innermost scope that has one. -/
def enumType? (s : Scope) (name : String) : Option Enumeration :=
  s.registries.findSome? (·.findEnum? name)

/-- The value of a symbol in the innermost scope that has it. -/
def enumValue? (s : Scope) (symbol : String) : Option Int64 :=
  s.registries.findSome? (·.enumValues.get? symbol)

/-- The values of all symbols, those of inner scopes winning. -/
def enumValues (s : Scope) : NameMap Int64 :=
  s.registries.foldr (fun r values => values.insertAll r.enumValues.entries) .empty

/-- The registry with a callback under a name, if there is a name. -/
def withCallback (s : Scope) : Option String → Signature → Scope
  | none, _ => s
  | some name, sig => s.withRegistry (s.registry.insertCallback name sig)

/-- Declares a callback with the scope's calling convention. -/
def callback (s : Scope) (name : Option String) (params : List TypeRef) (ret : TypeRef) :
    Attempt TypeError (Descriptor × Scope) := do
  let sig ← s.resolver.signature params ret s.frame.convention
  return (sig.toDescriptor, s.withCallback name sig)

/-- The composite that this scope declares under a name, which is declared now if it is not yet. -/
def declareComposite (s : Scope) (defs : Definitions) (kind : CompositeKind) (name : String) :
    Attempt LayoutError (Composite × Scope × Definitions) :=
  match s.registry.composites.get? name with
  | some c => if c.kind = kind then .ok (c, s, defs) else .fail (.kindClash name c.kind)
  | none =>
      let (c, defs) := defs.declare kind name
      .ok (c, s.withRegistry (s.registry.insertComposite c), defs)

/-- The composite of a name that is visible in this scope. -/
def findComposite? (s : Scope) (name : String) : Option Composite :=
  s.resolver.findComposite? name

/-- The composite of a name that this scope itself declares. -/
def ownComposite (s : Scope) (name : String) : Attempt LayoutError Composite :=
  match s.registry.composites.get? name with
  | some c => .ok c
  | none =>
      let missing : Attempt LayoutError Composite := .fail (.notDeclaredHere name s.name)
      match s.findComposite? name with
      | some _ => missing.noting "It is declared in a parent scope"
      | none => missing

/-- Computes the layout of a composite that this scope declares. -/
def layout (s : Scope) (defs : Definitions) (name : String) (spec : LayoutSpec) :
    Attempt LayoutError (Layout × Definitions) := do
  let c ← s.ownComposite name
  defs.define s.resolver c spec

/-- Sets the least size of a composite that this scope declares. -/
def setSize (s : Scope) (defs : Definitions) (name : String) (size : Nat) :
    Attempt LayoutError Definitions := do
  let c ← s.ownComposite name
  defs.setSize c size

/-- Attaches a function under its name. Also gives the requests made of the builder. -/
def attachFunction (s : Scope) (d : FunctionDecl) :
    Attempt AttachError (FunctionBinding × Scope) × List InvokerRequest :=
  match s.libraries.under (AttachError.ofFunction d.name) with
  | .error f => (.error f, [])
  | .ok libraries =>
      match s.host.invokers with
      | none => (.fail .noInvokerBuilder, [])
      | some build =>
          let (result, made) := ForeignBinding.attachFunction d s.resolver s.frame.convention
            libraries build s.enumValues
          let attached := (result.noting s!"In scope `{s.name}`").map fun b =>
            (b, s.bind d.name (.ofFunction b))
          (attached, made)

def attachVariable (s : Scope) (defs : Definitions) (d : VariableDecl) :
    Attempt AttachError (VariableBinding × Scope) := do
  let libraries ← s.libraries.under (AttachError.ofVariable d.name)
  let b ← (ForeignBinding.attachVariable d defs s.resolver libraries).noting
    s!"In scope `{s.name}`"
  return (b, s.bind d.name (.ofVariable b))

def binding? (s : Scope) (name : String) : Option Binding :=
  s.frame.bindings.get? name

def findFunction? (s : Scope) (name : String) : Option FunctionBinding :=
  match s.binding? name with
  | some (.ofFunction b) => some b
  | _ => none

def findVariable? (s : Scope) (name : String) : Option VariableBinding :=
  match s.binding? name with
  | some (.ofVariable b) => some b
  | _ => none

end Scope

end ForeignBinding
