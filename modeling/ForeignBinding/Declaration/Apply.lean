import ForeignBinding.Declaration.Basic
import ForeignBinding.Scope

/-!
# Carrying out declarations

A declaration changes the scope it is made in, the definitions of composites that all scopes share,
and the record of what the host was asked. One that fails changes neither scope nor definitions,
except that a composite whose layout is refused stays declared.
-/

namespace ForeignBinding

/-- A scope with all that its declarations read or change outside it. -/
structure Workspace where
  scope : Scope
  definitions : Definitions
  /-- The names given to the loader so far. -/
  opened : List (Option String)
  /-- The requests made of the builder of invokers so far. -/
  consulted : List InvokerRequest

inductive Declared where
  | libraries (names : List String)
  | convention (c : Convention)
  | type (d : Descriptor)
  | enumeration (e : Enumeration)
  | composite (c : Composite)
  | function (b : FunctionBinding)
  | global (b : VariableBinding)

namespace Workspace

def new (s : Scope) : Workspace :=
  { scope := s, definitions := .empty, opened := [], consulted := [] }

/-- The outcome of a step that changes the scope only if it succeeds. -/
def step {ε α : Type} (w : Workspace) (made : α → Declared) :
    Attempt ε (α × Scope) → Attempt ε Declared × Workspace
  | .ok (x, s) => (.ok (made x), { w with scope := s })
  | .error f => (.error f, w)

/-- The outcome of a step on a composite that changes the definitions only if it succeeds. -/
def refine (w : Workspace) (c : Composite) :
    Attempt LayoutError Definitions → Attempt LayoutError Declared × Workspace
  | .ok defs => (.ok (.composite c), { w with definitions := defs })
  | .error f => (.error f, w)

/-- Declares a composite and goes on with it. -/
def withComposite (w : Workspace) (kind : CompositeKind) (name : String)
    (next : Workspace → Composite → Attempt LayoutError Declared × Workspace) :
    Attempt LayoutError Declared × Workspace :=
  match w.scope.declareComposite w.definitions kind name with
  | .ok (c, s, defs) => next { w with scope := s, definitions := defs } c
  | .error f => (.error f, w)

/-- Gives a composite its layout, if there is one. -/
def define (layout : Option LayoutSpec) (w : Workspace) (c : Composite) :
    Attempt LayoutError Declared × Workspace :=
  match layout with
  | none => (.ok (.composite c), w)
  | some spec =>
      w.refine c ((w.definitions.define w.scope.resolver c spec).map (·.2))

/-- Sets the least size of a composite. -/
def setSize (size : Nat) (w : Workspace) (c : Composite) :
    Attempt LayoutError Declared × Workspace :=
  w.refine c (w.definitions.setSize c size)

/-- Sets the least size of the composite of a name in this scope, which is declared as a struct if
it is not declared yet. -/
def declareSize (w : Workspace) (name : String) (size : Nat) :
    Attempt LayoutError Declared × Workspace :=
  match w.scope.registry.composites.get? name with
  | some c => w.setSize size c
  | none => w.withComposite .struct name (setSize size)

/-- The outcome of a declaration, as the failure of which a failed step is reported. -/
def conclude {ε : Type} [IsCause ε] (d : Declaration) (outcome : Attempt ε Declared × Workspace) :
    Attempt DeclError Declared × Workspace :=
  (outcome.1.under (DeclError.declaration d.cite), outcome.2)

def declare (w : Workspace) (d : Declaration) : Attempt DeclError Declared × Workspace :=
  match d with
  | .libraries names =>
      let (result, tried) := w.scope.declareLibraries names
      conclude d ({ w with opened := w.opened ++ tried }.step
        (fun set : LibrarySet => .libraries set.names) result)
  | .convention c => (.ok (.convention c), { w with scope := w.scope.setConvention c })
  | .typedef existing name => conclude d (w.step .type (w.scope.typedef existing name))
  | .enumeration name items =>
      let (e, s) := w.scope.enumeration name items
      (.ok (.enumeration e), { w with scope := s })
  | .callback name params ret => conclude d (w.step .type (w.scope.callback name params ret))
  | .composite kind name layout => conclude d (w.withComposite kind name (define layout))
  | .size name size => conclude d (w.declareSize name size)
  | .function f =>
      let (result, made) := w.scope.attachFunction f
      conclude d ({ w with consulted := w.consulted ++ made }.step .function result)
  | .global v => conclude d (w.step .global (w.scope.attachVariable w.definitions v))

end Workspace

end ForeignBinding
