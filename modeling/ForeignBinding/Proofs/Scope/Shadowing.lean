import ForeignBinding.Proofs.Attach.Variable
import ForeignBinding.Proofs.Session

/-!
# Shadowing

As a parameter, a name has the meaning that the innermost registry declaring it gives it. As a
field, by value and as a variable it is looked up among the composites of all registries first, so
there a composite further out is found past an alias or callback that shadows it.
-/

namespace ForeignBinding

open Attempt

namespace Registry

/-- The registry declares the name as a composite, an alias or a callback. -/
def Declares (R : Registry) (name : String) : Prop :=
  (∃ c, R.composites.get? name = some c) ∨ (∃ d, R.aliases.get? name = some d) ∨
    ∃ sig, R.callbacks.get? name = some sig

private theorem declares_iff {R : Registry} {name : String} :
    R.Declares name ↔ ∃ d, R.resolve? name = some d := by
  unfold Declares resolve?
  cases R.composites.get? name <;> cases R.aliases.get? name <;>
    cases R.callbacks.get? name <;> simp

private theorem resolve?_eq_composite {R : Registry} {name : String} {c : Composite} :
    R.resolve? name = some (.composite c) ↔
      R.composites.get? name = none ∧ R.aliases.get? name = some (.composite c) := by
  unfold resolve?
  cases R.composites.get? name with
  | some c' => simp [Descriptor.pointer]
  | none =>
      cases R.aliases.get? name with
      | some d => simp
      | none => cases R.callbacks.get? name <;> simp [Signature.toDescriptor]

end Registry

private theorem attachVariable_view_iff {d : VariableDecl} {defs : Definitions} {r : Resolver}
    {libraries : LibrarySet} {b : VariableBinding} (h : attachVariable d defs r libraries = .ok b)
    (c : Composite) : (∃ v, b.access = .view v ∧ v.composite = c) ↔ d.composite? r = some c := by
  rcases VariableDecl.access_eq_ok (attachVariable_eq_ok h) with
    ⟨c', v, hc, -, hv, haccess⟩ | ⟨hc, l, -, haccess⟩
  · obtain ⟨l, -, rfl⟩ := at?_eq_ok.1 hv
    simp [hc, haccess]
  · simp [hc, haccess]

namespace Scope

/-- Of the registries that declare the name, `R` is the innermost; `outer` are those around it. -/
def DecidedBy (s : Scope) (name : String) (R : Registry) (outer : List Registry) : Prop :=
  ∃ inner, s.registries = inner ++ R :: outer ∧ (∀ R' ∈ inner, ¬ R'.Declares name) ∧
    R.Declares name

/-- The registry alone decides what the name means, wherever a type is named. -/
structure Uniform (s : Scope) (name : String) (R : Registry) : Prop where
  parameter : ∃ d, R.resolve? name = some d ∧ s.findType (.named name) = .ok d
  field : ∀ c, s.resolver.resolveInline (.named name) = .ok (.composite c) ↔
    R.composites.get? name = some c
  field_otherwise : R.composites.get? name = none →
    s.resolver.resolveInline (.named name) = s.findType (.named name)
  byValue : ∀ c, R.composites.get? name = some c →
    s.findType (.byValue (.named name)) = .ok (.byValue c)
  of_byValue : ∀ c, s.findType (.byValue (.named name)) = .ok (.byValue c) →
    R.composites.get? name = some c ∨
      ∃ d, R.aliases.get? name = some d ∧ d.composite? = some c
  global : ∀ defs d b s', d.type = .named name → s.attachVariable defs d = .ok (b, s') →
    ∀ c, (∃ v, b.access = .view v ∧ v.composite = c) ↔ R.composites.get? name = some c

variable {s : Scope} {name : String} {R : Registry} {outer : List Registry}

/-- What a registry gives only for names that it declares is given by `R`, or further out. -/
theorem DecidedBy.findSome? {α : Type} (h : s.DecidedBy name R outer) {f : Registry → Option α}
    (hf : ∀ R' x, f R' = some x → R'.Declares name) :
    s.registries.findSome? f = (f R).or (outer.findSome? f) := by
  obtain ⟨inner, heq, hinner, -⟩ := h
  have hnone : inner.findSome? f = none := by
    rw [List.findSome?_eq_none_iff]
    intro R' hR'
    exact Option.eq_none_iff_forall_ne_some.2 fun x hx => hinner R' hR' (hf R' x hx)
  rw [heq, List.findSome?_append, hnone, Option.none_or, List.findSome?_cons]
  cases f R <;> rfl

private theorem DecidedBy.findType_eq (h : s.DecidedBy name R outer) :
    ∃ d, R.resolve? name = some d ∧ s.findType (.named name) = .ok d := by
  have hfind := h.findSome? (f := (·.resolve? name)) fun _ d hd =>
    Registry.declares_iff.2 ⟨d, hd⟩
  obtain ⟨inner, -, -, hR⟩ := h
  obtain ⟨d, hd⟩ := Registry.declares_iff.1 hR
  rw [hd, Option.some_or] at hfind
  refine ⟨d, hd, ?_⟩
  change s.resolver.resolveName name = .ok d
  rw [Resolver.resolveName, show s.resolver.registries = s.registries from rfl, hfind]

private theorem DecidedBy.findComposite?_eq (h : s.DecidedBy name R outer) :
    s.findComposite? name =
      (R.composites.get? name).or (outer.findSome? (·.composites.get? name)) :=
  h.findSome? fun _ c hc => .inl ⟨c, hc⟩

theorem resolveInline_of_findComposite? {c : Composite} (h : s.findComposite? name = some c) :
    s.resolver.resolveInline (.named name) = .ok (.composite c) := by
  change s.resolver.findComposite? name = some c at h
  simp only [Resolver.resolveInline, h]

theorem resolveInline_of_findComposite?_eq_none (h : s.findComposite? name = none) :
    s.resolver.resolveInline (.named name) = s.findType (.named name) := by
  change s.resolver.findComposite? name = none at h
  simp only [Resolver.resolveInline, h]
  rfl

private theorem findType_byValue_eq_ok {c : Composite} :
    s.findType (.byValue (.named name)) = .ok (.byValue c) ↔ s.findComposite? name = some c := by
  change s.resolver.resolveByValue (.named name) = .ok (.byValue c) ↔
    s.resolver.findComposite? name = some c
  unfold Resolver.resolveByValue
  cases s.resolver.findComposite? name <;> simp [fail]

/-- All places where a type is named go by the innermost registry that declares the name if and
only if they find no composite but that registry's. It must declare the name as a composite, or
no registry around it may, and the alias must not be a bare composite itself. -/
theorem uniform_iff (h : s.DecidedBy name R outer) :
    s.Uniform name R ↔
      (R.composites.get? name = none → (∀ R' ∈ outer, R'.composites.get? name = none) ∧
        ∀ c, R.aliases.get? name ≠ some (.composite c)) := by
  obtain ⟨d, hd, hfindType⟩ := h.findType_eq
  have hfind := h.findComposite?_eq
  constructor
  · intro huniform hnone
    rw [hnone, Option.none_or] at hfind
    -- As `R` has no composite of the name, a field of that type embeds none.
    have hfield : ∀ c, s.resolver.resolveInline (.named name) ≠ .ok (.composite c) := by
      intro c hc
      have hsome := (huniform.field c).1 hc
      rw [hnone] at hsome
      cases hsome
    have houter : outer.findSome? (·.composites.get? name) = none :=
      Option.eq_none_iff_forall_ne_some.2 fun c hc =>
        hfield c (resolveInline_of_findComposite? (hfind.trans hc))
    refine ⟨List.findSome?_eq_none_iff.1 houter, ?_⟩
    intro c halias
    have hcomposite := Registry.resolve?_eq_composite.2 ⟨hnone, halias⟩
    rw [hd] at hcomposite
    apply hfield c
    rw [huniform.field_otherwise hnone, hfindType, Option.some.inj hcomposite]
  · intro hcond
    have hR : s.findComposite? name = R.composites.get? name := by
      cases hname : R.composites.get? name with
      | some c => rw [hfind, hname, Option.some_or]
      | none =>
          rw [hfind, hname, Option.none_or]
          exact List.findSome?_eq_none_iff.2 (hcond hname).1
    have hotherwise : R.composites.get? name = none →
        s.resolver.resolveInline (.named name) = s.findType (.named name) :=
      fun hnone => resolveInline_of_findComposite?_eq_none (hR.trans hnone)
    refine ⟨⟨d, hd, hfindType⟩, ?_, hotherwise, ?_, ?_, ?_⟩
    · intro c
      refine ⟨?_, fun hc => resolveInline_of_findComposite? (hR.trans hc)⟩
      intro hc
      cases hname : R.composites.get? name with
      | some c' =>
          rw [resolveInline_of_findComposite? (hR.trans hname)] at hc
          cases hc
          rfl
      | none =>
          rw [hotherwise hname, hfindType] at hc
          cases hc
          exact absurd (Registry.resolve?_eq_composite.1 hd).2 ((hcond hname).2 c)
    · intro c hc
      exact findType_byValue_eq_ok.2 (hR.trans hc)
    · intro c hc
      exact .inl (hR.symm.trans (findType_byValue_eq_ok.1 hc))
    · intro defs g b s' htype hb c
      obtain ⟨libraries, -, hattach, -⟩ := attachVariable_eq_ok hb
      have hcomposite : g.composite? s.resolver = s.findComposite? name := by
        simp only [VariableDecl.composite?, htype]
        rfl
      rw [← hR, ← hcomposite]
      exact attachVariable_view_iff hattach c

end Scope

-- An outer scope declares a struct, and an alias `count`. The inner scope declares an alias that
-- has the struct's name.
namespace Sample

def outer : Workspace :=
  ((workspace.declare (.composite .struct "cell" (some (.keyed
    [("value", .single (.resolved (.prim .int64)))])))).2.declare
      (.typedef (.resolved (.prim .uint16)) "count")).2

def inner : Workspace :=
  (({ outer with scope := .nested "inner" outer.scope } : Workspace).declare
    (.typedef (.resolved (.prim .int8)) "cell")).2

def cell : Composite := ⟨0, .struct, "cell"⟩

private theorem inner_reachable : inner.Reachable :=
  (((workspace_reachable.declare _).declare _).nested "inner").declare _

private theorem cell_decidedBy :
    inner.scope.DecidedBy "cell" inner.scope.registry [outer.scope.registry] :=
  ⟨[], rfl, by simp, .inr (.inl ⟨.prim .int8, rfl⟩)⟩

private theorem count_decidedBy : inner.scope.DecidedBy "count" outer.scope.registry [] := by
  refine ⟨[inner.scope.registry], rfl, ?_, .inr (.inl ⟨.prim .uint16, rfl⟩)⟩
  intro R hR
  rw [List.mem_singleton.1 hR, Registry.declares_iff]
  rintro ⟨d, hd⟩
  cases hd

end Sample

namespace Scope

/-- The alias `count` of the outer scope means the same everywhere. -/
theorem uniform_count :
    Sample.inner.Reachable ∧ Sample.inner.scope.DecidedBy "count" Sample.outer.scope.registry [] ∧
      Sample.inner.scope.Uniform "count" Sample.outer.scope.registry := by
  refine ⟨Sample.inner_reachable, Sample.count_decidedBy, ?_⟩
  apply (uniform_iff Sample.count_decidedBy).2
  intro _
  refine ⟨by simp, ?_⟩
  rintro c (hc : some (Descriptor.prim .uint16) = some (.composite c))
  cases hc

/-- The alias `cell` of the inner scope is a number as a parameter, but the struct of the outer
scope as a field and by value. -/
theorem not_uniform_cell :
    Sample.inner.Reachable ∧
      Sample.inner.scope.DecidedBy "cell" Sample.inner.scope.registry
        [Sample.outer.scope.registry] ∧
      Sample.inner.scope.findType (.named "cell") = .ok (.prim .int8) ∧
      Sample.inner.scope.resolver.resolveInline (.named "cell") = .ok (.composite Sample.cell) ∧
      Sample.inner.scope.findType (.byValue (.named "cell")) = .ok (.byValue Sample.cell) ∧
      ¬ Sample.inner.scope.Uniform "cell" Sample.inner.scope.registry := by
  have hfield : Sample.inner.scope.resolver.resolveInline (.named "cell") =
      .ok (.composite Sample.cell) := rfl
  refine ⟨Sample.inner_reachable, Sample.cell_decidedBy, rfl, hfield, rfl, ?_⟩
  intro huniform
  have hdeclares := (huniform.field Sample.cell).1 hfield
  cases hdeclares

end Scope

end ForeignBinding
