import ForeignBinding.Proofs.Attach.Symbol
import ForeignBinding.Proofs.Scope.Snapshot

/-!
# Aliases in place of types

In a scope that is not nested an alias can be written wherever its type can, as a parameter, a field
or a variable, and the type for the alias. Only by value it cannot: there a name must be that of a
composite, so an alias of one is refused.
-/

namespace ForeignBinding

open Attempt

inductive TypeError.Kind where
  | unknownType
  | notComposite

/-- What is wrong with a reference, whatever it is called. -/
def TypeError.kind : TypeError → TypeError.Kind
  | unknownType _ => .unknownType
  | notComposite _ => .notComposite

/-- The reference by value, and that by value again, `n` times. -/
def TypeRef.byValues : Nat → TypeRef → TypeRef
  | 0, t => t
  | n + 1, t => .byValue (byValues n t)

def FieldType.exchange (t u : TypeRef) : FieldType → FieldType
  | .single ref => .single (if ref = t then u else ref)
  | .array ref count => .array (if ref = t then u else ref) count

def FieldSpec.exchange (t u : TypeRef) (f : FieldSpec) : FieldSpec :=
  { f with type := f.type.exchange t u }

/-- The specification with `u` for the type of every field, or of its elements, that is `t`. -/
def LayoutSpec.exchange (t u : TypeRef) : LayoutSpec → LayoutSpec
  | .ordered fs => .ordered (fs.map (·.exchange t u))
  | .keyed fs => .keyed (fs.map fun f => (f.1, f.2.exchange t u))

private theorem LayoutSpec.fields_exchange (t u : TypeRef) (spec : LayoutSpec) :
    (spec.exchange t u).fields = spec.fields.map (·.exchange t u) := by
  cases spec with
  | ordered fs => rfl
  | keyed fs => simp [exchange, fields, FieldSpec.exchange]

section

variable {defs : Definitions} {r : Resolver} {t u : TypeRef}

private theorem Placement.addSpec_exchange
    (h : (r.resolveInline t).outcome TypeError.kind = (r.resolveInline u).outcome TypeError.kind)
    (p : Placement) (f : FieldSpec) :
    (p.addSpec defs r (f.exchange t u)).outcome id = (p.addSpec defs r f).outcome id := by
  have href : ∀ ref, (r.resolveInline (if ref = t then u else ref)).outcome TypeError.kind =
      (r.resolveInline ref).outcome TypeError.kind := by
    intro ref
    split
    · rename_i heq
      rw [heq, h]
    · rfl
  obtain ⟨name, type, offset⟩ := f
  cases type <;>
    simp only [addSpec, FieldSpec.exchange, FieldType.exchange, FieldType.ref, outcome_bind,
      outcome_under TypeError.kind, href]

private theorem Placement.addSpecs_exchange
    (h : (r.resolveInline t).outcome TypeError.kind = (r.resolveInline u).outcome TypeError.kind)
    (p : Placement) (fs : List FieldSpec) :
    (addSpecs defs r p (fs.map (·.exchange t u))).outcome id =
      (addSpecs defs r p fs).outcome id := by
  induction fs generalizing p with
  | nil => rfl
  | cons f fs ih =>
      rw [List.map_cons, addSpecs, addSpecs, show (f.exchange t u).name = f.name from rfl]
      split
      · rfl
      · simp only [outcome_bind, addSpec_exchange h, ih]

/-- A layout does not tell apart two types that are the same as fields. -/
theorem Definitions.define_exchange
    (h : (r.resolveInline t).outcome TypeError.kind = (r.resolveInline u).outcome TypeError.kind)
    (defs : Definitions) (c : Composite) (spec : LayoutSpec) :
    (defs.define r c (spec.exchange t u)).outcome id = (defs.define r c spec).outcome id := by
  have hcompute : ∀ floor, (Layout.compute defs r c.kind floor (spec.exchange t u)).outcome id =
      (Layout.compute defs r c.kind floor spec).outcome id := by
    intro floor
    simp only [Layout.compute, spec.fields_exchange, outcome_bind, Placement.addSpecs_exchange h]
  simp only [define, outcome_bind, outcome_noting, hcompute]

end

namespace Scope

/-- Wherever a type is written, `u` can be written for `t`: the outcome is the same result, or a
failure of the same kind. -/
structure Exchangeable (s : Scope) (t u : TypeRef) : Prop where
  parameter : (s.findType t).outcome TypeError.kind = (s.findType u).outcome TypeError.kind
  field : (s.resolver.resolveInline t).outcome TypeError.kind =
    (s.resolver.resolveInline u).outcome TypeError.kind
  layout : ∀ (defs : Definitions) c (spec : LayoutSpec),
    (defs.define s.resolver c (spec.exchange t u)).outcome id =
      (defs.define s.resolver c spec).outcome id
  global : ∀ defs name native, (s.attachVariable defs ⟨name, native, t⟩).outcome id =
    (s.attachVariable defs ⟨name, native, u⟩).outcome id

/-- The reference is not that of a composite, so it means the same in every place. -/
def IsUniform (s : Scope) (t : TypeRef) : Prop :=
  ∀ name native, VariableDecl.composite? ⟨name, native, t⟩ s.resolver = none

variable {s : Scope} {t u : TypeRef}

private theorem IsUniform.resolveInline_eq (h : s.IsUniform t) :
    s.resolver.resolveInline t = s.findType t :=
  VariableDecl.resolveInline_of_composite?_eq_none (h "" none)

private theorem IsUniform.attachVariable_exchange (ht : s.IsUniform t) (hu : s.IsUniform u)
    (h : (s.findType t).outcome TypeError.kind = (s.findType u).outcome TypeError.kind)
    (defs : Definitions) (name : String) (native : Option String) :
    (s.attachVariable defs ⟨name, native, t⟩).outcome id =
      (s.attachVariable defs ⟨name, native, u⟩).outcome id := by
  have haccess : ∀ a, (VariableDecl.access ⟨name, native, t⟩ defs s.resolver a).outcome id =
      (VariableDecl.access ⟨name, native, u⟩ defs s.resolver a).outcome id := by
    intro a
    simp only [VariableDecl.access, ht name native, hu name native, outcome_bind,
      outcome_under TypeError.kind]
    change ((s.findType t).outcome TypeError.kind).mapError _ >>= _ = _
    rw [h]
    rfl
  have hattach : ∀ libraries,
      (ForeignBinding.attachVariable ⟨name, native, t⟩ defs s.resolver libraries).outcome id =
        (ForeignBinding.attachVariable ⟨name, native, u⟩ defs s.resolver libraries).outcome id := by
    intro libraries
    simp only [ForeignBinding.attachVariable,
      show VariableDecl.symbol ⟨name, native, t⟩ = VariableDecl.symbol ⟨name, native, u⟩ from rfl]
    split
    · rfl
    · simp only [outcome_bind, haccess]
  simp only [attachVariable, outcome_bind, outcome_noting, hattach]

/-- What is the same as a parameter is so everywhere, if it does not name a composite. -/
theorem IsUniform.exchangeable (ht : s.IsUniform t) (hu : s.IsUniform u)
    (h : (s.findType t).outcome TypeError.kind = (s.findType u).outcome TypeError.kind) :
    s.Exchangeable t u := by
  have hfield : (s.resolver.resolveInline t).outcome TypeError.kind =
      (s.resolver.resolveInline u).outcome TypeError.kind := by
    rw [ht.resolveInline_eq, hu.resolveInline_eq, h]
  exact ⟨h, hfield, Definitions.define_exchange hfield, ht.attachVariable_exchange hu h⟩

private theorem findType_byValues_succ (n : Nat) (t : TypeRef) :
    s.findType (.byValues (n + 1) t) = s.resolver.resolveByValue t := by
  change s.resolver.resolveByValue (.byValues n t) = _
  induction n with
  | zero => rfl
  | succ n ih => exact ih

private theorem isUniform_byValues (h : s.IsUniform t) (n : Nat) : s.IsUniform (.byValues n t) := by
  cases n with
  | zero => exact h
  | succ n => exact fun _ _ => rfl

private theorem isUniform_named {name : String} (htop : s.ancestors = [])
    (hname : s.registry.composites.get? name = none) : s.IsUniform (.named name) := by
  intro _ _
  change s.resolver.findComposite? name = none
  simp [Resolver.findComposite?, resolver, registries, htop, hname]

private theorem isUniform_resolved (s : Scope) (d : Descriptor) : s.IsUniform (.resolved d) :=
  fun _ _ => rfl

private theorem findType_byValues_named {name : String} (h : s.IsUniform (.named name)) (n : Nat) :
    s.findType (.byValues (n + 1) (.named name)) = .fail (.notComposite name) := by
  have hnone : s.resolver.findComposite? name = none := h name none
  rw [findType_byValues_succ, Resolver.resolveByValue, hnone]

private theorem findType_byValues_resolved (s : Scope) (d : Descriptor) (n : Nat) :
    s.findType (.byValues (n + 1) (.resolved d)) =
      match d.composite? with
      | some c => .ok (.byValue c)
      | none => .fail (.notComposite d.display) := by
  rw [findType_byValues_succ]
  rfl

/-- In a scope that is not nested, an alias that is not the name of a composite too means its type,
as a parameter and as a field. By value it means nothing, however often, while its type does if it
is a composite. So the two are exchangeable wherever they stand, unless by value and the type is a
composite. -/
theorem alias_exchangeable_iff {s : Scope} (htop : s.ancestors = []) {name : String}
    {d : Descriptor} (halias : s.registry.aliases.get? name = some d)
    (hname : s.registry.composites.get? name = none) :
    (s.findType (.named name) = .ok d ∧ s.resolver.resolveInline (.named name) = .ok d) ∧
      (∀ n, (s.findType (.byValues (n + 1) (.named name))).FailsWith (.notComposite name)) ∧
      (∀ c, d.composite? = some c →
        ∀ n, s.findType (.byValues (n + 1) (.resolved d)) = .ok (.byValue c)) ∧
      ∀ n, s.Exchangeable (.byValues n (.named name)) (.byValues n (.resolved d)) ↔
        n = 0 ∨ d.composite? = none := by
  have huniform := isUniform_named htop hname
  have hmeans : s.findType (.named name) = .ok d := findType_of_alias hname halias
  have hnamed := findType_byValues_named huniform
  have hresolved := findType_byValues_resolved s d
  have hexchange : ∀ n, (s.findType (.byValues n (.named name))).outcome TypeError.kind =
      (s.findType (.byValues n (.resolved d))).outcome TypeError.kind →
        s.Exchangeable (.byValues n (.named name)) (.byValues n (.resolved d)) := fun n =>
    (isUniform_byValues huniform n).exchangeable (isUniform_byValues (s.isUniform_resolved d) n)
  refine ⟨⟨hmeans, huniform.resolveInline_eq.trans hmeans⟩, ?_, ?_, ?_⟩
  · intro n
    rw [hnamed]
    exact failsWith_fail _
  · intro c hc n
    rw [hresolved, hc]
  · intro n
    cases n with
    | zero => exact ⟨fun _ => .inl rfl, fun _ => hexchange 0 (congrArg _ hmeans)⟩
    | succ n =>
        have hsame := hexchange (n + 1)
        rw [hnamed, hresolved] at hsame
        constructor
        · intro h
          have hparameter := h.parameter
          rw [hnamed, hresolved] at hparameter
          cases hc : d.composite? with
          | none => exact .inr rfl
          | some c =>
              rw [hc] at hparameter
              cases hparameter
        · rintro (h | h)
          · cases h
          · rw [h] at hsame
            exact hsame rfl

end Scope

-- Of two aliases one is of a number and one of a struct by value.
namespace Sample

def aliased : Workspace :=
  (((workspace.declare (.composite .struct "point" none)).2.declare
    (.typedef (.byValue (.named "point")) "pt")).2.declare
      (.typedef (.resolved (.prim .uint16)) "count")).2

private theorem aliased_reachable : aliased.Reachable :=
  ((workspace_reachable.declare _).declare _).declare _

end Sample

namespace Scope

theorem alias_exchangeable_iff_count :
    let s := Sample.aliased.scope
    s.ancestors = [] ∧ s.registry.aliases.get? "count" = some (.prim .uint16) ∧
      s.registry.composites.get? "count" = none ∧
      s.Exchangeable (.byValues 2 (.named "count")) (.byValues 2 (.resolved (.prim .uint16))) ∧
      s.registry.aliases.get? "pt" = some (.byValue Sample.point) ∧
      s.registry.composites.get? "pt" = none ∧
      s.Exchangeable (.named "pt") (.resolved (.byValue Sample.point)) := by
  intro s
  have hcount : s.registry.aliases.get? "count" = some (.prim .uint16) := rfl
  have hpt : s.registry.aliases.get? "pt" = some (.byValue Sample.point) := rfl
  have hexchange := (alias_exchangeable_iff rfl hcount rfl).2.2.2 2
  have hexchange' := (alias_exchangeable_iff rfl hpt rfl).2.2.2 0
  exact ⟨rfl, hcount, rfl, hexchange.2 (.inr rfl), hpt, rfl, hexchange'.2 (.inl rfl)⟩

/-- An alias of a struct by value cannot be passed by value as the struct can. -/
theorem not_alias_exchangeable :
    ¬ ∀ (w : Workspace) (name : String) (d : Descriptor) (n : Nat), w.Reachable →
      w.scope.ancestors = [] → w.scope.registry.aliases.get? name = some d →
        w.scope.registry.composites.get? name = none →
          w.scope.Exchangeable (.byValues n (.named name)) (.byValues n (.resolved d)) := by
  intro h
  have hsame := (h Sample.aliased "pt" (.byValue Sample.point) 1 Sample.aliased_reachable rfl rfl
    rfl).parameter
  have hnamed : Sample.aliased.scope.findType (.byValues 1 (.named "pt")) =
      .fail (.notComposite "pt") := rfl
  have hresolved : Sample.aliased.scope.findType (.byValues 1 (.resolved (.byValue Sample.point))) =
      .ok (.byValue Sample.point) := rfl
  rw [hnamed, hresolved] at hsame
  cases hsame

end Scope

end ForeignBinding
