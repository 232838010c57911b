import ForeignBinding.Proofs.Session

/-!
# Declarations that fail

A declaration that fails leaves scope and definitions as they were, up to one composite: where the
layout of a new composite is refused, the composite stays declared, as if it had been declared
without a layout.
-/

namespace ForeignBinding

open Attempt

/-- The declaration is of a layout, for a composite that the scope does not have yet. -/
def Declaration.Introduces (d : Declaration) (s : Scope) (kind : CompositeKind) (name : String) :
    Prop :=
  (∃ spec, d = .composite kind name (some spec)) ∧ s.registry.composites.get? name = none

namespace Workspace

variable {w : Workspace}

private theorem step_of_error {ε α : Type} {made : α → Declared} {a : Attempt ε (α × Scope)}
    {f : Failure ε} (h : (w.step made a).1 = .error f) :
    (w.step made a).2.scope = w.scope ∧ (w.step made a).2.definitions = w.definitions := by
  cases a with
  | error g => exact ⟨rfl, rfl⟩
  | ok y => cases h

theorem refine_of_error {c : Composite} {a : Attempt LayoutError Definitions}
    {f : Failure LayoutError} (h : (w.refine c a).1 = .error f) : (w.refine c a).2 = w := by
  cases a with
  | error g => rfl
  | ok defs => cases h

private theorem define_of_error {layout : Option LayoutSpec} {c : Composite}
    {f : Failure LayoutError} (h : (define layout w c).1 = .error f) :
    (define layout w c).2 = w := by
  cases layout with
  | none => cases h
  | some spec => exact refine_of_error h

private theorem conclude_of_error {ε : Type} [IsCause ε] {d : Declaration}
    {outcome : Attempt ε Declared × Workspace} {f : Failure DeclError}
    (h : (conclude d outcome).1 = .error f) : ∃ g, outcome.1 = .error g := by
  obtain ⟨result, w'⟩ := outcome
  cases result with
  | error g => exact ⟨g, rfl⟩
  | ok x => cases h

private theorem conclude_step_of_error {ε α : Type} [IsCause ε] {d : Declaration}
    {made : α → Declared} {a : Attempt ε (α × Scope)} {f : Failure DeclError}
    (h : (conclude d (w.step made a)).1 = .error f) :
    (conclude d (w.step made a)).2.scope = w.scope ∧
      (conclude d (w.step made a)).2.definitions = w.definitions := by
  obtain ⟨g, hg⟩ := conclude_of_error h
  exact step_of_error hg

theorem withComposite_of_none {kind : CompositeKind} {name : String}
    {next : Workspace → Composite → Attempt LayoutError Declared × Workspace}
    (hname : w.scope.registry.composites.get? name = none) :
    w.withComposite kind name next =
      next (w.introduce kind name) (w.definitions.declare kind name).1 := by
  rw [withComposite, Scope.declareComposite_of_none kind hname]
  rfl

theorem withComposite_of_some {kind : CompositeKind} {name : String} {c : Composite}
    {next : Workspace → Composite → Attempt LayoutError Declared × Workspace}
    (hname : w.scope.registry.composites.get? name = some c) :
    w.withComposite kind name next =
      if c.kind = kind then next w c else (.fail (.kindClash name c.kind), w) := by
  unfold withComposite Scope.declareComposite
  by_cases hkind : c.kind = kind
  · simp [hname, hkind]
  · simp [hname, hkind, fail]

/-- A composite that is declared without a layout is there, or is a new one. -/
theorem declare_bare (w : Workspace) (kind : CompositeKind) (name : String) :
    (w.declare (.composite kind name none)).2 =
      match w.scope.registry.composites.get? name with
      | none => w.introduce kind name
      | some _ => w := by
  change (w.withComposite kind name (define none)).2 = _
  cases hname : w.scope.registry.composites.get? name with
  | none =>
      rw [withComposite_of_none hname]
      rfl
  | some c =>
      rw [withComposite_of_some hname]
      split <;> rfl

private theorem withComposite_define_of_error {kind : CompositeKind} {name : String}
    {layout : Option LayoutSpec} {f : Failure LayoutError}
    (h : (w.withComposite kind name (define layout)).1 = .error f) :
    (w.withComposite kind name (define layout)).2 =
      (w.declare (.composite kind name none)).2 := by
  rw [declare_bare]
  cases hname : w.scope.registry.composites.get? name with
  | none =>
      rw [withComposite_of_none hname] at h ⊢
      exact define_of_error h
  | some c =>
      rw [withComposite_of_some hname] at h ⊢
      split at h
      · rename_i hkind
        rw [if_pos hkind]
        exact define_of_error h
      · rename_i hkind
        rw [if_neg hkind]

private theorem declare_composite_of_error {kind : CompositeKind} {name : String}
    {layout : Option LayoutSpec} {f : Failure DeclError}
    (h : (w.declare (.composite kind name layout)).1 = .error f) :
    (w.declare (.composite kind name layout)).2 = (w.declare (.composite kind name none)).2 := by
  obtain ⟨g, hg⟩ := conclude_of_error h
  exact withComposite_define_of_error hg

private theorem declareSize_of_error (hw : w.definitions.Sound) {name : String} {size : Nat}
    {f : Failure LayoutError} (h : (w.declareSize name size).1 = .error f) :
    (w.declareSize name size).2 = w := by
  unfold declareSize at h ⊢
  cases hname : w.scope.registry.composites.get? name with
  | some c =>
      simp only [hname] at h ⊢
      exact refine_of_error h
  | none =>
      simp only [hname] at h
      -- Nothing is known yet of the new composite, so setting its least size succeeds.
      have hfresh := hw.fresh (w.definitions.declare .struct name).1 (Nat.le_refl _)
      have hset : (w.introduce .struct name).definitions.setSize
          (w.definitions.declare .struct name).1 size = .ok _ :=
        Definitions.setSize_of_declared hfresh
      rw [withComposite_of_none hname, setSize, hset] at h
      cases h

/-- Where no new composite is declared with a layout, nothing is left behind. -/
theorem declare_of_error (hw : w.definitions.Sound) {d : Declaration} {f : Failure DeclError}
    (h : (w.declare d).1 = .error f) (hd : ∀ kind name, ¬ d.Introduces w.scope kind name) :
    (w.declare d).2.scope = w.scope ∧ (w.declare d).2.definitions = w.definitions := by
  cases d with
  | convention c => cases h
  | enumeration name items => cases h
  | libraries names => exact conclude_step_of_error h
  | typedef existing name => exact conclude_step_of_error h
  | callback name params ret => exact conclude_step_of_error h
  | composite kind name layout =>
      obtain ⟨g, hg⟩ := conclude_of_error h
      have hsome : w.scope.registry.composites.get? name ≠ none := by
        intro hname
        cases layout with
        | none =>
            rw [withComposite_of_none hname] at hg
            cases hg
        | some spec => exact hd kind name ⟨⟨spec, rfl⟩, hname⟩
      obtain ⟨c, hc⟩ := Option.ne_none_iff_exists'.1 hsome
      rw [declare_composite_of_error h, declare_bare, hc]
      exact ⟨rfl, rfl⟩
  | size name size =>
      obtain ⟨g, hg⟩ := conclude_of_error h
      have hsame : (w.declare (.size name size)).2 = w := declareSize_of_error hw hg
      rw [hsame]
      exact ⟨rfl, rfl⟩
  | function d => exact conclude_step_of_error h
  | global d => exact conclude_step_of_error h

/-- After a declaration that fails, the scope and what is known of each composite are as before, up
to the scope's composites. These too are as before, and no composite was declared, unless the
declaration was of a layout for a composite that the scope did not have: then all is as after
declaring that composite without the layout. Hence a composite whose layout was refused can be
declared again with any layout as if none had been given. -/
theorem declare_failed {w : Workspace} (hw : w.Reachable) {d : Declaration}
    {f : Failure DeclError} (h : (w.declare d).1 = .error f) :
    let w' := (w.declare d).2
    (w'.scope = w.scope.withRegistry
        { w.scope.registry with composites := w'.scope.registry.composites } ∧
      w'.definitions.progress = w.definitions.progress) ∧
    ((∀ kind name, ¬ d.Introduces w.scope kind name) →
      w'.scope = w.scope ∧ w'.definitions = w.definitions) ∧
    (∀ kind name, d.Introduces w.scope kind name →
      let c : Composite := ⟨w.definitions.count, kind, name⟩
      w' = (w.declare (.composite kind name none)).2 ∧
        w'.scope.registry.composites = w.scope.registry.composites.insert name c ∧
        w'.definitions = { w.definitions with count := w.definitions.count + 1 } ∧
        w'.definitions.progress c = .declared) ∧
    ∀ kind name layout, d = .composite kind name layout → ∀ l,
      w'.declare (.composite kind name (some l)) =
        (w.declare (.composite kind name none)).2.declare (.composite kind name (some l)) := by
  intro w'
  have hsound : w.definitions.Sound := hw.definitions.sound
  have hnew : ∀ kind name, d.Introduces w.scope kind name →
      w' = (w.declare (.composite kind name none)).2 ∧ w' = w.introduce kind name := by
    rintro kind name ⟨⟨spec, rfl⟩, hname⟩
    have hbare : w' = (w.declare (.composite kind name none)).2 := declare_composite_of_error h
    refine ⟨hbare, hbare.trans ?_⟩
    rw [declare_bare, hname]
  refine ⟨?_, declare_of_error hsound h, ?_, ?_⟩
  · by_cases hd : ∃ kind name, d.Introduces w.scope kind name
    · obtain ⟨kind, name, hd⟩ := hd
      rw [(hnew kind name hd).2]
      exact ⟨rfl, rfl⟩
    · have hsame := declare_of_error hsound h fun kind name hd' => hd ⟨kind, name, hd'⟩
      change w'.scope = w.scope ∧ w'.definitions = w.definitions at hsame
      rw [hsame.1, hsame.2]
      exact ⟨rfl, rfl⟩
  · intro kind name hd c
    obtain ⟨hbare, hintroduce⟩ := hnew kind name hd
    refine ⟨hbare, ?_⟩
    rw [hintroduce]
    exact ⟨rfl, rfl, hsound.fresh c (Nat.le_refl _)⟩
  · rintro kind name layout rfl l
    exact congrArg (declare · _) (declare_composite_of_error h)

/-- A struct cannot hold itself. Declared again, it holds its address. -/
theorem declare_failed_recursive :
    let recursive : Declaration :=
      .composite .struct "node" (some (.keyed [("next", .single (.named "node"))]))
    let linked : LayoutSpec := .keyed [("next", .single (.resolved .pointer))]
    let node : Composite := ⟨0, .struct, "node"⟩
    let w := Sample.workspace
    w.Reachable ∧ (∃ f, (w.declare recursive).1 = .error f) ∧
      recursive.Introduces w.scope .struct "node" ∧
      (w.declare recursive).2.scope.registry.composites =
        w.scope.registry.composites.insert "node" node ∧
      (w.declare recursive).2.definitions.progress node = .declared ∧
      (w.declare recursive).2.declare (.composite .struct "node" (some linked)) =
        (w.declare (.composite .struct "node" none)).2.declare
          (.composite .struct "node" (some linked)) := by
  intro recursive linked node w
  have hfails : ∃ f, (w.declare recursive).1 = .error f := ⟨_, rfl⟩
  have hnew : recursive.Introduces w.scope .struct "node" := ⟨⟨_, rfl⟩, rfl⟩
  obtain ⟨f, hf⟩ := hfails
  obtain ⟨-, -, hintroduced, hagain⟩ := declare_failed Sample.workspace_reachable hf
  obtain ⟨-, hcomposites, -, hprogress⟩ := hintroduced .struct "node" hnew
  exact ⟨Sample.workspace_reachable, ⟨f, hf⟩, hnew, hcomposites, hprogress,
    hagain .struct "node" _ rfl linked⟩

end Workspace

end ForeignBinding
