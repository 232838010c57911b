import ForeignBinding.Proofs.Declaration.Lifecycle
import ForeignBinding.Proofs.Scope.Coherence

/-!
# What declarations of types change

A declaration of an alias, a callback, a composite or a size that succeeds changes what the scope
has under one name, in a way that depends on nothing that it has under other names. So two such
changes under different names lead to the same in either order, up to the identity of composites.
-/

namespace ForeignBinding

open Attempt

/-- The declaration is of a type that is made of others, or of its size. -/
def Declaration.isDerived : Declaration → Bool
  | typedef .. | callback .. | composite .. | size .. => true
  | _ => false

/-- What is stored under a name, or becomes known of the composite of a name. -/
inductive Change where
  | typedef (name : String) (d : Descriptor)
  | callback (name : Option String) (sig : Signature)
  /-- A composite that is not there yet is declared. -/
  | composite (kind : CompositeKind) (name : String) (progress : Option Progress)

def Change.name? : Change → Option String
  | typedef name _ | composite _ name _ => some name
  | callback name _ => name

def Change.isComposite : Change → Bool
  | composite .. => true
  | typedef .. | callback .. => false

namespace Workspace

/-- The composite of a name, in the workspace where it has been declared. -/
def ensure (w : Workspace) (kind : CompositeKind) (name : String) : Workspace × Composite :=
  match w.scope.registry.composites.get? name with
  | some c => (w, c)
  | none => (w.introduce kind name, (w.definitions.declare kind name).1)

def advance (w : Workspace) (c : Composite) : Option Progress → Workspace
  | none => w
  | some p => { w with definitions := w.definitions.set c p }

def apply (w : Workspace) : Change → Workspace
  | .typedef name d =>
      { w with scope := w.scope.withRegistry (w.scope.registry.insertAlias name d) }
  | .callback name sig => { w with scope := w.scope.withCallback name sig }
  | .composite kind name progress =>
      let (w', c) := w.ensure kind name
      w'.advance c progress

/-- The declaration succeeds with this change. -/
inductive Amounts (w : Workspace) : Declaration → Change → Prop
  | typedef {existing : TypeRef} {d : Descriptor} (name : String)
      (means : w.scope.findType existing = .ok d) :
      Amounts w (.typedef existing name) (.typedef name d)
  | callback {params : List TypeRef} {ret : TypeRef} {sig : Signature} (name : Option String)
      (signs : w.scope.Signs params ret sig) :
      Amounts w (.callback name params ret) (.callback name sig)
  | bare (kind : CompositeKind) (name : String) :
      Amounts w (.composite kind name none) (.composite kind name none)
  | layout {kind : CompositeKind} {name : String} {spec : LayoutSpec} {l : Layout}
      {w' : Workspace} {c : Composite} (ensured : w.ensure kind name = (w', c))
      (unlaid : w'.definitions.layout? c = none)
      (computed : Layout.compute w'.definitions w'.scope.resolver kind
        (w'.definitions.progress c).floor spec = .ok l) :
      Amounts w (.composite kind name (some spec)) (.composite kind name (some (.computed l)))
  | size (name : String) (n : Nat) :
      Amounts w (.size name n) (.composite .struct name (some (.floored n)))

variable {w w' : Workspace} {d : Declaration} {ch : Change} {kind : CompositeKind} {name : String}

theorem Amounts.name?_eq (h : w.Amounts d ch) : ch.name? = d.type? := by
  cases h <;> rfl

private theorem ensure_of_some {c : Composite}
    (h : w.scope.registry.composites.get? name = some c) : w.ensure kind name = (w, c) := by
  simp only [ensure, h]

private theorem ensure_of_none (h : w.scope.registry.composites.get? name = none) :
    w.ensure kind name = (w.introduce kind name, (w.definitions.declare kind name).1) := by
  simp only [ensure, h]

theorem ensure_eq_declare (w : Workspace) (kind : CompositeKind) (name : String) :
    (w.ensure kind name).1 = (w.declare (.composite kind name none)).2 := by
  rw [declare_bare]
  unfold ensure
  cases w.scope.registry.composites.get? name <;> rfl

theorem Reachable.ensure (hw : w.Reachable) (kind : CompositeKind) (name : String) :
    (w.ensure kind name).1.Reachable := by
  rw [ensure_eq_declare]
  exact hw.declare _

private theorem get?_ensure (w : Workspace) (kind : CompositeKind) (name other : String) :
    (w.ensure kind name).1.scope.registry.composites.get? other =
      if other = name then some (w.ensure kind name).2
      else w.scope.registry.composites.get? other := by
  cases hname : w.scope.registry.composites.get? name with
  | some c =>
      rw [ensure_of_some hname]
      split
      · rename_i heq
        exact heq ▸ hname
      · rfl
  | none =>
      rw [ensure_of_none hname]
      exact w.get?_introduce kind name other

theorem get?_ensure_self (w : Workspace) (kind : CompositeKind) (name : String) :
    (w.ensure kind name).1.scope.registry.composites.get? name = some (w.ensure kind name).2 := by
  rw [get?_ensure, if_pos rfl]

theorem progress_ensure (w : Workspace) (kind : CompositeKind) (name : String) :
    (w.ensure kind name).1.definitions.progress = w.definitions.progress := by
  unfold ensure
  split <;> rfl

private theorem withComposite_eq_ok
    {next : Workspace → Composite → Attempt LayoutError Declared × Workspace} {x : Declared}
    (h : w.withComposite kind name next = (.ok x, w')) :
    (w.ensure kind name).2.kind = kind ∧
      next (w.ensure kind name).1 (w.ensure kind name).2 = (.ok x, w') := by
  cases hname : w.scope.registry.composites.get? name with
  | none =>
      rw [withComposite_of_none hname] at h
      rw [ensure_of_none hname]
      exact ⟨rfl, h⟩
  | some c =>
      rw [withComposite_of_some hname] at h
      rw [ensure_of_some hname]
      split at h
      · rename_i hkind
        exact ⟨hkind, h⟩
      · cases h

private theorem declareSize_eq (w : Workspace) (name : String) (size : Nat) :
    w.declareSize name size =
      setSize size (w.ensure .struct name).1 (w.ensure .struct name).2 := by
  unfold declareSize
  cases hname : w.scope.registry.composites.get? name with
  | none => rw [ensure_of_none hname, withComposite_of_none hname]
  | some c => rw [ensure_of_some hname]

private theorem conclude_eq_ok {ε : Type} [IsCause ε] {outcome : Attempt ε Declared × Workspace}
    {x : Declared} (h : conclude d outcome = (.ok x, w')) : outcome = (.ok x, w') := by
  obtain ⟨hresult, hw⟩ := Prod.mk.inj h
  exact Prod.ext (under_eq_ok.1 hresult) hw

private theorem step_eq_ok {ε α : Type} {made : α → Declared} {a : Attempt ε (α × Scope)}
    {x : Declared} (h : w.step made a = (.ok x, w')) :
    ∃ y s, a = .ok (y, s) ∧ w' = { w with scope := s } := by
  cases a with
  | error f => cases h
  | ok y =>
      cases h
      exact ⟨y.1, y.2, rfl, rfl⟩

theorem amounts_of_declare (hd : d.isDerived) {x : Declared} (h : w.declare d = (.ok x, w')) :
    ∃ ch, w.Amounts d ch ∧ w' = w.apply ch := by
  cases d with
  | typedef existing name =>
      obtain ⟨d, s, hdone, rfl⟩ := step_eq_ok (conclude_eq_ok h)
      obtain ⟨hmeans, rfl⟩ := Scope.typedef_eq_ok hdone
      exact ⟨_, .typedef name hmeans, rfl⟩
  | callback name params ret =>
      obtain ⟨d, s, hdone, rfl⟩ := step_eq_ok (conclude_eq_ok h)
      obtain ⟨sig, hsig, -, rfl⟩ := Scope.callback_eq_ok hdone
      exact ⟨_, .callback name (Scope.signature_eq_ok_iff.1 hsig), rfl⟩
  | composite kind name layout =>
      obtain ⟨hkind, hdone⟩ := withComposite_eq_ok (conclude_eq_ok h)
      cases layout with
      | none =>
          cases hdone
          exact ⟨_, .bare kind name, rfl⟩
      | some spec =>
          obtain ⟨defs, hdefs, rfl⟩ := refine_eq_ok hdone
          obtain ⟨⟨l, defs'⟩, hdefine, rfl⟩ := map_eq_ok.1 hdefs
          obtain ⟨hnone, hcompute, rfl⟩ := Definitions.define_eq_ok hdefine
          rw [hkind] at hcompute
          exact ⟨_, .layout rfl hnone hcompute, rfl⟩
  | size name n =>
      have hdone := conclude_eq_ok h
      rw [declareSize_eq] at hdone
      obtain ⟨defs, hset, rfl⟩ := refine_eq_ok hdone
      obtain ⟨-, rfl⟩ := Definitions.setSize_eq_ok hset
      exact ⟨_, .size name n, rfl⟩
  | libraries | convention | enumeration | function | global => cases hd

end Workspace

namespace Scope

/-- The scope with neither aliases, callbacks nor composites. -/
def untyped (s : Scope) : Scope :=
  s.withRegistry
    { s.registry with aliases := .empty, callbacks := .empty, composites := .empty }

end Scope

/-- What a scope itself has under a name, where a composite is what is known of it. -/
structure Entry where
  alias? : Option Descriptor
  callback? : Option Signature
  composite? : Option (CompositeKind × Progress)

/-- What there is under the name of a change after it. -/
def Change.revise (ch : Change) (e : Entry) : Entry :=
  match ch with
  | typedef _ d => { e with alias? := some d }
  | callback _ sig => { e with alias? := some sig.toDescriptor, callback? := some sig }
  | composite kind _ progress =>
      let (k, p) := e.composite?.getD (kind, .declared)
      { e with composite? := some (k, progress.getD p) }

namespace Workspace

variable {w : Workspace} {ch ch₁ ch₂ : Change} {kind : CompositeKind} {name : String}

def entry (w : Workspace) (name : String) : Entry where
  alias? := w.scope.registry.aliases.get? name
  callback? := w.scope.registry.callbacks.get? name
  composite? := (w.scope.registry.composites.get? name).map fun c =>
    (c.kind, w.definitions.progress c)

theorem Reachable.linked (h : w.Reachable) : w.scope.registry.Linked :=
  (h.coherent w.scope.registry List.mem_cons_self).toLinked

theorem entry_ensure (hw : w.Reachable) (other : String) :
    (w.ensure kind name).1.entry other =
      if other = name then (Change.composite kind name none).revise (w.entry name)
      else w.entry other := by
  cases hname : w.scope.registry.composites.get? name with
  | some c =>
      rw [ensure_of_some hname]
      split
      · rename_i heq
        simp [heq, entry, Change.revise, hname]
      · rfl
  | none =>
      rw [ensure_of_none hname]
      have hfresh : w.definitions.progress (w.definitions.declare kind name).1 = .declared :=
        hw.definitions.sound.fresh _ (Nat.le_refl _)
      have hentry : (w.introduce kind name).entry other =
          { w.entry other with
            composite? := ((w.introduce kind name).scope.registry.composites.get? other).map
              fun c => (c.kind, w.definitions.progress c) } := rfl
      rw [hentry, get?_introduce]
      split
      · rename_i heq
        have hkind : (w.definitions.declare kind name).1.kind = kind := rfl
        simp [heq, entry, Change.revise, hname, hfresh, hkind]
      · rfl

private theorem scope_advance (w : Workspace) (c : Composite) (progress : Option Progress) :
    (w.advance c progress).scope = w.scope := by
  cases progress <;> rfl

private theorem entry_advance (hlinked : w.scope.registry.Linked) {c : Composite}
    (hc : w.scope.registry.composites.get? name = some c) (kind : CompositeKind)
    (progress : Option Progress) (other : String) :
    (w.advance c progress).entry other =
      if other = name then (Change.composite kind name progress).revise (w.entry name)
      else w.entry other := by
  cases progress with
  | none =>
      split
      · rename_i heq
        simp [advance, heq, entry, Change.revise, hc]
      · rfl
  | some p =>
      split
      · rename_i heq
        simp [advance, heq, entry, Change.revise, hc]
      · rename_i hne
        have hkept : ∀ c', w.scope.registry.composites.get? other = some c' → c' ≠ c := by
          intro c' hc' heq
          exact hne ((hlinked.composites other c' hc').symm.trans
            (heq ▸ hlinked.composites name c hc))
        cases hother : w.scope.registry.composites.get? other with
        | none => simp [advance, entry, hother]
        | some c' => simp [advance, entry, hother, hkept c' hother]

/-- A change concerns what there is under its name, and depends on nothing else. -/
theorem entry_apply (hw : w.Reachable) (ch : Change) (other : String) :
    (w.apply ch).entry other =
      if ch.name? = some other then ch.revise (w.entry other) else w.entry other := by
  cases ch with
  | typedef name d =>
      by_cases hname : other = name
      · simp [apply, entry, Change.name?, Change.revise, Scope.withRegistry, Scope.registry,
          Registry.insertAlias, hname]
      · simp [apply, entry, Change.name?, Scope.withRegistry, Scope.registry,
          Registry.insertAlias, hname, Ne.symm hname]
  | callback name? sig =>
      cases name? with
      | none => rfl
      | some name =>
          by_cases hname : other = name
          · simp [apply, entry, Change.name?, Change.revise, Scope.withCallback,
              Scope.withRegistry, Scope.registry, Registry.insertCallback, Registry.insertAlias,
              hname]
          · simp [apply, entry, Change.name?, Scope.withCallback, Scope.withRegistry,
              Scope.registry, Registry.insertCallback, Registry.insertAlias, hname,
              Ne.symm hname]
  | composite kind name progress =>
      change ((w.ensure kind name).1.advance (w.ensure kind name).2 progress).entry other = _
      rw [entry_advance (hw.ensure kind name).linked (w.get?_ensure_self kind name) kind,
        entry_ensure hw, entry_ensure hw]
      by_cases hname : other = name
      · subst hname
        simp [Change.name?, Change.revise]
      · simp [Change.name?, hname, Ne.symm hname]

theorem untyped_apply (w : Workspace) (ch : Change) :
    (w.apply ch).scope.untyped = w.scope.untyped := by
  cases ch with
  | typedef name d => rfl
  | callback name sig => cases name <;> rfl
  | composite kind name progress =>
      change ((w.ensure kind name).1.advance (w.ensure kind name).2 progress).scope.untyped = _
      rw [scope_advance]
      unfold ensure
      split <;> rfl

private theorem apply_of_not_isComposite (w : Workspace) (h : ch.isComposite = false) :
    (w.apply ch).scope.registry.composites = w.scope.registry.composites ∧
      (w.apply ch).definitions = w.definitions := by
  cases ch with
  | typedef => exact ⟨rfl, rfl⟩
  | callback name => cases name <;> exact ⟨rfl, rfl⟩
  | composite => cases h

private theorem definitions_apply_congr {w w' : Workspace}
    (hcomposites : w.scope.registry.composites = w'.scope.registry.composites)
    (hdefs : w.definitions = w'.definitions) (ch : Change) :
    (w.apply ch).definitions = (w'.apply ch).definitions := by
  cases ch with
  | typedef | callback => exact hdefs
  | composite kind name progress =>
      have hensure : (w.ensure kind name).1.definitions = (w'.ensure kind name).1.definitions ∧
          (w.ensure kind name).2 = (w'.ensure kind name).2 := by
        unfold ensure
        rw [hcomposites]
        split <;> simp [introduce, hdefs]
      obtain ⟨hdefinitions, hcomposite⟩ := hensure
      change ((w.ensure kind name).1.advance (w.ensure kind name).2 progress).definitions =
        ((w'.ensure kind name).1.advance (w'.ensure kind name).2 progress).definitions
      cases progress <;> simp [advance, hdefinitions, hcomposite]

theorem definitions_apply_comm (w : Workspace) (h : ch₁.isComposite = false) :
    ((w.apply ch₁).apply ch₂).definitions = ((w.apply ch₂).apply ch₁).definitions := by
  obtain ⟨hcomposites, hdefs⟩ := w.apply_of_not_isComposite h
  obtain ⟨-, hlast⟩ := (w.apply ch₂).apply_of_not_isComposite h
  calc ((w.apply ch₁).apply ch₂).definitions
      = (w.apply ch₂).definitions := definitions_apply_congr hcomposites hdefs ch₂
    _ = ((w.apply ch₂).apply ch₁).definitions := hlast.symm

theorem stores_apply {Q : Descriptor → Prop} (h : ch.isComposite)
    (hw : w.scope.frame.Stores Q) : (w.apply ch).scope.frame.Stores Q := by
  obtain ⟨haliases, hcallbacks⟩ := hw
  cases ch with
  | typedef | callback => cases h
  | composite kind name progress =>
      change ((w.ensure kind name).1.advance (w.ensure kind name).2 progress).scope.frame.Stores Q
      rw [scope_advance]
      unfold ensure
      split <;> exact ⟨haliases, hcallbacks⟩

/-- The workspaces have the same under all names, up to the identity of composites. -/
structure Matches (w w' : Workspace) : Prop where
  untyped : w.scope.untyped = w'.scope.untyped
  entry : ∀ name, w.entry name = w'.entry name

/-- Changes under different names commute. -/
theorem matches_apply (hw : w.Reachable) (h₁ : (w.apply ch₁).Reachable)
    (h₂ : (w.apply ch₂).Reachable) (hne : ∀ name, ch₁.name? = some name → ch₂.name? ≠ some name) :
    ((w.apply ch₁).apply ch₂).Matches ((w.apply ch₂).apply ch₁) := by
  constructor
  · simp only [untyped_apply]
  · intro name
    rw [entry_apply h₁, entry_apply hw, entry_apply h₂, entry_apply hw]
    by_cases hname : ch₁.name? = some name
    · simp [hname, hne name hname]
    · simp [hname]

end Workspace

end ForeignBinding
