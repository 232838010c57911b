import ForeignBinding.Proofs.Scope.EnumValues
import ForeignBinding.Proofs.Scope.Shadowing

/-!
# Coherence of registries

The maps of a registry agree with one another. A callback and a named enumeration are aliases too,
so types mean what they would mean if callbacks were not looked up; the symbols with a value are
those of the enumerations; a composite is found under its own name, and there it stays.
-/

namespace ForeignBinding

open Attempt

namespace Registry

variable {r : Registry} {name : String}

/-- The name is an alias. -/
def Aliases (r : Registry) (name : String) : Prop :=
  ∃ d, r.aliases.get? name = some d

/-- What is declared in one map is declared in the other that it belongs to. -/
structure Linked (r : Registry) : Prop where
  callbacks : ∀ name sig, r.callbacks.get? name = some sig → r.Aliases name
  enumerations : ∀ e ∈ r.enumerations, ∀ name, e.name = some name → r.Aliases name
  composites : ∀ name c, r.composites.get? name = some c → c.name = name

/-- All maps agree. -/
structure Coherent (r : Registry) : Prop extends Linked r where
  symbols : ∀ symbol, (∃ value, r.enumValues.get? symbol = some value) ↔
    ∃ e ∈ r.enumerations, symbol ∈ e.symbols

private theorem aliases_insertAlias (r : Registry) (name : String) (d : Descriptor) :
    (r.insertAlias name d).Aliases name :=
  ⟨d, by simp [insertAlias]⟩

private theorem Aliases.insertAlias (h : r.Aliases name) (other : String) (d : Descriptor) :
    (r.insertAlias other d).Aliases name := by
  obtain ⟨d', hd'⟩ := h
  by_cases hname : name = other
  · exact hname ▸ aliases_insertAlias r name d
  · exact ⟨d', by simp [Registry.insertAlias, hname, hd']⟩

private theorem linked_empty : empty.Linked where
  callbacks _ _ h := nomatch h
  enumerations _ h := nomatch h
  composites _ _ h := nomatch h

namespace Linked

private theorem insertAlias (h : r.Linked) (name : String) (d : Descriptor) :
    (r.insertAlias name d).Linked where
  callbacks other sig hsig := (h.callbacks other sig hsig).insertAlias name d
  enumerations e he other hother := (h.enumerations e he other hother).insertAlias name d
  composites := h.composites

private theorem insertEnum (h : r.Linked) (e : Enumeration) : (r.insertEnum e).Linked := by
  have halias : (r.insertEnumAlias e.name).Linked ∧
      ∀ name, e.name = some name → (r.insertEnumAlias e.name).Aliases name := by
    cases e.name with
    | none => exact ⟨h, fun _ hname => nomatch hname⟩
    | some name =>
        refine ⟨h.insertAlias name Enumeration.descriptor, ?_⟩
        rintro other ⟨⟩
        exact aliases_insertAlias r name Enumeration.descriptor
  obtain ⟨hlinked, hname⟩ := halias
  have hall : (r.insertEnumAlias e.name).enumerations = r.enumerations := by
    cases e.name <;> rfl
  refine ⟨hlinked.callbacks, ?_, hlinked.composites⟩
  intro e' he'
  rcases List.mem_append.1 he' with he' | he'
  · exact hlinked.enumerations e' (hall ▸ he')
  · exact List.mem_singleton.1 he' ▸ hname

private theorem insertCallback (h : r.Linked) (name : String) (sig : Signature) :
    (r.insertCallback name sig).Linked := by
  have halias : (r.insertAlias name sig.toDescriptor).Linked :=
    h.insertAlias name sig.toDescriptor
  refine ⟨?_, halias.enumerations, halias.composites⟩
  intro other sig' hsig'
  simp only [Registry.insertCallback, NameMap.get?_insert] at hsig'
  split at hsig'
  · rename_i hname
    exact hname ▸ aliases_insertAlias r name sig.toDescriptor
  · exact halias.callbacks other sig' hsig'

private theorem insertComposite (h : r.Linked) (c : Composite) : (r.insertComposite c).Linked := by
  refine ⟨h.callbacks, h.enumerations, ?_⟩
  intro name c' hc'
  simp only [Registry.insertComposite, NameMap.get?_insert] at hc'
  split at hc'
  · rename_i hname
    cases hc'
    exact hname.symm
  · exact h.composites name c' hc'

end Linked

private theorem Tallied.coherent (h : r.Tallied) (hlinked : r.Linked) : r.Coherent := by
  refine ⟨hlinked, fun symbol => ?_⟩
  rw [← Option.isSome_iff_exists, ← Option.ne_none_iff_isSome, Ne, h.get?_eq_none_iff]
  push Not
  rfl

/-- The registry without its callbacks, which are still aliases. -/
def withoutCallbacks (r : Registry) : Registry :=
  { r with callbacks := .empty }

/-- A name that is no alias is no callback either, so callbacks never decide. -/
theorem Linked.resolve?_withoutCallbacks (h : r.Linked) (name : String) :
    r.withoutCallbacks.resolve? name = r.resolve? name := by
  cases hcomposite : r.composites.get? name with
  | some c => simp [resolve?, withoutCallbacks, hcomposite]
  | none =>
      cases halias : r.aliases.get? name with
      | some d => simp [resolve?, withoutCallbacks, hcomposite, halias]
      | none =>
          have hcallback : r.callbacks.get? name = none := by
            apply Option.eq_none_iff_forall_ne_some.2
            intro sig hsig
            obtain ⟨d, hd⟩ := h.callbacks name sig hsig
            exact nomatch halias.symm.trans hd
          simp [resolve?, withoutCallbacks, hcomposite, halias, hcallback]

end Registry

/-- The resolver of the same registries without their callbacks. -/
def Resolver.withoutCallbacks (r : Resolver) : Resolver :=
  { r with registries := r.registries.map Registry.withoutCallbacks }

namespace Resolver

variable {r : Resolver}

private theorem findSome?_withoutCallbacks {α : Type} {f : Registry → Option α}
    (h : ∀ R ∈ r.registries, f R.withoutCallbacks = f R) :
    r.withoutCallbacks.registries.findSome? f = r.registries.findSome? f := by
  rw [withoutCallbacks, List.findSome?_map, ← List.head?_filterMap, ← List.head?_filterMap]
  exact congrArg List.head? (List.filterMap_congr h)

private theorem resolveName_withoutCallbacks (h : ∀ R ∈ r.registries, R.Linked) (name : String) :
    r.withoutCallbacks.resolveName name = r.resolveName name := by
  have hfind : r.withoutCallbacks.registries.findSome? (·.resolve? name) =
      r.registries.findSome? (·.resolve? name) :=
    findSome?_withoutCallbacks fun R hR => (h R hR).resolve?_withoutCallbacks name
  rw [resolveName, resolveName, hfind]
  rfl

private theorem findComposite?_withoutCallbacks (r : Resolver) (name : String) :
    r.withoutCallbacks.findComposite? name = r.findComposite? name :=
  findSome?_withoutCallbacks fun _ _ => rfl

private theorem resolveByValue_withoutCallbacks (r : Resolver) (t : TypeRef) :
    r.withoutCallbacks.resolveByValue t = r.resolveByValue t := by
  induction t with
  | named name => simp only [resolveByValue, findComposite?_withoutCallbacks]
  | resolved | composite => rfl
  | byValue inner ih => exact ih

private theorem resolve_withoutCallbacks (h : ∀ R ∈ r.registries, R.Linked) (t : TypeRef) :
    r.withoutCallbacks.resolve t = r.resolve t := by
  cases t with
  | named name => exact resolveName_withoutCallbacks h name
  | resolved | composite => rfl
  | byValue inner => exact r.resolveByValue_withoutCallbacks inner

private theorem resolveInline_withoutCallbacks (h : ∀ R ∈ r.registries, R.Linked) (t : TypeRef) :
    r.withoutCallbacks.resolveInline t = r.resolveInline t := by
  cases t with
  | named name =>
      simp only [resolveInline, findComposite?_withoutCallbacks, resolveName_withoutCallbacks h]
  | composite => rfl
  | resolved d => exact resolve_withoutCallbacks h (.resolved d)
  | byValue inner => exact resolve_withoutCallbacks h (.byValue inner)

end Resolver

private theorem Session.Reachable.coherent {t : Session} (ht : t.Reachable) :
    ∀ s ∈ t.scopes, ∀ r ∈ s.registries, r.Coherent := by
  have hlinked : ∀ s ∈ t.scopes, ∀ F ∈ s.frames, F.registry.Linked := by
    apply ht.forall_frames (P := fun F => F.registry.Linked)
    · intro name convention
      exact Registry.linked_empty
    · intro s F hstep hs
      have hown : s.registry.Linked := hs s.frame List.mem_cons_self
      cases hstep with
      | settings | function | global => exact hown
      | @typedef _ _ name d means => exact hown.insertAlias name d
      | enumeration e => exact hown.insertEnum e
      | @callback _ _ _ name sig signs => exact hown.insertCallback name sig
      | @composite c new => exact hown.insertComposite c
  intro s hs r hr
  obtain ⟨F, hF, rfl⟩ := List.mem_map.1 (show r ∈ s.frames.map (·.registry) from hr)
  exact (ht.tallied s hs F.registry hr).coherent (hlinked s hs F hF)

theorem Workspace.Reachable.coherent {w : Workspace} (hw : w.Reachable) :
    ∀ r ∈ w.scope.registries, r.Coherent :=
  hw.holds (P := fun s _ => ∀ r ∈ s.registries, r.Coherent) fun _ ht => ht.coherent

namespace Scope

/-- The scope after an operation on it, whatever the definitions were by then. -/
def Next (s s' : Scope) : Prop :=
  ∃ (w : Workspace) (a : Action), w.scope = s ∧ (w.act a).scope = s'

/-- The scope after operations on it, with any operations elsewhere in between. -/
abbrev Becomes : Scope → Scope → Prop :=
  Relation.ReflTransGen Next

/-- The name has this composite in the scope. To declare it with the other kind is refused, with the
same kind gives the composite that is there, and its size is that of this composite. -/
structure Keeps (s : Scope) (name : String) (c : Composite) : Prop where
  declared : s.registry.composites.get? name = some c
  existing : ∀ defs, s.declareComposite defs c.kind name = .ok (c, s, defs)
  clash : ∀ defs kind, kind ≠ c.kind →
    s.declareComposite defs kind name = .fail (.kindClash name c.kind)
  refused : ∀ (w : Workspace) kind layout, w.scope = s → kind ≠ c.kind →
    w.declare (.composite kind name layout) =
      Workspace.conclude (.composite kind name layout)
        (.fail (LayoutError.kindClash name c.kind), w)
  again : ∀ w : Workspace, w.scope = s →
    w.declare (.composite c.kind name none) = (.ok (.composite c), w)
  redeclared : ∀ (w : Workspace) layout x, w.scope = s →
    (w.declare (.composite c.kind name layout)).1 = .ok x → x = .composite c
  sized : ∀ (w : Workspace) size x, w.scope = s →
    (w.declare (.size name size)).1 = .ok x → x = .composite c

variable {s s' : Scope} {name : String} {c : Composite}

private theorem Next.composites (h : s.Next s') (hc : s.registry.composites.get? name = some c) :
    s'.registry.composites.get? name = some c := by
  obtain ⟨w, a, rfl, rfl⟩ := h
  exact (w.act_frameStep a).composites hc

theorem Becomes.composites (h : s.Becomes s') (hc : s.registry.composites.get? name = some c) :
    s'.registry.composites.get? name = some c := by
  induction h with
  | refl => exact hc
  | tail _ hnext ih => exact hnext.composites ih

end Scope

namespace Workspace

variable {w : Workspace} {name : String} {c : Composite}

theorem becomes_actAll (w : Workspace) (as : List Action) :
    w.scope.Becomes (w.actAll as).scope := by
  induction as generalizing w with
  | nil => exact .refl
  | cons a as ih => exact .head ⟨w, a, rfl, rfl⟩ (ih (w.act a))

private theorem eq_composite_of_refine {a : Attempt LayoutError Definitions} {x : Declared}
    (h : (w.refine c a).1 = .ok x) : x = .composite c := by
  cases a with
  | error f => cases h
  | ok defs => exact (Except.ok.inj h).symm

private theorem eq_composite_of_define {layout : Option LayoutSpec} {x : Declared}
    (h : (define layout w c).1 = .ok x) : x = .composite c := by
  cases layout with
  | none => exact (Except.ok.inj h).symm
  | some spec => exact eq_composite_of_refine h

private theorem declare_composite_of_some {kind : CompositeKind} {layout : Option LayoutSpec}
    (hc : w.scope.registry.composites.get? name = some c) :
    w.declare (.composite kind name layout) =
      conclude (.composite kind name layout) (if c.kind = kind then define layout w c
        else (.fail (LayoutError.kindClash name c.kind), w)) := by
  rw [← withComposite_of_some hc]
  rfl

private theorem declare_size_of_some {size : Nat}
    (hc : w.scope.registry.composites.get? name = some c) :
    w.declare (.size name size) = conclude (.size name size) (setSize size w c) := by
  change conclude _ (w.declareSize name size) = _
  simp only [declareSize, hc]

end Workspace

private theorem Scope.keeps_of_composites {s : Scope} {name : String} {c : Composite}
    (hc : s.registry.composites.get? name = some c) : s.Keeps name c where
  declared := hc
  existing defs := by simp only [declareComposite, hc, if_pos]
  clash defs kind hkind := by simp only [declareComposite, hc, if_neg hkind.symm]
  refused w kind layout hw hkind := by
    subst hw
    rw [Workspace.declare_composite_of_some hc, if_neg hkind.symm]
  again w hw := by
    subst hw
    rw [Workspace.declare_composite_of_some hc, if_pos rfl]
    rfl
  redeclared w layout x hw hx := by
    subst hw
    rw [Workspace.declare_composite_of_some hc, if_pos rfl] at hx
    exact Workspace.eq_composite_of_define (under_eq_ok.1 hx)
  sized w size x hw hx := by
    subst hw
    rw [Workspace.declare_size_of_some hc] at hx
    exact Workspace.eq_composite_of_refine (under_eq_ok.1 hx)

/-- In a scope and those around it, a callback and a named enumeration are aliases too, the symbols
with a value are those of the enumerations, and a composite is found under its own name. So every
type means what it would mean if callbacks were never looked up. A composite that the scope
declares stays the one of its name through whatever is done later, and is never declared anew. -/
theorem Workspace.registries_coherent {w : Workspace} (hw : w.Reachable) :
    (∀ r ∈ w.scope.registries, r.Coherent) ∧
      (∀ t, w.scope.resolver.withoutCallbacks.resolve t = w.scope.resolver.resolve t ∧
        w.scope.resolver.withoutCallbacks.resolveInline t = w.scope.resolver.resolveInline t) ∧
      ∀ name c, w.scope.registry.composites.get? name = some c →
        c.name = name ∧ ∀ s, w.scope.Becomes s → s.Keeps name c := by
  have hcoherent : ∀ r ∈ w.scope.registries, r.Coherent := hw.coherent
  have hlinked : ∀ r ∈ w.scope.resolver.registries, r.Linked :=
    fun r hr => (hcoherent r hr).toLinked
  refine ⟨hcoherent, fun t => ⟨?_, ?_⟩, ?_⟩
  · exact Resolver.resolve_withoutCallbacks hlinked t
  · exact Resolver.resolveInline_withoutCallbacks hlinked t
  · intro name c hc
    refine ⟨(hcoherent w.scope.registry List.mem_cons_self).composites name c hc, ?_⟩
    intro s hs
    exact Scope.keeps_of_composites (hs.composites hc)

-- The scope has a callback, an enumeration and a struct. Then an alias takes the struct's name,
-- and its size is set.
namespace Sample

def mixed : Workspace :=
  workspace.actAll
    [.declare (.callback (some "handler") [.resolved (.prim .int32)] (.resolved (.prim .void))),
      .declare (.enumeration (some "state") states), .declare (.composite .struct "cell" none)]

private theorem mixed_reachable : mixed.Reachable :=
  ((workspace_reachable.declare _).declare _).declare _

def overCell : List Action :=
  [.declare (.typedef (.resolved (.prim .int8)) "cell"), .declare (.size "cell" 8),
    .declare (.composite .union "cell" none)]

private theorem composites_mixed : mixed.scope.registry.composites.get? "cell" = some cell := rfl

end Sample

theorem Workspace.registries_coherent_mixed :
    let later := Sample.mixed.actAll Sample.overCell
    Sample.mixed.Reachable ∧
      (∃ sig, Sample.mixed.scope.registry.callbacks.get? "handler" = some sig) ∧
      Sample.mixed.scope.registry.Aliases "handler" ∧
      Sample.mixed.scope.registry.Aliases "state" ∧
      (∃ value, Sample.mixed.scope.registry.enumValues.get? "lost" = some value) ∧
      Sample.mixed.scope.resolver.withoutCallbacks.resolve (.named "handler") =
        .ok (.callback [.prim .int32] (.prim .void) .standard) ∧
      later.scope.registry.Aliases "cell" ∧
      later.scope.registry.composites.get? "cell" = some Sample.cell ∧
      later.declare (.composite .struct "cell" none) = (.ok (.composite Sample.cell), later) ∧
      (later.scope.declareComposite later.definitions .union "cell").FailsWith
        (.kindClash "cell" .struct) := by
  intro later
  obtain ⟨hcoherent, hsame, hkept⟩ := registries_coherent Sample.mixed_reachable
  have hown := hcoherent Sample.mixed.scope.registry List.mem_cons_self
  have hcallback : ∃ sig, Sample.mixed.scope.registry.callbacks.get? "handler" = some sig :=
    ⟨_, rfl⟩
  have hstate : Sample.state ∈ Sample.mixed.scope.registry.enumerations := List.mem_cons_self
  have hlost : "lost" ∈ Sample.state.symbols := by decide
  have hhandler : Sample.mixed.scope.resolver.resolve (.named "handler") =
      .ok (.callback [.prim .int32] (.prim .void) .standard) := rfl
  obtain ⟨-, hstays⟩ := hkept "cell" Sample.cell Sample.composites_mixed
  have hkeeps : later.scope.Keeps "cell" Sample.cell :=
    hstays later.scope (Sample.mixed.becomes_actAll Sample.overCell)
  obtain ⟨sig, hsig⟩ := hcallback
  refine ⟨Sample.mixed_reachable, ⟨sig, hsig⟩, hown.callbacks "handler" sig hsig,
    hown.enumerations Sample.state hstate "state" rfl, (hown.symbols "lost").2 ⟨_, hstate, hlost⟩,
    (hsame (.named "handler")).1.trans hhandler, ⟨.prim .int8, rfl⟩, hkeeps.declared,
    hkeeps.again later rfl, ?_⟩
  rw [hkeeps.clash later.definitions .union (by decide)]
  exact failsWith_fail _

end ForeignBinding
