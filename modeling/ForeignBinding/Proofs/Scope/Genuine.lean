import ForeignBinding.Proofs.Scope.Frames

/-!
# Composites that have been declared

A handle of a composite is had only by declaring one. So where operations are written with
composites that are there, all that scopes store mentions composites that are there.
-/

namespace ForeignBinding

open Attempt

/-- All composites in the descriptor have been declared. -/
inductive Descriptor.Known (defs : Definitions) : Descriptor → Prop
  | prim (p : Prim) : Known defs (.prim p)
  | composite {c : Composite} (declared : c.id < defs.count) : Known defs (.composite c)
  | byValue {c : Composite} (declared : c.id < defs.count) : Known defs (.byValue c)
  | callback {params : List Descriptor} {ret : Descriptor} (convention : Convention)
      (params_known : ∀ d ∈ params, Known defs d) (ret_known : Known defs ret) :
      Known defs (.callback params ret convention)

/-- The reference is written with composites that have been declared. -/
def TypeRef.Known (defs : Definitions) : TypeRef → Prop
  | named _ => True
  | resolved d => d.Known defs
  | composite c => c.id < defs.count
  | byValue t => t.Known defs

variable {defs defs' : Definitions}

theorem Descriptor.Known.mono {d : Descriptor} (h : d.Known defs)
    (hcount : defs.count ≤ defs'.count) : d.Known defs' := by
  induction h with
  | prim p => exact .prim p
  | composite declared => exact .composite (declared.trans_le hcount)
  | byValue declared => exact .byValue (declared.trans_le hcount)
  | callback convention _ _ ihparams ihret => exact .callback convention ihparams ihret

private theorem Descriptor.Known.of_composite? {d : Descriptor} {c : Composite} (h : d.Known defs)
    (hc : d.composite? = some c) : c.id < defs.count := by
  cases h with
  | composite declared | byValue declared =>
      cases hc
      exact declared
  | prim | callback => cases hc

/-- All that the scope sees under names of types has been declared, down to its composites. -/
structure Scope.Grounded (s : Scope) (defs : Definitions) : Prop where
  stored : ∀ F ∈ s.frames, F.Stores (Descriptor.Known defs)
  composites : ∀ F ∈ s.frames, ∀ name c, F.registry.composites.get? name = some c →
    c.id < defs.count

namespace Scope.Grounded

variable {s : Scope}

private theorem of_findComposite? (h : s.Grounded defs) {name : String} {c : Composite}
    (hc : s.resolver.findComposite? name = some c) : c.id < defs.count := by
  obtain ⟨R, hR, hname⟩ := List.exists_of_findSome?_eq_some hc
  obtain ⟨F, hF, rfl⟩ := List.mem_map.1 (show R ∈ s.frames.map (·.registry) from hR)
  exact h.composites F hF name c hname

private theorem of_resolveByValue (h : s.Grounded defs) {t : TypeRef} (ht : t.Known defs)
    {d : Descriptor} (hd : s.resolver.resolveByValue t = .ok d) : d.Known defs := by
  induction t with
  | byValue inner ih => exact ih ht hd
  | composite c =>
      cases hd
      exact .byValue ht
  | named name =>
      rw [Resolver.resolveByValue] at hd
      split at hd
      · rename_i c hc
        cases hd
        exact .byValue (h.of_findComposite? hc)
      · cases hd
  | resolved d' =>
      rw [Resolver.resolveByValue] at hd
      split at hd
      · rename_i c hc
        cases hd
        exact .byValue (Descriptor.Known.of_composite? ht hc)
      · cases hd

private theorem of_findType (h : s.Grounded defs) {t : TypeRef} (ht : t.Known defs) {d : Descriptor}
    (hd : s.findType t = .ok d) : d.Known defs := by
  cases t with
  | named name => exact of_findType_named .prim h.stored hd
  | byValue inner => exact h.of_resolveByValue ht hd
  | resolved d' =>
      cases hd
      exact ht
  | composite c =>
      cases hd
      exact .prim _

end Scope.Grounded

private theorem Scope.FrameStep.stores_known {s : Scope} {T : TypeRef → Prop} {F : Frame}
    (h : s.FrameStep T F) (hs : s.frame.Stores (Descriptor.Known defs))
    (hmeans : ∀ t, T t → ∀ d, s.findType t = .ok d → d.Known defs) :
    F.Stores (Descriptor.Known defs) := by
  apply h.stores hs .prim
  · intro sig hparams hret
    exact .callback sig.convention hparams hret
  · exact hmeans

/-- The workspace of a scope in a session whose operations are written with composites that have
been declared. -/
def Workspace.Genuine (w : Workspace) : Prop :=
  ∃ t : Session, t.ReachableWith TypeRef.Known ∧ t.Has w

namespace Workspace

variable {w : Workspace}

theorem Genuine.reachable (h : w.Genuine) : w.Reachable := by
  obtain ⟨t, ht, hw⟩ := h
  exact ⟨t, ht.reachable, hw⟩

theorem Genuine.declare (h : w.Genuine) {d : Declaration}
    (hrefs : ∀ t ∈ d.refs, t.Known w.definitions) : (w.declare d).2.Genuine := by
  obtain ⟨t, ht, hw⟩ := h
  exact ⟨_, .tail ht (.declare hw (hw.definitions_eq ▸ hrefs)), List.mem_cons_self, rfl⟩

theorem Reachable.composites_known (h : w.Reachable) :
    ∀ F ∈ w.scope.frames, ∀ name c, F.registry.composites.get? name = some c →
      c.id < w.definitions.count := by
  have hseparate : w.scope.Separate w.definitions := h.holds fun _ ht => ht.separate
  refine List.forall_mem_cons.2 ⟨h.known, ?_⟩
  intro F hF name c hc
  exact (hseparate F hF name c hc).1

theorem Genuine.grounded (h : w.Genuine) : w.scope.Grounded w.definitions := by
  refine ⟨?_, h.reachable.composites_known⟩
  obtain ⟨t, ht, hhas⟩ := h
  have hstored : ∀ s ∈ t.scopes, ∀ F ∈ s.frames, F.Stores (Descriptor.Known t.definitions) := by
    apply ht.forall_frames (P := fun F defs => F.Stores (Descriptor.Known defs))
    · intro name convention defs
      exact ⟨nofun, nofun⟩
    · intro w F hw hstep hframes
      have hgrounded : w.scope.Grounded w.definitions := ⟨hframes, hw.composites_known⟩
      apply hstep.stores_known (hframes w.scope.frame List.mem_cons_self)
      intro t ht d hd
      exact hgrounded.of_findType ht hd
    · intro F defs defs' hrun hF
      exact ⟨fun name d hd => (hF.aliases name d hd).mono hrun.count_le,
        fun name sig hsig => (hF.callbacks name sig hsig).mono hrun.count_le⟩
  exact hhas.definitions_eq ▸ hstored w.scope hhas.scope_mem

end Workspace

end ForeignBinding
