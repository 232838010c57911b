import ForeignBinding.Proofs.Scope.Ancestors

/-!
# What frames are made of

An operation changes the frame of its scope in one of a few ways, each of them with the types that
it is written with. So what holds of an empty frame, and through each of these changes, holds of
the frames of all scopes.
-/

namespace ForeignBinding

open Attempt

/-- The types of the fields as they are written. -/
def LayoutSpec.refs (spec : LayoutSpec) : List TypeRef :=
  spec.fields.map (·.type.ref)

/-- The types that a declaration is written with. -/
def Declaration.refs : Declaration → List TypeRef
  | typedef existing _ => [existing]
  | callback _ params ret => ret :: params
  | composite _ _ layout => (layout.map LayoutSpec.refs).getD []
  | function d => d.ret :: d.params
  | global d => [d.type]
  | libraries _ | convention _ | enumeration .. | size .. => []

namespace Scope

/-- The frames that the scope sees, its own first. -/
def frames (s : Scope) : List Frame :=
  s.frame :: s.ancestors

/-- What an operation that is written with types of which `T` holds makes of the scope's frame. -/
inductive FrameStep (T : TypeRef → Prop) (s : Scope) : Frame → Prop
  | settings (libraries : Option LibrarySet) (convention : Convention) :
      FrameStep T s { s.frame with libraries, convention }
  | typedef {existing : TypeRef} (ref : T existing) (name : String) {d : Descriptor}
      (means : s.findType existing = .ok d) :
      FrameStep T s { s.frame with registry := s.registry.insertAlias name d }
  | enumeration (e : Enumeration) :
      FrameStep T s { s.frame with registry := s.registry.insertEnum e }
  | callback {params : List TypeRef} {ret : TypeRef} (refs : ∀ t ∈ ret :: params, T t)
      (name : String) {sig : Signature} (signs : s.Signs params ret sig) :
      FrameStep T s { s.frame with registry := s.registry.insertCallback name sig }
  | composite {c : Composite} (new : s.registry.composites.get? c.name = none) :
      FrameStep T s { s.frame with registry := s.registry.insertComposite c }
  | function {d : FunctionDecl} (refs : ∀ t ∈ d.ret :: d.params, T t) {b : FunctionBinding}
      (signs : s.Signs d.params d.ret b.signature) :
      FrameStep T s { s.frame with bindings := s.frame.bindings.insert d.name (.ofFunction b) }
  | global {d : VariableDecl} (ref : T d.type) {defs : Definitions} {libraries : LibrarySet}
      {b : VariableBinding}
      (attached : ForeignBinding.attachVariable d defs s.resolver libraries = .ok b) :
      FrameStep T s { s.frame with bindings := s.frame.bindings.insert d.name (.ofVariable b) }

variable {s : Scope} {T T' : TypeRef → Prop} {F : Frame}

theorem FrameStep.refl (s : Scope) : s.FrameStep T s.frame :=
  .settings s.frame.libraries s.frame.convention

theorem FrameStep.mono (h : s.FrameStep T F) (hT : ∀ t, T t → T' t) : s.FrameStep T' F := by
  cases h with
  | settings libraries convention => exact .settings libraries convention
  | typedef ref name means => exact .typedef (hT _ ref) name means
  | enumeration e => exact .enumeration e
  | callback refs name signs => exact .callback (fun t ht => hT t (refs t ht)) name signs
  | composite new => exact .composite new
  | function refs signs => exact .function (fun t ht => hT t (refs t ht)) signs
  | global ref attached => exact .global (hT _ ref) attached

theorem FrameStep.composites (h : s.FrameStep T F) {name : String} {c : Composite}
    (hc : s.registry.composites.get? name = some c) :
    F.registry.composites.get? name = some c := by
  cases h with
  | settings | typedef | callback | function | global => exact hc
  | enumeration e => cases e with | mk name? items => cases name? <;> exact hc
  | composite new =>
      have hne : name ≠ _ := fun heq => nomatch (heq ▸ hc).symm.trans new
      simp [Registry.insertComposite, hne, hc]

end Scope

namespace Workspace

variable {w : Workspace} {T : TypeRef → Prop}

theorem define_scope (layout : Option LayoutSpec) (w : Workspace) (c : Composite) :
    (define layout w c).2.scope = w.scope := by
  cases layout with
  | none => rfl
  | some spec => exact w.refine_scope c _

theorem setSize_scope (size : Nat) (w : Workspace) (c : Composite) :
    (setSize size w c).2.scope = w.scope :=
  w.refine_scope c _

private theorem step_frameStep (w : Workspace) {ε α : Type} {made : α → Declared}
    {a : Attempt ε (α × Scope)} (h : ∀ x s, a = .ok (x, s) → w.scope.FrameStep T s.frame) :
    w.scope.FrameStep T (w.step made a).2.scope.frame := by
  cases ha : a with
  | error f => exact .refl _
  | ok y => exact h y.1 y.2 ha

private theorem withComposite_frameStep (kind : CompositeKind) (name : String)
    {next : Workspace → Composite → Attempt LayoutError Declared × Workspace}
    (hnext : ∀ w c, (next w c).2.scope = w.scope) :
    w.scope.FrameStep T (w.withComposite kind name next).2.scope.frame := by
  cases hname : w.scope.registry.composites.get? name with
  | none =>
      rw [withComposite_of_none hname, hnext]
      exact .composite (c := (w.definitions.declare kind name).1) hname
  | some c =>
      rw [withComposite_of_some hname]
      split
      · rw [hnext]
        exact .refl _
      · exact .refl _

private theorem declareSize_frameStep (name : String) (size : Nat) :
    w.scope.FrameStep T (w.declareSize name size).2.scope.frame := by
  unfold declareSize
  cases w.scope.registry.composites.get? name with
  | none => exact withComposite_frameStep .struct name (setSize_scope size)
  | some c =>
      simp only [setSize_scope]
      exact .refl _

/-- A declaration changes the frame in one of the ways, with the types that it is written with. -/
theorem declare_frameStep (w : Workspace) (d : Declaration) :
    w.scope.FrameStep (· ∈ d.refs) (w.declare d).2.scope.frame := by
  cases d with
  | libraries names =>
      let opened : Workspace := { w with opened := w.opened ++ (w.scope.declareLibraries names).2 }
      refine opened.step_frameStep (a := (w.scope.declareLibraries names).1) fun set s hs => ?_
      obtain ⟨-, rfl⟩ := Scope.declareLibraries_eq_ok hs
      exact .settings (some set) _
  | convention c => exact .settings _ c
  | typedef existing name =>
      refine w.step_frameStep (a := w.scope.typedef existing name) fun d s hs => ?_
      obtain ⟨hd, rfl⟩ := Scope.typedef_eq_ok hs
      exact .typedef List.mem_cons_self name hd
  | enumeration name items => exact .enumeration _
  | callback name params ret =>
      refine w.step_frameStep (a := w.scope.callback name params ret) fun d s hs => ?_
      obtain ⟨sig, hsig, -, rfl⟩ := Scope.callback_eq_ok hs
      cases name with
      | none => exact .refl _
      | some name => exact .callback (fun t ht => ht) name (Scope.signature_eq_ok_iff.1 hsig)
  | composite kind name layout => exact withComposite_frameStep kind name (define_scope layout)
  | size name size => exact declareSize_frameStep name size
  | function d =>
      let asked : Workspace := { w with consulted := w.consulted ++ (w.scope.attachFunction d).2 }
      refine asked.step_frameStep (a := (w.scope.attachFunction d).1) fun b s hs => ?_
      obtain ⟨libraries, build, -, -, hb, rfl⟩ := Scope.attachFunction_eq_ok hs
      exact .function (fun t ht => ht) (Scope.signs_of_attachFunction hb).1
  | global d =>
      refine w.step_frameStep (a := w.scope.attachVariable w.definitions d) fun b s hs => ?_
      obtain ⟨libraries, -, hb, rfl⟩ := Scope.attachVariable_eq_ok hs
      exact .global List.mem_cons_self hb

theorem declare_ancestors (w : Workspace) (d : Declaration) :
    (w.declare d).2.scope.ancestors = w.scope.ancestors :=
  have hchanges : ChangesOnly (fun _ => True) (fun _ => True) w (w.declare d).2 :=
    w.declare_changesOnly d (fun _ _ => trivial) (fun _ _ => trivial)
  hchanges.ancestors

theorem act_frameStep (w : Workspace) (a : Action) :
    w.scope.FrameStep (fun _ => True) (w.act a).scope.frame := by
  have hdeclare : ∀ d, w.scope.FrameStep (fun _ => True) (w.declare d).2.scope.frame :=
    fun d => (w.declare_frameStep d).mono fun _ _ => trivial
  cases a with
  | declare d => exact hdeclare d
  | libraries names => exact hdeclare (.libraries names)
  | convention c => exact hdeclare (.convention c)
  | typedef existing name => exact hdeclare (.typedef existing name)
  | enumeration name items => exact hdeclare (.enumeration name items)
  | callback name params ret => exact hdeclare (.callback name params ret)
  | composite kind name => exact hdeclare (.composite kind name none)
  | function d => exact hdeclare (.function d)
  | global d => exact hdeclare (.global d)
  | layout | setSize =>
      rw [act]
      split <;> exact .refl _

end Workspace

/-- What the frame has under the names of types satisfies `Q`. -/
structure Frame.Stores (Q : Descriptor → Prop) (F : Frame) : Prop where
  aliases : ∀ name d, F.registry.aliases.get? name = some d → Q d
  callbacks : ∀ name sig, F.registry.callbacks.get? name = some sig → Q sig.toDescriptor

namespace Scope

variable {s : Scope} {Q : Descriptor → Prop}

/-- A name means an address, what is stored under it, or a primitive. -/
theorem of_findType_named (hprim : ∀ p, Q (.prim p)) (hstores : ∀ F ∈ s.frames, F.Stores Q)
    {name : String} {d : Descriptor} (hd : s.findType (.named name) = .ok d) : Q d := by
  change s.resolver.resolveName name = .ok d at hd
  unfold Resolver.resolveName at hd
  split at hd
  · rename_i d' hfind
    cases hd
    obtain ⟨R, hR, hresolve⟩ := List.exists_of_findSome?_eq_some hfind
    obtain ⟨F, hF, rfl⟩ := List.mem_map.1 (show R ∈ s.frames.map (·.registry) from hR)
    unfold Registry.resolve? at hresolve
    split at hresolve
    · cases hresolve
      exact hprim _
    · split at hresolve
      · rename_i halias
        cases hresolve
        exact (hstores F hF).aliases name d halias
      · obtain ⟨sig, hsig, rfl⟩ := Option.map_eq_some_iff.1 hresolve
        exact (hstores F hF).callbacks name sig hsig
  · split at hd
    · cases hd
      exact hprim _
    · cases hd

theorem Signs.forall_of_findType {params : List TypeRef} {ret : TypeRef} {sig : Signature}
    (hsig : s.Signs params ret sig)
    (hQ : ∀ t ∈ ret :: params, ∀ d, s.findType t = .ok d → Q d) :
    (∀ d ∈ sig.params, Q d) ∧ Q sig.ret := by
  refine ⟨?_, hQ ret List.mem_cons_self sig.ret hsig.ret⟩
  intro d hd
  have hmem : .ok d ∈ params.map s.findType := by
    rw [hsig.params]
    exact List.mem_map_of_mem hd
  obtain ⟨t, ht, htype⟩ := List.mem_map.1 hmem
  exact hQ t (List.mem_cons_of_mem ret ht) d htype

/-- An operation stores only what its types mean, callbacks that are made of this, and
primitives. -/
theorem FrameStep.stores {T : TypeRef → Prop} {F : Frame} (h : s.FrameStep T F)
    (hs : s.frame.Stores Q) (hprim : ∀ p, Q (.prim p))
    (hcallback : ∀ sig : Signature, (∀ d ∈ sig.params, Q d) → Q sig.ret → Q sig.toDescriptor)
    (hmeans : ∀ t, T t → ∀ d, s.findType t = .ok d → Q d) : F.Stores Q := by
  obtain ⟨haliases, hcallbacks⟩ := hs
  cases h with
  | settings | composite | function | global => exact ⟨haliases, hcallbacks⟩
  | typedef ref name means =>
      exact ⟨NameMap.forall_insert (hmeans _ ref _ means) haliases, hcallbacks⟩
  | enumeration e =>
      obtain ⟨name?, items⟩ := e
      cases name? with
      | none => exact ⟨haliases, hcallbacks⟩
      | some name => exact ⟨NameMap.forall_insert (hprim _) haliases, hcallbacks⟩
  | callback refs name signs =>
      obtain ⟨hparams, hret⟩ := signs.forall_of_findType fun t ht => hmeans t (refs t ht)
      have hsig := hcallback _ hparams hret
      exact ⟨NameMap.forall_insert hsig haliases, NameMap.forall_insert hsig hcallbacks⟩

end Scope

namespace Session

variable {t t' : Session}

/-- What holds of empty frames, and of all that an operation makes of a frame where it holds of
those that the scope sees, holds of the frames of all scopes. -/
theorem Reachable.forall_frames {P : Frame → Prop} (ht : t.Reachable)
    (hempty : ∀ name convention, P (.empty name convention))
    (hstep : ∀ (s : Scope) F, s.FrameStep (fun _ => True) F → (∀ F' ∈ s.frames, P F') →
      P F) :
    ∀ s ∈ t.scopes, ∀ F ∈ s.frames, P F := by
  refine Reachable.forall_scopes (P := fun s _ => ∀ F ∈ s.frames, P F) ht ?_ ?_ ?_ ?_
  · intro name host defs
    exact List.forall_mem_singleton.2 (hempty name .standard)
  · intro name s defs _ hs
    exact List.forall_mem_cons.2 ⟨hempty name s.frame.convention, hs⟩
  · intro w d _ hw
    have hframe : w.scope.FrameStep (fun _ => True) (w.declare d).2.scope.frame :=
      (w.declare_frameStep d).mono fun _ _ => trivial
    have haround : ∀ F ∈ w.scope.ancestors, P F := (List.forall_mem_cons.1 hw).2
    refine List.forall_mem_cons.2 ⟨hstep w.scope _ hframe hw, ?_⟩
    rw [w.declare_ancestors d]
    exact haround
  · intro s defs defs' _ hs
    exact hs

/-- An operation that is written with types of which `T` holds. Layouts are computed in view of
registries of the session. -/
inductive StepWith (T : Definitions → TypeRef → Prop) (t : Session) : Session → Prop
  | new (name : String) (host : Host) :
      StepWith T t { t with scopes := .new name host :: t.scopes }
  | nested (name : String) {parent : Scope} (mem : parent ∈ t.scopes) :
      StepWith T t { t with scopes := .nested name parent :: t.scopes }
  | declare {w : Workspace} (has : t.Has w) {d : Declaration}
      (refs : ∀ r ∈ d.refs, T t.definitions r) :
      StepWith T t ⟨(w.declare d).2.definitions, (w.declare d).2.scope :: t.scopes⟩
  | composite (kind : CompositeKind) (name : String) :
      StepWith T t { t with definitions := (t.definitions.declare kind name).2 }
  | define {c : Composite} (known : c.id < t.definitions.count) {r : Resolver}
      (sees : ∀ R ∈ r.registries, ∃ s ∈ t.scopes, R ∈ s.registries) {spec : LayoutSpec}
      (refs : ∀ ref ∈ spec.refs, T t.definitions ref) {l : Layout} {defs : Definitions}
      (done : t.definitions.define r c spec = .ok (l, defs)) :
      StepWith T t { t with definitions := defs }
  | setSize {c : Composite} (known : c.id < t.definitions.count) {size : Nat} {defs : Definitions}
      (done : t.definitions.setSize c size = .ok defs) : StepWith T t { t with definitions := defs }

/-- What operations written with such types lead to from the beginning. -/
def ReachableWith (T : Definitions → TypeRef → Prop) (t : Session) : Prop :=
  Relation.ReflTransGen (StepWith T) empty t

variable {T : Definitions → TypeRef → Prop}

private theorem StepWith.step (h : t.StepWith T t') : t.Step t' := by
  cases h with
  | new name host => exact .new name host
  | nested name mem => exact .nested name mem
  | declare has refs => exact .declare has _
  | composite kind name => exact .handle (.declare _ kind name)
  | define known sees refs done => exact .handle (.define known done)
  | setSize known done => exact .handle (.setSize known done)

theorem ReachableWith.reachable (h : t.ReachableWith T) : t.Reachable :=
  Relation.ReflTransGen.mono (fun _ _ hstep => StepWith.step hstep) _ _ h

/-- As for all operations, where the change of a frame is one with types of which `T` holds. What
holds must go on to do so as composites are declared and defined. -/
theorem ReachableWith.forall_frames {P : Frame → Definitions → Prop} (ht : t.ReachableWith T)
    (hempty : ∀ name convention defs, P (.empty name convention) defs)
    (hstep : ∀ (w : Workspace) F, w.Reachable → w.scope.FrameStep (T w.definitions) F →
      (∀ F' ∈ w.scope.frames, P F' w.definitions) → P F w.definitions)
    (hrun : ∀ F (defs defs' : Definitions), defs.Run defs' → P F defs → P F defs') :
    ∀ s ∈ t.scopes, ∀ F ∈ s.frames, P F t.definitions := by
  induction ht with
  | refl => simp [empty]
  | @tail t t' hbefore hwith ih =>
      have hreachable : t.Reachable := ReachableWith.reachable hbefore
      have hdefs : t.definitions.Run t'.definitions :=
        hwith.step.definitions_run hreachable.sound
      have hold : ∀ s ∈ t.scopes, ∀ F ∈ s.frames, P F t'.definitions :=
        fun s hs F hF => hrun F _ _ hdefs (ih s hs F hF)
      cases hwith with
      | new name host =>
          exact List.forall_mem_cons.2
            ⟨List.forall_mem_singleton.2 (hempty name .standard _), hold⟩
      | nested name mem =>
          exact List.forall_mem_cons.2
            ⟨List.forall_mem_cons.2 ⟨hempty name _ _, hold _ mem⟩, hold⟩
      | @declare w has d refs =>
          have hw : ∀ F ∈ w.scope.frames, P F w.definitions :=
            has.definitions_eq ▸ ih w.scope has.scope_mem
          have hframe : w.scope.FrameStep (T w.definitions) (w.declare d).2.scope.frame :=
            (w.declare_frameStep d).mono (has.definitions_eq ▸ refs)
          have hnew : P (w.declare d).2.scope.frame w.definitions :=
            hstep w _ ⟨t, hreachable, has⟩ hframe hw
          refine List.forall_mem_cons.2 ⟨List.forall_mem_cons.2 ⟨?_, ?_⟩, hold⟩
          · exact hrun _ _ _ (has.definitions_eq ▸ hdefs) hnew
          · rw [w.declare_ancestors d]
            exact (List.forall_mem_cons.1 (hold w.scope has.scope_mem)).2
      | composite | define | setSize => exact hold

end Session

end ForeignBinding
