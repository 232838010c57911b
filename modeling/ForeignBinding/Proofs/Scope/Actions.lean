import ForeignBinding.Proofs.Session

/-!
# What an operation on a scope changes

Whether it succeeds or fails, an operation gives at most one name another meaning as a type, binds
at most one name, and defines only composites that the scope itself declares. The scopes around it
stay as they are.
-/

namespace ForeignBinding

open Attempt

/-- An operation on a scope. -/
inductive Action where
  | declare (d : Declaration)
  | libraries (names : List LibraryName)
  | convention (c : Convention)
  | typedef (existing : TypeRef) (name : String)
  | enumeration (name : Option String) (items : List EnumItem)
  | callback (name : Option String) (params : List TypeRef) (ret : TypeRef)
  | composite (kind : CompositeKind) (name : String)
  | layout (name : String) (spec : LayoutSpec)
  | setSize (name : String) (size : Nat)
  | function (d : FunctionDecl)
  | global (d : VariableDecl)

/-- The name that a declaration declares as a type, if any. -/
def Declaration.type? : Declaration → Option String
  | typedef _ name => some name
  | enumeration name _ | callback name _ _ => name
  | composite _ name _ | size name _ => some name
  | libraries _ | convention _ | function _ | global _ => none

/-- The name under which a declaration attaches something, if any. -/
def Declaration.bound? : Declaration → Option String
  | function d => some d.name
  | global d => some d.name
  | _ => none

namespace Action

/-- The name that an operation declares as a type, if any. -/
def type? : Action → Option String
  | declare d => d.type?
  | typedef _ name => some name
  | enumeration name _ | callback name _ _ => name
  | composite _ name => some name
  | libraries _ | convention _ | layout .. | setSize .. | function _ | global _ => none

/-- The name under which an operation attaches something, if any. -/
def bound? : Action → Option String
  | declare d => d.bound?
  | function d => some d.name
  | global d => some d.name
  | _ => none

end Action

/-- The registries declare the same under a name. -/
structure Registry.SameAt (r r' : Registry) (name : String) : Prop where
  composites : r.composites.get? name = r'.composites.get? name
  aliases : r.aliases.get? name = r'.aliases.get? name
  callbacks : r.callbacks.get? name = r'.callbacks.get? name

/-- The composite has been declared, but not by the scope. -/
def Scope.Foreign (s : Scope) (defs : Definitions) (c : Composite) : Prop :=
  c.id < defs.count ∧ ∀ name, s.registry.composites.get? name ≠ some c

namespace Workspace

/-- The workspace after an operation, whether it succeeds or fails. -/
def act (w : Workspace) : Action → Workspace
  | .declare d => (w.declare d).2
  | .libraries names =>
      let (result, tried) := w.scope.declareLibraries names
      ({ w with opened := w.opened ++ tried }.step
        (fun set : LibrarySet => .libraries set.names) result).2
  | .convention c => { w with scope := w.scope.setConvention c }
  | .typedef existing name => (w.step .type (w.scope.typedef existing name)).2
  | .enumeration name items => { w with scope := (w.scope.enumeration name items).2 }
  | .callback name params ret => (w.step .type (w.scope.callback name params ret)).2
  | .composite kind name => (w.withComposite kind name (define none)).2
  | .layout name spec =>
      match w.scope.layout w.definitions name spec with
      | .ok (_, defs) => { w with definitions := defs }
      | .error _ => w
  | .setSize name size =>
      match w.scope.setSize w.definitions name size with
      | .ok defs => { w with definitions := defs }
      | .error _ => w
  | .function d =>
      let (result, made) := w.scope.attachFunction d
      ({ w with consulted := w.consulted ++ made }.step .function result).2
  | .global d => (w.step .global (w.scope.attachVariable w.definitions d)).2

/-- The workspace after operations one after the other. -/
def actAll (w : Workspace) (as : List Action) : Workspace :=
  as.foldl act w

/-- Between two workspaces of a scope, only the given types have other meanings, only the given
names are bound to something else, and only composites of the scope itself were defined. -/
structure ChangesOnly (types bound : String → Prop) (w w' : Workspace) : Prop where
  ancestors : w'.scope.ancestors = w.scope.ancestors
  host : w'.scope.host = w.scope.host
  registry : ∀ name, ¬ types name → w'.scope.registry.SameAt w.scope.registry name
  bindings : ∀ name, ¬ bound name → w'.scope.binding? name = w.scope.binding? name
  foreign : ∀ c, w.scope.Foreign w.definitions c →
    w'.scope.Foreign w'.definitions c ∧ w'.definitions.progress c = w.definitions.progress c

variable {w w' w'' : Workspace} {types bound types' bound' : String → Prop}

private theorem ne_of_not {p : String → Prop} {name other : String} (hname : p name)
    (hother : ¬ p other) : other ≠ name := by
  intro heq
  exact hother (heq ▸ hname)

namespace ChangesOnly

private theorem of_eq (hscope : w'.scope = w.scope) (hdefs : w'.definitions = w.definitions) :
    ChangesOnly types bound w w' := by
  constructor
  · rw [hscope]
  · rw [hscope]
  · intro name _
    rw [hscope]
    exact ⟨rfl, rfl, rfl⟩
  · intro name _
    rw [hscope]
  · intro c hc
    rw [hscope, hdefs]
    exact ⟨hc, rfl⟩

theorem refl (w : Workspace) : ChangesOnly types bound w w := of_eq rfl rfl

theorem trans (h : ChangesOnly types bound w w') (h' : ChangesOnly types bound w' w'') :
    ChangesOnly types bound w w'' := by
  constructor
  · exact h'.ancestors.trans h.ancestors
  · exact h'.host.trans h.host
  · intro name hname
    have hfirst := h.registry name hname
    have hsecond := h'.registry name hname
    exact ⟨hsecond.composites.trans hfirst.composites, hsecond.aliases.trans hfirst.aliases,
      hsecond.callbacks.trans hfirst.callbacks⟩
  · intro name hname
    exact (h'.bindings name hname).trans (h.bindings name hname)
  · intro c hc
    obtain ⟨hforeign, hprogress⟩ := h.foreign c hc
    obtain ⟨hforeign', hprogress'⟩ := h'.foreign c hforeign
    exact ⟨hforeign', hprogress'.trans hprogress⟩

private theorem of_frame (frame : Frame)
    (hcomposites : frame.registry.composites = w.scope.registry.composites)
    (hregistry : ∀ name, ¬ types name → frame.registry.SameAt w.scope.registry name)
    (hbindings : ∀ name, ¬ bound name →
      frame.bindings.get? name = w.scope.frame.bindings.get? name) :
    ChangesOnly types bound w { w with scope := { w.scope with frame } } := by
  refine ⟨rfl, rfl, hregistry, hbindings, ?_⟩
  intro c hc
  have hforeign : ∀ name, frame.registry.composites.get? name ≠ some c := by
    intro name
    rw [hcomposites]
    exact hc.2 name
  exact ⟨⟨hc.1, hforeign⟩, rfl⟩

private theorem of_registry {r : Registry}
    (hcomposites : r.composites = w.scope.registry.composites)
    (hregistry : ∀ name, ¬ types name → r.SameAt w.scope.registry name) :
    ChangesOnly types bound w { w with scope := w.scope.withRegistry r } :=
  of_frame { w.scope.frame with registry := r } hcomposites hregistry fun _ _ => rfl

private theorem bind {name : String} (hname : bound name) (b : Binding) :
    ChangesOnly types bound w { w with scope := w.scope.bind name b } := by
  apply of_frame { w.scope.frame with bindings := w.scope.frame.bindings.insert name b } rfl
    (fun _ _ => ⟨rfl, rfl, rfl⟩)
  intro other hother
  have hne : other ≠ name := ne_of_not hname hother
  simp [hne]

private theorem insertAlias {name : String} (hname : types name) (d : Descriptor) :
    ChangesOnly types bound w
      { w with scope := w.scope.withRegistry (w.scope.registry.insertAlias name d) } := by
  refine of_registry rfl ?_
  intro other hother
  have hne : other ≠ name := ne_of_not hname hother
  exact ⟨rfl, by simp [Registry.insertAlias, hne], rfl⟩

private theorem insertEnum {e : Enumeration} (hname : ∀ name, e.name = some name → types name) :
    ChangesOnly types bound w
      { w with scope := w.scope.withRegistry (w.scope.registry.insertEnum e) } := by
  cases he : e.name with
  | none =>
      apply of_registry
      · simp [Registry.insertEnum, he, Registry.insertEnumAlias]
      · intro other _
        simp only [Registry.insertEnum, he, Registry.insertEnumAlias]
        exact ⟨rfl, rfl, rfl⟩
  | some name =>
      apply of_registry
      · simp [Registry.insertEnum, he, Registry.insertEnumAlias, Registry.insertAlias]
      · intro other hother
        have hne : other ≠ name := ne_of_not (hname name he) hother
        simp only [Registry.insertEnum, he, Registry.insertEnumAlias, Registry.insertAlias]
        exact ⟨rfl, by simp [hne], rfl⟩

private theorem withCallback {name? : Option String}
    (hname : ∀ name, name? = some name → types name) (sig : Signature) :
    ChangesOnly types bound w { w with scope := w.scope.withCallback name? sig } := by
  cases name? with
  | none => exact refl w
  | some name =>
      refine of_registry rfl ?_
      intro other hother
      have hne : other ≠ name := ne_of_not (hname name rfl) hother
      simp only [Registry.insertCallback, Registry.insertAlias]
      exact ⟨rfl, by simp [hne], by simp [hne]⟩

private theorem set {name : String} {c : Composite}
    (hc : w.scope.registry.composites.get? name = some c) (p : Progress) :
    ChangesOnly types bound w { w with definitions := w.definitions.set c p } := by
  refine ⟨rfl, rfl, fun _ _ => ⟨rfl, rfl, rfl⟩, fun _ _ => rfl, ?_⟩
  intro d hd
  have hne : d ≠ c := by
    intro heq
    exact hd.2 name (heq ▸ hc)
  exact ⟨hd, by simp [hne]⟩

private theorem introduce (kind : CompositeKind) {name : String} (hname : types name) :
    ChangesOnly types bound w (w.introduce kind name) := by
  refine ⟨rfl, rfl, ?_, fun _ _ => rfl, ?_⟩
  · intro other hother
    have hne : other ≠ name := ne_of_not hname hother
    refine ⟨?_, rfl, rfl⟩
    rw [get?_introduce, if_neg hne]
  · intro c hc
    refine ⟨⟨Nat.lt_succ_of_lt hc.1, ?_⟩, rfl⟩
    intro other hother
    rw [get?_introduce] at hother
    split at hother
    · cases hother
      exact Nat.lt_irrefl _ hc.1
    · exact hc.2 other hother

end ChangesOnly

private theorem step_changesOnly {ε α : Type} {made : α → Declared} {a : Attempt ε (α × Scope)}
    (h : ∀ x s, a = .ok (x, s) → ChangesOnly types bound w { w with scope := s }) :
    ChangesOnly types bound w (w.step made a).2 := by
  cases ha : a with
  | error f => exact .refl w
  | ok y => exact h y.1 y.2 ha

private theorem refine_changesOnly {c : Composite} {a : Attempt LayoutError Definitions}
    {name : String} (hc : w.scope.registry.composites.get? name = some c)
    (h : ∀ defs, a = .ok defs → ∃ p, defs = w.definitions.set c p) :
    ChangesOnly types bound w (w.refine c a).2 := by
  cases ha : a with
  | error f => exact .refl w
  | ok defs =>
      obtain ⟨p, rfl⟩ := h defs ha
      exact .set hc p

private theorem define_changesOnly {c : Composite} {name : String}
    (hc : w.scope.registry.composites.get? name = some c) (layout : Option LayoutSpec) :
    ChangesOnly types bound w (define layout w c).2 := by
  cases layout with
  | none => exact .refl w
  | some spec =>
      apply refine_changesOnly hc
      intro defs hdefs
      obtain ⟨⟨l, defs'⟩, hdefine, rfl⟩ := map_eq_ok.1 hdefs
      obtain ⟨-, -, hset⟩ := Definitions.define_eq_ok hdefine
      exact ⟨_, hset⟩

private theorem setSize_changesOnly {c : Composite} {name : String}
    (hc : w.scope.registry.composites.get? name = some c) (size : Nat) :
    ChangesOnly types bound w (setSize size w c).2 := by
  apply refine_changesOnly hc
  intro defs hdefs
  obtain ⟨-, hset⟩ := Definitions.setSize_eq_ok hdefs
  exact ⟨_, hset⟩

private theorem withComposite_changesOnly (kind : CompositeKind) {name : String}
    (hname : types name) {next : Workspace → Composite → Attempt LayoutError Declared × Workspace}
    (hnext : ∀ (w' : Workspace) (c : Composite),
      w'.scope.registry.composites.get? name = some c →
        ChangesOnly types bound w' (next w' c).2) :
    ChangesOnly types bound w (w.withComposite kind name next).2 := by
  unfold withComposite
  cases h : w.scope.declareComposite w.definitions kind name with
  | error f => exact .refl w
  | ok y =>
      obtain ⟨c, s, defs⟩ := y
      rcases Scope.declareComposite_eq_ok h with ⟨hc, -, rfl, rfl⟩ | ⟨-, rfl, rfl, rfl⟩
      · exact hnext w c hc
      · have hnew : (w.introduce kind name).scope.registry.composites.get? name =
            some (w.definitions.declare kind name).1 := by
          rw [get?_introduce, if_pos rfl]
        exact (ChangesOnly.introduce kind hname).trans (hnext _ _ hnew)

private theorem declareSize_changesOnly {name : String} (hname : types name) (size : Nat) :
    ChangesOnly types bound w (w.declareSize name size).2 := by
  unfold declareSize
  cases hc : w.scope.registry.composites.get? name with
  | none => exact withComposite_changesOnly .struct hname fun _ _ hc => setSize_changesOnly hc size
  | some c => exact setSize_changesOnly hc size

/-- A declaration changes only the meaning of the type and the binding that it declares. -/
theorem declare_changesOnly (w : Workspace) (d : Declaration)
    (htypes : ∀ name, d.type? = some name → types name)
    (hbound : ∀ name, d.bound? = some name → bound name) :
    ChangesOnly types bound w (w.declare d).2 := by
  cases d with
  | libraries names =>
      have hopened : ChangesOnly types bound w
          { w with opened := w.opened ++ (w.scope.declareLibraries names).2 } := .of_eq rfl rfl
      apply hopened.trans
      refine step_changesOnly (a := (w.scope.declareLibraries names).1) fun set s hs => ?_
      obtain ⟨-, rfl⟩ := Scope.declareLibraries_eq_ok hs
      exact .of_frame _ rfl (fun _ _ => ⟨rfl, rfl, rfl⟩) fun _ _ => rfl
  | convention c => exact .of_frame _ rfl (fun _ _ => ⟨rfl, rfl, rfl⟩) fun _ _ => rfl
  | typedef existing name =>
      refine step_changesOnly (a := w.scope.typedef existing name) fun d s hs => ?_
      obtain ⟨-, rfl⟩ := Scope.typedef_eq_ok hs
      exact .insertAlias (htypes name rfl) d
  | enumeration name items => exact .insertEnum htypes
  | callback name params ret =>
      refine step_changesOnly (a := w.scope.callback name params ret) fun d s hs => ?_
      obtain ⟨sig, -, -, rfl⟩ := Scope.callback_eq_ok hs
      exact .withCallback htypes sig
  | composite kind name layout =>
      exact withComposite_changesOnly kind (htypes name rfl) fun _ _ hc =>
        define_changesOnly hc layout
  | size name size => exact declareSize_changesOnly (htypes name rfl) size
  | function d =>
      have hconsulted : ChangesOnly types bound w
          { w with consulted := w.consulted ++ (w.scope.attachFunction d).2 } := .of_eq rfl rfl
      apply hconsulted.trans
      refine step_changesOnly (a := (w.scope.attachFunction d).1) fun b s hs => ?_
      obtain ⟨libraries, build, -, -, -, rfl⟩ := Scope.attachFunction_eq_ok hs
      exact .bind (hbound d.name rfl) _
  | global d =>
      refine step_changesOnly (a := w.scope.attachVariable w.definitions d) fun b s hs => ?_
      obtain ⟨libraries, -, -, rfl⟩ := Scope.attachVariable_eq_ok hs
      exact .bind (hbound d.name rfl) _

/-- An operation changes only the meaning of the type and the binding that it declares. -/
theorem act_changesOnly (w : Workspace) (a : Action)
    (htypes : ∀ name, a.type? = some name → types name)
    (hbound : ∀ name, a.bound? = some name → bound name) : ChangesOnly types bound w (w.act a) := by
  cases a with
  | declare d => exact w.declare_changesOnly d htypes hbound
  | libraries names => exact w.declare_changesOnly (.libraries names) htypes hbound
  | convention c => exact w.declare_changesOnly (.convention c) htypes hbound
  | typedef existing name => exact w.declare_changesOnly (.typedef existing name) htypes hbound
  | enumeration name items => exact w.declare_changesOnly (.enumeration name items) htypes hbound
  | callback name params ret =>
      exact w.declare_changesOnly (.callback name params ret) htypes hbound
  | composite kind name => exact w.declare_changesOnly (.composite kind name none) htypes hbound
  | function d => exact w.declare_changesOnly (.function d) htypes hbound
  | global d => exact w.declare_changesOnly (.global d) htypes hbound
  | layout name spec =>
      rw [act]
      split
      · rename_i l defs done
        obtain ⟨c, hc, hdefine⟩ := bind_eq_ok.1 done
        obtain ⟨-, -, rfl⟩ := Definitions.define_eq_ok hdefine
        exact .set (Scope.ownComposite_eq_ok hc) _
      · exact .refl w
  | setSize name size =>
      rw [act]
      split
      · rename_i defs done
        obtain ⟨c, hc, hset⟩ := bind_eq_ok.1 done
        obtain ⟨-, rfl⟩ := Definitions.setSize_eq_ok hset
        exact .set (Scope.ownComposite_eq_ok hc) _
      · exact .refl w

theorem actAll_changesOnly (w : Workspace) (as : List Action)
    (htypes : ∀ a ∈ as, ∀ name, a.type? = some name → types name)
    (hbound : ∀ a ∈ as, ∀ name, a.bound? = some name → bound name) :
    ChangesOnly types bound w (w.actAll as) := by
  induction as generalizing w with
  | nil => exact .refl w
  | cons a as ih =>
      have hfirst : ChangesOnly types bound w (w.act a) :=
        w.act_changesOnly a (htypes a (by simp)) (hbound a (by simp))
      have hrest : ChangesOnly types bound (w.act a) ((w.act a).actAll as) :=
        ih (w.act a) (fun b hb => htypes b (by simp [hb])) (fun b hb => hbound b (by simp [hb]))
      exact hfirst.trans hrest

end Workspace

end ForeignBinding
