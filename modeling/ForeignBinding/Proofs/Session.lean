import ForeignBinding.Declaration.Apply
import ForeignBinding.Proofs.Definitions
import ForeignBinding.Proofs.Scope.Operations

/-!
# Runs of sessions

Whatever is declared in a scope, its workspace goes through a few elementary changes. The scopes
of a session share the definitions of composites. A session keeps every scope as it has been at
any time, so what holds in all sessions also holds where a scope goes on after others were nested
in it.
-/

namespace ForeignBinding

open Attempt

/-- The composites that the scope itself declares are among those declared so far. -/
def Scope.Known (s : Scope) (defs : Definitions) : Prop :=
  ∀ name c, s.registry.composites.get? name = some c → c.id < defs.count

theorem Scope.Known.mono {s : Scope} {defs defs' : Definitions} (h : s.Known defs)
    (hcount : defs.count ≤ defs'.count) : s.Known defs' :=
  fun name c hc => (h name c hc).trans_le hcount

namespace Workspace

/-- The workspace with a new composite in its scope. -/
def introduce (w : Workspace) (kind : CompositeKind) (name : String) : Workspace :=
  { w with
    scope := w.scope.withRegistry
      (w.scope.registry.insertComposite (w.definitions.declare kind name).1)
    definitions := (w.definitions.declare kind name).2 }

theorem get?_introduce (w : Workspace) (kind : CompositeKind) (name other : String) :
    (w.introduce kind name).scope.registry.composites.get? other =
      if other = name then some (w.definitions.declare kind name).1
      else w.scope.registry.composites.get? other :=
  NameMap.get?_insert ..

/-- An elementary change of a workspace. -/
inductive Step (w : Workspace) : Workspace → Prop
  | opened (names : List (Option String)) : Step w { w with opened := w.opened ++ names }
  | consulted (made : List InvokerRequest) : Step w { w with consulted := w.consulted ++ made }
  | libraries {names : List LibraryName} {set : LibrarySet} {s : Scope}
      (done : (w.scope.declareLibraries names).1 = .ok (set, s)) : Step w { w with scope := s }
  | convention (c : Convention) : Step w { w with scope := w.scope.setConvention c }
  | typedef {existing : TypeRef} {name : String} {d : Descriptor} {s : Scope}
      (done : w.scope.typedef existing name = .ok (d, s)) : Step w { w with scope := s }
  | enumeration (name : Option String) (items : List EnumItem) :
      Step w { w with scope := (w.scope.enumeration name items).2 }
  | callback {name : Option String} {params : List TypeRef} {ret : TypeRef} {d : Descriptor}
      {s : Scope} (done : w.scope.callback name params ret = .ok (d, s)) :
      Step w { w with scope := s }
  | composite (kind : CompositeKind) (name : String)
      (new : w.scope.registry.composites.get? name = none) : Step w (w.introduce kind name)
  | definitions {defs : Definitions} (step : w.definitions.Step defs) :
      Step w { w with definitions := defs }
  | function {d : FunctionDecl} {b : FunctionBinding} {s : Scope}
      (done : (w.scope.attachFunction d).1 = .ok (b, s)) : Step w { w with scope := s }
  | global {d : VariableDecl} {b : VariableBinding} {s : Scope}
      (done : w.scope.attachVariable w.definitions d = .ok (b, s)) : Step w { w with scope := s }

/-- Elementary changes one after the other. -/
abbrev Run : Workspace → Workspace → Prop :=
  Relation.ReflTransGen Step

variable {w w' : Workspace}

private theorem Step.definitions_run (h : w.Step w') : w.definitions.Run w'.definitions := by
  cases h with
  | composite kind name new => exact .single (.declare _ kind name)
  | definitions step => exact .single step
  | _ => exact .refl

private theorem Step.known (h : w.Step w') (hw : w.scope.Known w.definitions) :
    w'.scope.Known w'.definitions := by
  cases h with
  | opened names => exact hw
  | consulted made => exact hw
  | libraries done =>
      obtain ⟨-, rfl⟩ := Scope.declareLibraries_eq_ok done
      exact hw
  | convention c => exact hw
  | typedef done =>
      obtain ⟨-, rfl⟩ := Scope.typedef_eq_ok done
      exact hw
  | enumeration name items => cases name <;> exact hw
  | @callback name _ _ _ _ done =>
      obtain ⟨sig, -, -, rfl⟩ := Scope.callback_eq_ok done
      cases name <;> exact hw
  | composite kind name new =>
      intro other c hc
      rw [get?_introduce] at hc
      split at hc
      · cases hc
        exact Nat.lt_succ_self _
      · exact Nat.lt_succ_of_lt (hw other c hc)
  | definitions step => exact hw.mono step.count_le
  | function done =>
      obtain ⟨libraries, build, -, -, -, rfl⟩ := Scope.attachFunction_eq_ok done
      exact hw
  | global done =>
      obtain ⟨libraries, -, -, rfl⟩ := Scope.attachVariable_eq_ok done
      exact hw

theorem Run.definitions_run (h : w.Run w') : w.definitions.Run w'.definitions := by
  induction h with
  | refl => exact .refl
  | tail _ hstep ih => exact ih.trans hstep.definitions_run

private theorem Run.known (h : w.Run w') (hw : w.scope.Known w.definitions) :
    w'.scope.Known w'.definitions := by
  induction h with
  | refl => exact hw
  | tail _ hstep ih => exact hstep.known ih

private theorem run_step {ε α : Type} {made : α → Declared} {a : Attempt ε (α × Scope)}
    (h : ∀ x s, a = .ok (x, s) → w.Step { w with scope := s }) : w.Run (w.step made a).2 := by
  cases ha : a with
  | error f => exact .refl
  | ok y => exact .single (h y.1 y.2 ha)

private theorem run_refine {c : Composite} {a : Attempt LayoutError Definitions}
    (h : ∀ defs, a = .ok defs → w.definitions.Step defs) : w.Run (w.refine c a).2 := by
  cases ha : a with
  | error f => exact .refl
  | ok defs => exact .single (.definitions (h defs ha))

private theorem run_define {c : Composite} (hc : c.id < w.definitions.count)
    (layout : Option LayoutSpec) : w.Run (define layout w c).2 := by
  cases layout with
  | none => exact .refl
  | some spec =>
      apply run_refine
      intro defs hdefs
      obtain ⟨⟨l, defs'⟩, hok, rfl⟩ := map_eq_ok.1 hdefs
      exact .define hc hok

private theorem run_setSize {c : Composite} (hc : c.id < w.definitions.count) (size : Nat) :
    w.Run (setSize size w c).2 :=
  run_refine fun _ hdefs => .setSize hc hdefs

private theorem run_withComposite (hw : w.scope.Known w.definitions) (kind : CompositeKind)
    (name : String) {next : Workspace → Composite → Attempt LayoutError Declared × Workspace}
    (hnext : ∀ (w' : Workspace) (c : Composite), c.id < w'.definitions.count →
      w'.Run (next w' c).2) :
    w.Run (w.withComposite kind name next).2 := by
  unfold withComposite
  cases h : w.scope.declareComposite w.definitions kind name with
  | error f => exact .refl
  | ok y =>
      obtain ⟨c, s, defs⟩ := y
      rcases Scope.declareComposite_eq_ok h with ⟨hname, -, rfl, rfl⟩ | ⟨hname, rfl, rfl, rfl⟩
      · exact hnext w c (hw name c hname)
      · exact .head (.composite kind name hname) (hnext _ _ (Nat.lt_succ_self _))

private theorem run_declareSize (hw : w.scope.Known w.definitions) (name : String) (size : Nat) :
    w.Run (w.declareSize name size).2 := by
  unfold declareSize
  cases hname : w.scope.registry.composites.get? name with
  | none => exact run_withComposite hw .struct name fun _ _ hc => run_setSize hc size
  | some c => exact run_setSize (hw name c hname) size

/-- A declaration comes down to elementary changes. -/
theorem run_declare (hw : w.scope.Known w.definitions) (d : Declaration) :
    w.Run (w.declare d).2 := by
  cases d with
  | libraries names => exact .head (.opened _) (run_step fun _ _ hs => .libraries hs)
  | convention c => exact .single (.convention c)
  | typedef existing name => exact run_step fun _ _ hs => .typedef hs
  | enumeration name items => exact .single (.enumeration name items)
  | callback name params ret => exact run_step fun _ _ hs => .callback hs
  | composite kind name layout =>
      exact run_withComposite hw kind name fun _ _ hc => run_define hc layout
  | size name size => exact run_declareSize hw name size
  | function d => exact .head (.consulted _) (run_step fun _ _ hs => .function hs)
  | global d => exact run_step fun _ _ hs => .global hs

end Workspace

/-- The definitions of all composites, and all scopes as they have been. -/
structure Session where
  definitions : Definitions
  scopes : List Scope

namespace Session

/-- The session in which nothing has been opened. -/
def empty : Session := ⟨.empty, []⟩

/-- The workspace is that of a scope of the session. -/
structure Has (t : Session) (w : Workspace) : Prop where
  scope_mem : w.scope ∈ t.scopes
  definitions_eq : w.definitions = t.definitions

/-- One operation. Those on definitions alone are made through handles of composites. -/
inductive Step (t : Session) : Session → Prop
  | new (name : String) (host : Host) :
      Step t { t with scopes := .new name host :: t.scopes }
  | nested (name : String) {parent : Scope} (mem : parent ∈ t.scopes) :
      Step t { t with scopes := .nested name parent :: t.scopes }
  | declare {w : Workspace} (has : t.Has w) (d : Declaration) :
      Step t ⟨(w.declare d).2.definitions, (w.declare d).2.scope :: t.scopes⟩
  | layout {s : Scope} (mem : s ∈ t.scopes) {name : String} {spec : LayoutSpec} {l : Layout}
      {defs : Definitions} (done : s.layout t.definitions name spec = .ok (l, defs)) :
      Step t { t with definitions := defs }
  | setSize {s : Scope} (mem : s ∈ t.scopes) {name : String} {size : Nat} {defs : Definitions}
      (done : s.setSize t.definitions name size = .ok defs) : Step t { t with definitions := defs }
  | handle {defs : Definitions} (step : t.definitions.Step defs) :
      Step t { t with definitions := defs }

/-- What operations lead to from the beginning. -/
def Reachable (t : Session) : Prop :=
  Relation.ReflTransGen Step empty t

/-- The definitions are those of a run, and every scope's composites are among them. -/
structure Sound (t : Session) : Prop where
  definitions : t.definitions.Reachable
  known : ∀ s ∈ t.scopes, s.Known t.definitions

variable {t t' : Session}

private theorem Has.known {w : Workspace} (h : t.Has w) (ht : t.Sound) :
    w.scope.Known w.definitions :=
  h.definitions_eq ▸ ht.known w.scope h.scope_mem

private theorem Sound.known_of_own (ht : t.Sound) {s : Scope} (mem : s ∈ t.scopes) {name : String}
    {c : Composite} (h : s.ownComposite name = .ok c) : c.id < t.definitions.count :=
  ht.known s mem name c (Scope.ownComposite_eq_ok h)

theorem Step.definitions_run (h : t.Step t') (ht : t.Sound) :
    t.definitions.Run t'.definitions := by
  cases h with
  | new | nested => exact .refl
  | @declare w has d =>
      have hrun := (Workspace.run_declare (has.known ht) d).definitions_run
      exact has.definitions_eq ▸ hrun
  | layout mem done =>
      obtain ⟨c, hc, hdefine⟩ := bind_eq_ok.1 done
      exact .single (.define (ht.known_of_own mem hc) hdefine)
  | setSize mem done =>
      obtain ⟨c, hc, hset⟩ := bind_eq_ok.1 done
      exact .single (.setSize (ht.known_of_own mem hc) hset)
  | handle step => exact .single step

/-- How a scope comes to be there after an operation that leads to the definitions. -/
inductive Arises (t : Session) : Definitions → Scope → Prop
  | old {defs : Definitions} {s : Scope} (mem : s ∈ t.scopes) : Arises t defs s
  | new {defs : Definitions} (name : String) (host : Host) : Arises t defs (.new name host)
  | nested {defs : Definitions} (name : String) {parent : Scope} (mem : parent ∈ t.scopes) :
      Arises t defs (.nested name parent)
  | declared {w : Workspace} (has : t.Has w) (d : Declaration) :
      Arises t (w.declare d).2.definitions (w.declare d).2.scope

private theorem Step.arises (h : t.Step t') {s : Scope} (hs : s ∈ t'.scopes) :
    t.Arises t'.definitions s := by
  cases h with
  | new name host =>
      rcases List.mem_cons.1 hs with rfl | hs
      · exact .new name host
      · exact .old hs
  | nested name mem =>
      rcases List.mem_cons.1 hs with rfl | hs
      · exact .nested name mem
      · exact .old hs
  | declare has d =>
      rcases List.mem_cons.1 hs with rfl | hs
      · exact .declared has d
      · exact .old hs
  | layout | setSize | handle => exact .old hs

private theorem Arises.known {defs : Definitions} {s : Scope} (h : t.Arises defs s) (ht : t.Sound)
    (hrun : t.definitions.Run defs) : s.Known defs := by
  cases h with
  | old mem => exact (ht.known s mem).mono hrun.count_le
  | new | nested => exact fun _ _ hc => nomatch hc
  | declared has d => exact (Workspace.run_declare (has.known ht) d).known (has.known ht)

private theorem Step.sound (h : t.Step t') (ht : t.Sound) : t'.Sound := by
  have hrun := h.definitions_run ht
  exact ⟨.trans ht.definitions hrun, fun s hs => (h.arises hs).known ht hrun⟩

theorem Reachable.sound (h : t.Reachable) : t.Sound := by
  induction h with
  | refl => exact ⟨.refl, fun _ hs => nomatch hs⟩
  | tail _ hstep ih => exact hstep.sound ih

/-- What holds of every new scope, of a scope nested in one of which it holds, and on through every
declaration and whatever else happens to the definitions, holds of all scopes. -/
theorem Reachable.forall_scopes {P : Scope → Definitions → Prop} (ht : t.Reachable)
    (hnew : ∀ name host defs, P (.new name host) defs)
    (hnested : ∀ name s defs, s.Known defs → P s defs → P (.nested name s) defs)
    (hdeclare : ∀ (w : Workspace) d, w.scope.Known w.definitions → P w.scope w.definitions →
      P (w.declare d).2.scope (w.declare d).2.definitions)
    (hrun : ∀ s (defs defs' : Definitions), defs.Run defs' → P s defs → P s defs') :
    ∀ s ∈ t.scopes, P s t.definitions := by
  induction ht with
  | refl => simp [empty]
  | @tail t t' hbefore hstep ih =>
      have hsound : t.Sound := Reachable.sound hbefore
      have hdefs : t.definitions.Run t'.definitions := hstep.definitions_run hsound
      have hold : ∀ s ∈ t.scopes, s.Known t'.definitions ∧ P s t'.definitions := fun s hs =>
        ⟨(hsound.known s hs).mono hdefs.count_le, hrun s _ _ hdefs (ih s hs)⟩
      intro s hs
      have harises := hstep.arises hs
      clear hs hdefs
      generalize t'.definitions = defs at harises hold ⊢
      cases harises with
      | old mem => exact (hold s mem).2
      | new name host => exact hnew name host defs
      | nested name mem => exact hnested name _ defs (hold _ mem).1 (hold _ mem).2
      | @declared w has d =>
          have hholds : P w.scope w.definitions :=
            has.definitions_eq ▸ ih w.scope has.scope_mem
          exact hdeclare w d (has.known hsound) hholds

end Session

/-- The workspace of a scope in a session. -/
def Workspace.Reachable (w : Workspace) : Prop :=
  ∃ t : Session, t.Reachable ∧ t.Has w

theorem Workspace.Reachable.definitions {w : Workspace} (h : w.Reachable) :
    w.definitions.Reachable := by
  obtain ⟨t, ht, hw⟩ := h
  exact hw.definitions_eq ▸ ht.sound.definitions

theorem Workspace.Reachable.known {w : Workspace} (h : w.Reachable) :
    w.scope.Known w.definitions := by
  obtain ⟨t, ht, hw⟩ := h
  exact hw.definitions_eq ▸ ht.sound.known w.scope hw.scope_mem

theorem Workspace.Reachable.holds {w : Workspace} {P : Scope → Definitions → Prop}
    (h : w.Reachable) (hall : ∀ t : Session, t.Reachable → ∀ s ∈ t.scopes, P s t.definitions) :
    P w.scope w.definitions := by
  obtain ⟨t, ht, hw⟩ := h
  exact hw.definitions_eq ▸ hall t ht w.scope hw.scope_mem

theorem Workspace.Reachable.declare {w : Workspace} (h : w.Reachable) (d : Declaration) :
    (w.declare d).2.Reachable := by
  obtain ⟨t, ht, hw⟩ := h
  exact ⟨_, .tail ht (.declare hw d), List.mem_cons_self, rfl⟩

theorem Workspace.Reachable.nested {w : Workspace} (h : w.Reachable) (name : String) :
    { w with scope := .nested name w.scope }.Reachable := by
  obtain ⟨t, ht, hw⟩ := h
  exact ⟨_, .tail ht (.nested name hw.scope_mem), List.mem_cons_self, hw.definitions_eq⟩

-- One scope on a host without libraries.
namespace Sample

def host : Host := ⟨.linux, fun _ => .error "no such file", .standard, none⟩

def workspace : Workspace := .new (.new "main" host)

theorem workspace_reachable : workspace.Reachable :=
  ⟨_, .single (.new "main" host), List.mem_cons_self, rfl⟩

end Sample

end ForeignBinding
