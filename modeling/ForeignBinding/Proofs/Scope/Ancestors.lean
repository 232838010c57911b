import ForeignBinding.Proofs.Declaration.Failure
import ForeignBinding.Proofs.Scope.Actions

/-!
# Scopes do not change those around them

The composites that a scope declares are none of those that the scopes around it declare. Hence
operations on a scope, which define composites of its own only, leave all that is known of the
scopes around it as it was.
-/

namespace ForeignBinding

open Attempt

/-- Whatever the scopes around declare is foreign. -/
def Scope.Separate (s : Scope) (defs : Definitions) : Prop :=
  ∀ F ∈ s.ancestors, ∀ name c, F.registry.composites.get? name = some c → s.Foreign defs c

theorem Scope.Foreign.mono {s : Scope} {defs defs' : Definitions} {c : Composite}
    (h : s.Foreign defs c) (hcount : defs.count ≤ defs'.count) : s.Foreign defs' c :=
  ⟨h.1.trans_le hcount, h.2⟩

private theorem Scope.nested_separate {s : Scope} {defs : Definitions} (name : String)
    (hknown : s.Known defs) (h : s.Separate defs) : (Scope.nested name s).Separate defs := by
  have hempty : ∀ other c, (Scope.nested name s).registry.composites.get? other ≠ some c := by
    intro other c hc
    cases hc
  intro F hF other c hc
  rcases List.mem_cons.1 hF with rfl | hF
  · exact ⟨hknown other c hc, fun m => hempty m c⟩
  · exact ⟨(h F hF other c hc).1, fun m => hempty m c⟩

theorem Session.Reachable.separate {t : Session} (ht : t.Reachable) :
    ∀ s ∈ t.scopes, s.Separate t.definitions := by
  refine Reachable.forall_scopes (P := Scope.Separate) ht ?_ ?_ ?_ ?_
  · intro name host defs F hF
    simp [Scope.new] at hF
  · intro name s defs hknown h
    exact Scope.nested_separate name hknown h
  · intro w d _ h F hF other c hc
    have hchanges : Workspace.ChangesOnly (fun _ => True) (fun _ => True) w (w.declare d).2 :=
      w.declare_changesOnly d (fun _ _ => trivial) (fun _ _ => trivial)
    rw [hchanges.ancestors] at hF
    exact (hchanges.foreign c (h F hF other c hc)).1
  · intro s defs defs' hrun h F hF other c hc
    exact (h F hF other c hc).mono hrun.count_le

namespace Workspace

variable {w : Workspace}

theorem refine_scope (w : Workspace) (c : Composite) (a : Attempt LayoutError Definitions) :
    (w.refine c a).2.scope = w.scope := by
  cases a <;> rfl

private theorem composites_declareSize {name : String}
    (h : w.scope.registry.composites.get? name = none) (size : Nat) :
    (w.declareSize name size).2.scope.registry.composites.get? name =
      some (w.definitions.declare .struct name).1 := by
  simp only [declareSize, h, withComposite_of_none h, setSize, refine_scope]
  rw [get?_introduce, if_pos rfl]

/-- However operations on a scope succeed and fail, the scopes around it are afterwards as they
were, and so is what is known of each composite that one of them declares. A name under which the
scope itself has no composite can be neither laid out nor sized there, and a least size declared
under it is that of a new composite. -/
theorem ancestors_unchanged (hw : w.Reachable) (as : List Action) :
    let w' := w.actAll as
    w'.scope.ancestors = w.scope.ancestors ∧
      (∀ F ∈ w.scope.ancestors, ∀ name c, F.registry.composites.get? name = some c →
        w'.definitions.progress c = w.definitions.progress c) ∧
      ∀ name, w'.scope.registry.composites.get? name = none →
        (∀ spec, (w'.scope.layout w'.definitions name spec).FailsWith
          (.notDeclaredHere name w'.scope.name)) ∧
        (∀ size, (w'.scope.setSize w'.definitions name size).FailsWith
          (.notDeclaredHere name w'.scope.name)) ∧
        ∀ size, (w'.declare (.size name size)).2.scope.registry.composites.get? name =
          some ⟨w'.definitions.count, .struct, name⟩ := by
  intro w'
  have hseparate : w.scope.Separate w.definitions := hw.holds fun _ ht => ht.separate
  have hchanges : ChangesOnly (fun _ => True) (fun _ => True) w w' :=
    w.actAll_changesOnly as (fun _ _ _ _ => trivial) (fun _ _ _ _ => trivial)
  refine ⟨hchanges.ancestors, ?_, ?_⟩
  · intro F hF name c hc
    exact (hchanges.foreign c (hseparate F hF name c hc)).2
  · intro name hname
    have hmissing := Scope.ownComposite_of_none hname
    exact ⟨fun spec => hmissing.bind _, fun size => hmissing.bind _,
      fun size => composites_declareSize hname size⟩

end Workspace

-- The scope around declares a struct without a layout.
namespace Sample

def around : Workspace := (workspace.declare (.composite .struct "addr" none)).2

def within : Workspace := { around with scope := .nested "child" around.scope }

private theorem within_reachable : within.Reachable :=
  (workspace_reachable.declare _).nested "child"

def portSpec : LayoutSpec := .keyed [("port", .single (.resolved (.prim .uint16)))]

/-- The layout and the first size are refused, as the scope has no such struct yet. -/
def overAddr : List Action :=
  [.layout "addr" portSpec, .setSize "addr" 16, .declare (.size "addr" 24),
    .layout "addr" portSpec, .typedef (.named "addr") "link", .setSize "addr" 32]

def addr : Composite := ⟨0, .struct, "addr"⟩

def ownAddr : Composite := ⟨1, .struct, "addr"⟩

private theorem composites_overAddr :
    (within.actAll overAddr).scope.registry.composites.get? "addr" = some ownAddr := rfl

private theorem size_overAddr :
    ((within.actAll overAddr).definitions.progress ownAddr).size = 24 := rfl

end Sample

theorem Workspace.ancestors_unchanged_addr :
    Sample.within.Reachable ∧ Sample.within.scope.ancestors = [Sample.around.scope.frame] ∧
      Sample.around.scope.registry.composites.get? "addr" = some Sample.addr ∧
      (Sample.within.actAll Sample.overAddr).scope.ancestors = [Sample.around.scope.frame] ∧
      (Sample.within.actAll Sample.overAddr).definitions.progress Sample.addr = .declared ∧
      (Sample.within.actAll Sample.overAddr).scope.registry.composites.get? "addr" =
        some Sample.ownAddr ∧
      ((Sample.within.actAll Sample.overAddr).definitions.progress Sample.ownAddr).size = 24 ∧
      (Sample.within.scope.layout Sample.within.definitions "addr" Sample.portSpec).FailsWith
        (.notDeclaredHere "addr" "child") := by
  have haround : Sample.within.scope.ancestors = [Sample.around.scope.frame] := rfl
  have haddr : Sample.around.scope.registry.composites.get? "addr" = some Sample.addr := rfl
  have hdeclared : Sample.within.definitions.progress Sample.addr = .declared := rfl
  have hnone : Sample.within.scope.registry.composites.get? "addr" = none := rfl
  obtain ⟨hancestors, hprogress, -⟩ :=
    ancestors_unchanged Sample.within_reachable Sample.overAddr
  have hkept := hprogress _ (by simp [haround]) "addr" Sample.addr haddr
  obtain ⟨-, -, hmissing⟩ := ancestors_unchanged Sample.within_reachable []
  obtain ⟨hlayout, -, -⟩ := hmissing "addr" hnone
  exact ⟨Sample.within_reachable, haround, haddr, hancestors.trans haround,
    hkept.trans hdeclared, Sample.composites_overAddr, Sample.size_overAddr,
    hlayout Sample.portSpec⟩

end ForeignBinding
