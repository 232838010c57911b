import ForeignBinding.Proofs.Declaration.Failure

/-!
# The life of a composite

A composite may get a least size, and then a layout of at least that size. Each happens at most
once, and nothing is undone. Calls that fail leave no trace. All of this also holds of definitions
that other calls overtake between their first and their last step.
-/

namespace ForeignBinding

open Attempt

namespace Placement

/-- The placement has the least size of an earlier one, and no smaller alignment. -/
structure Continues (p' p : Placement) : Prop where
  floor : p'.floor = p.floor
  alignment : p.alignment ≤ p'.alignment

theorem Continues.trans {p p' p'' : Placement} (h' : p''.Continues p') (h : p'.Continues p) :
    p''.Continues p :=
  ⟨h'.floor.trans h.floor, h.alignment.trans h'.alignment⟩

variable {defs : Definitions} {r : Resolver} {p p' : Placement}

private theorem fitting_eq_ok {field : String} {m n : Nat} (h : fitting field n = .ok m) :
    m = n := by
  unfold fitting fitting? at h
  split at h
  · rename_i hfits
    split at hfits
    · cases hfits
      cases h
      rfl
    · cases hfits
  · cases h

private theorem place_continues {name : String} {kind : FieldKind} {size alignment : Nat}
    {given : Option Nat} (h : p.place name kind size alignment given = .ok p') :
    p'.Continues p := by
  obtain ⟨offset, -, hstop⟩ := bind_eq_ok.1 h
  obtain ⟨stop, -, heq⟩ := bind_eq_ok.1 hstop
  cases heq
  exact ⟨rfl, Nat.le_max_left _ _⟩

private theorem addSpec_continues {f : FieldSpec} (h : p.addSpec defs r f = .ok p') :
    p'.Continues p := by
  obtain ⟨d, -, hadd⟩ := bind_eq_ok.1 h
  split at hadd
  · obtain ⟨extent, -, hplace⟩ := bind_eq_ok.1 hadd
    exact place_continues hplace
  · obtain ⟨extent, -, htotal⟩ := bind_eq_ok.1 hadd
    obtain ⟨total, -, hplace⟩ := bind_eq_ok.1 htotal
    exact place_continues hplace

private theorem addSpecs_continues {fs : List FieldSpec} (h : addSpecs defs r p fs = .ok p') :
    p'.Continues p := by
  induction fs generalizing p with
  | nil =>
      cases h
      exact ⟨rfl, Nat.le_refl _⟩
  | cons f fs ih =>
      rw [addSpecs] at h
      split at h
      · cases h
      · obtain ⟨p₁, hadd, hrest⟩ := bind_eq_ok.1 h
        exact (ih hrest).trans (addSpec_continues hadd)

private theorem floor_le_of_build {l : Layout} (hpos : 0 < p.alignment) (h : p.build = .ok l) :
    p.floor ≤ l.size := by
  obtain ⟨size, hsize, heq⟩ := bind_eq_ok.1 h
  cases heq
  rw [fitting_eq_ok hsize, roundUp_eq_leastMultiple hpos]
  exact (Nat.le_max_right _ _).trans (le_leastMultiple hpos _)

end Placement

theorem Layout.floor_le_of_compute {defs : Definitions} {r : Resolver} {kind : CompositeKind}
    {floor : Nat} {spec : LayoutSpec} {l : Layout}
    (h : Layout.compute defs r kind floor spec = .ok l) : floor ≤ l.size := by
  obtain ⟨placed, hadd, hbuild⟩ := bind_eq_ok.1 h
  have hcontinues := Placement.addSpecs_continues hadd
  have hfloor : placed.floor = floor := hcontinues.floor
  exact hfloor ▸ Placement.floor_le_of_build hcontinues.alignment hbuild

/-- What can be done to the layout of a composite. -/
inductive Operation where
  | setSize
  | define
  deriving DecidableEq, Repr

namespace Progress

/-- A step in the life of a composite, possibly past the least size. -/
inductive Move : Progress → Progress → Prop
  | floor (n : Nat) : Move .declared (.floored n)
  | compute (l : Layout) : Move .declared (.computed l)
  | complete {n : Nat} {l : Layout} (le : n ≤ l.size) : Move (.floored n) (.computed l)

/-- The operations that can still succeed, in the order in which they can. -/
def remaining : Progress → List Operation
  | declared => [.setSize, .define]
  | floored _ => [.define]
  | computed _ => []

variable {p p' p'' : Progress}

theorem Move.trans (h : Move p p') (h' : Move p' p'') : Move p p'' := by
  cases h with
  | floor n =>
      cases h' with
      | complete le => exact .compute _
  | compute l => cases h'
  | complete le => cases h'

private theorem Move.size_le (h : Move p p') : p.size ≤ p'.size := by
  cases h with
  | floor n => exact Nat.zero_le _
  | compute l => exact Nat.zero_le _
  | complete le => exact le

theorem move_computed {l : Layout} (hnone : p.layout? = none) (hfloor : p.floor ≤ l.size) :
    p.Move (.computed l) := by
  cases p with
  | declared => exact .compute l
  | floored n => exact .complete hfloor
  | computed l' => cases hnone

theorem define_sublist_remaining (hnone : p.layout? = none) :
    [Operation.define].Sublist p.remaining := by
  cases p with
  | declared => exact List.sublist_cons_self _ _
  | floored n => exact List.Sublist.refl _
  | computed l => cases hnone

theorem cons_sublist_remaining {κ : Type} {composite : κ → Composite} {operation : κ → Operation}
    {defs : Definitions} {x : κ} {rest : List κ} {c : Composite}
    (hfirst : (operation x :: p.remaining).Sublist (defs.progress (composite x)).remaining)
    (hrest : ((rest.filter (composite · = c)).map operation).Sublist
      ((defs.set (composite x) p).progress c).remaining) :
    (((x :: rest).filter (composite · = c)).map operation).Sublist
      (defs.progress c).remaining := by
  rw [Definitions.progress_set] at hrest
  by_cases hc : composite x = c
  · subst hc
    rw [if_pos rfl] at hrest
    rw [List.filter_cons_of_pos (by simp), List.map_cons]
    exact (hrest.cons_cons _).trans hfirst
  · rw [if_neg (Ne.symm hc)] at hrest
    rw [List.filter_cons_of_neg (by simpa using hc)]
    exact hrest

/-- What the last step of a definition has found where it succeeds. -/
theorem commit_eq_ok {c : Composite} {floor : Nat} {l : Layout}
    (h : p.commit c floor l = .ok p') :
    p.layout? = none ∧ p.floor ≤ floor ∧ p' = .computed l := by
  cases p with
  | declared =>
      cases h
      exact ⟨rfl, Nat.zero_le _, rfl⟩
  | floored n =>
      rw [commit] at h
      split at h
      · cases h
      · rename_i hle
        cases h
        exact ⟨rfl, Nat.not_lt.1 hle, rfl⟩
  | computed l' => cases h

theorem Move.layout?_eq_none (h : Move p p') : p.layout? = none := by
  cases h <;> rfl

instance : IsTrans Progress Move := ⟨fun _ _ _ => Move.trans⟩

private theorem size_le_of_reflGen (h : Relation.ReflGen Move p p') : p.size ≤ p'.size := by
  cases h with
  | refl => exact Nat.le_refl _
  | single h => exact h.size_le

theorem eq_of_reflGen {l : Layout} (h : Relation.ReflGen Move p p') (hl : p.layout? = some l) :
    p' = p := by
  cases h with
  | refl => rfl
  | single h =>
      rw [h.layout?_eq_none] at hl
      cases hl

private theorem answers_of_layout? {l : Layout} (h : p.layout? = some l) :
    p.size = l.size ∧ p.alignment = l.alignment ∧ p.members = l.members ∧
      p.offsets = l.offsets ∧ ∀ name, p.offsetOf? name = l.offsetOf? name := by
  cases p with
  | declared | floored n => cases h
  | computed l' =>
      cases h
      exact ⟨rfl, rfl, rfl, rfl, fun name => rfl⟩

end Progress

/-- A call that sets the least size of a composite, or defines it with any resolver. -/
inductive Call where
  | setSize (c : Composite) (size : Nat)
  | define (c : Composite) (r : Resolver) (spec : LayoutSpec)
  /-- The last step of a definition that other calls have overtaken: `floor` was the least size when
  it began. -/
  | finish (c : Composite) (floor : Nat) (l : Layout)
      (computed : ∃ defs r spec, Layout.compute defs r c.kind floor spec = .ok l)

namespace Call

def composite : Call → Composite
  | setSize c _ => c
  | define c _ _ => c
  | finish c _ _ _ => c

def operation : Call → Operation
  | setSize .. => .setSize
  | define .. | finish .. => .define

end Call

namespace Workspace

/-- The outcome of a call. -/
def perform (w : Workspace) : Call → Attempt LayoutError Declared × Workspace
  | .setSize c size => w.setSize size c
  | .define c r spec => w.refine c ((w.definitions.define r c spec).map (·.2))
  | .finish c floor l _ =>
      w.refine c (((w.definitions.progress c).commit c floor l).map (w.definitions.set c))

/-- Where calls one after the other lead, whether they succeed or not. -/
def run (w : Workspace) : List Call → Workspace
  | [] => w
  | k :: rest => (w.perform k).2.run rest

/-- The calls that succeed among calls one after the other. -/
def succeeded (w : Workspace) : List Call → List Call
  | [] => []
  | k :: rest =>
      match w.perform k with
      | (.ok _, w') => k :: w'.succeeded rest
      | (.error _, w') => w'.succeeded rest

variable {w w' : Workspace} {k : Call} {c : Composite}

private theorem perform_of_error {f : Failure LayoutError} (h : (w.perform k).1 = .error f) :
    (w.perform k).2 = w := by
  cases k with
  | setSize c size => exact refine_of_error h
  | define c r spec => exact refine_of_error h
  | finish c floor l computed => exact refine_of_error h

theorem refine_eq_ok {a : Attempt LayoutError Definitions} {x : Declared}
    (h : w.refine c a = (.ok x, w')) :
    ∃ defs, a = .ok defs ∧ w' = { w with definitions := defs } := by
  cases a with
  | ok defs =>
      cases h
      exact ⟨defs, rfl, rfl⟩
  | error f => cases h

/-- What a call that succeeds does to its composite, which comes to `p`. -/
structure Accepts (w : Workspace) (k : Call) (p : Progress) : Prop where
  move : (w.definitions.progress k.composite).Move p
  remaining : (k.operation :: p.remaining).Sublist
    (w.definitions.progress k.composite).remaining
  floored : ∀ c n, k = .setSize c n → p = .floored n

private theorem Accepts.computed {l : Layout} (hk : k.operation = .define)
    (hnone : w.definitions.layout? k.composite = none)
    (hfloor : (w.definitions.progress k.composite).floor ≤ l.size) : w.Accepts k (.computed l) := by
  refine ⟨Progress.move_computed hnone hfloor, ?_, ?_⟩
  · rw [hk]
    exact Progress.define_sublist_remaining hnone
  · rintro c n rfl
    cases hk

private theorem perform_eq_ok {x : Declared} (h : w.perform k = (.ok x, w')) :
    ∃ p, w.Accepts k p ∧ w' = { w with definitions := w.definitions.set k.composite p } := by
  cases k with
  | setSize c size =>
      obtain ⟨defs, hset, rfl⟩ := refine_eq_ok h
      obtain ⟨hdeclared, rfl⟩ := Definitions.setSize_eq_ok hset
      refine ⟨.floored size, ⟨?_, ?_, ?_⟩, rfl⟩
      · rw [Call.composite, hdeclared]
        exact .floor size
      · rw [Call.composite, hdeclared]
        exact List.Sublist.refl _
      · intro d n heq
        cases heq
        rfl
  | define c r spec =>
      obtain ⟨defs, hmap, rfl⟩ := refine_eq_ok h
      obtain ⟨⟨l, defs'⟩, hdefine, rfl⟩ := map_eq_ok.1 hmap
      obtain ⟨hnone, hcompute, rfl⟩ := Definitions.define_eq_ok hdefine
      have hfloor := Layout.floor_le_of_compute hcompute
      exact ⟨.computed l, .computed rfl hnone hfloor, rfl⟩
  | finish c floor l computed =>
      obtain ⟨defs, hmap, rfl⟩ := refine_eq_ok h
      obtain ⟨p, hcommit, rfl⟩ := map_eq_ok.1 hmap
      obtain ⟨hnone, hle, rfl⟩ := Progress.commit_eq_ok hcommit
      obtain ⟨defs, r, spec, hcompute⟩ := computed
      have hfloor := hle.trans (Layout.floor_le_of_compute hcompute)
      exact ⟨.computed l, .computed rfl hnone hfloor, rfl⟩

private theorem perform_cases (w : Workspace) (k : Call) :
    (∃ f, w.perform k = (.error f, w)) ∨
      ∃ x p, w.perform k =
          (.ok x, { w with definitions := w.definitions.set k.composite p }) ∧
        w.Accepts k p := by
  rcases hk : w.perform k with ⟨f | x, w'⟩
  · have hsame : (w.perform k).2 = w := perform_of_error (by rw [hk])
    rw [hk] at hsame
    exact .inl ⟨f, congrArg _ hsame⟩
  · obtain ⟨p, haccepts, rfl⟩ := perform_eq_ok hk
    exact .inr ⟨x, p, rfl, haccepts⟩

/-- Whether a call succeeds or not, each composite moves on or stays as it is. -/
theorem perform_move (w : Workspace) (k : Call) (c : Composite) :
    Relation.ReflGen Progress.Move (w.definitions.progress c)
      ((w.perform k).2.definitions.progress c) := by
  obtain ⟨f, hk⟩ | ⟨x, p, hk, haccepts⟩ := w.perform_cases k
  · rw [hk]
  · rw [hk, Definitions.progress_set]
    split
    · rename_i hc
      rw [hc]
      exact .single haccepts.move
    · exact .refl

private theorem run_move (w : Workspace) (calls : List Call) (c : Composite) :
    Relation.ReflGen Progress.Move (w.definitions.progress c)
      ((w.run calls).definitions.progress c) := by
  induction calls generalizing w with
  | nil => exact .refl
  | cons k rest ih => exact IsTrans.trans _ _ _ (w.perform_move k c) (ih _)

private theorem succeeded_sublist (w : Workspace) (calls : List Call) (c : Composite) :
    (((w.succeeded calls).filter (·.composite = c)).map Call.operation).Sublist
      (w.definitions.progress c).remaining := by
  induction calls generalizing w with
  | nil => exact List.nil_sublist _
  | cons k rest ih =>
      obtain ⟨f, hk⟩ | ⟨x, p, hk, haccepts⟩ := w.perform_cases k
      · rw [succeeded, hk]
        exact ih w
      · have hrest := ih { w with definitions := w.definitions.set k.composite p }
        rw [succeeded, hk]
        exact Progress.cons_sublist_remaining haccepts.remaining hrest

/-- Calls that fail may as well not be made. -/
theorem run_succeeded (w : Workspace) (calls : List Call) :
    w.run (w.succeeded calls) = w.run calls ∧
      w.succeeded (w.succeeded calls) = w.succeeded calls := by
  induction calls generalizing w with
  | nil => exact ⟨rfl, rfl⟩
  | cons k rest ih =>
      obtain ⟨f, hk⟩ | ⟨x, p, hk, -⟩ := w.perform_cases k
      · rw [succeeded, run, hk]
        exact ih w
      · obtain ⟨hrun, hsucceeded⟩ := ih { w with definitions := w.definitions.set k.composite p }
        rw [succeeded, run, hk]
        simp only [run, succeeded, hk, hrun, hsucceeded, and_self]

private theorem le_size_of_succeeded {calls : List Call} {n : Nat}
    (h : .setSize c n ∈ w.succeeded calls) :
    n ≤ ((w.run calls).definitions.progress c).size := by
  induction calls generalizing w with
  | nil => cases h
  | cons k rest ih =>
      obtain ⟨f, hk⟩ | ⟨x, p, hk, haccepts⟩ := w.perform_cases k
      · rw [succeeded, hk] at h
        rw [run, hk]
        exact ih h
      · rw [succeeded, hk] at h
        rw [run, hk]
        rcases List.mem_cons.1 h with rfl | h
        · obtain rfl := haccepts.floored c n rfl
          have hmove := run_move
            { w with definitions := w.definitions.set c (.floored n) } rest c
          rw [Definitions.progress_set, if_pos rfl] at hmove
          exact Progress.size_le_of_reflGen hmove
        · exact ih h

/-- However calls on composites succeed and fail, each composite only moves on: at most one least
size and at most one definition are accepted, in this order, a failed call leaves everything as it
was and a run comes out as without it, a layout that is there answers everything from then on, and
the size never decreases nor falls below a least size that was accepted. -/
theorem run_lifecycle (w : Workspace) (calls : List Call) (c : Composite) :
    let p := w.definitions.progress c
    let p' := (w.run calls).definitions.progress c
    Relation.ReflGen Progress.Move p p' ∧
      (((w.succeeded calls).filter (·.composite = c)).map Call.operation).Sublist p.remaining ∧
      (∀ k f, ((w.run calls).perform k).1 = .error f →
        ((w.run calls).perform k).2 = w.run calls) ∧
      (w.run (w.succeeded calls) = w.run calls ∧
        w.succeeded (w.succeeded calls) = w.succeeded calls) ∧
      (∀ l, p.layout? = some l → p'.layout? = some l ∧
        p'.size = l.size ∧ p'.alignment = l.alignment ∧ p'.members = l.members ∧
        p'.offsets = l.offsets ∧ ∀ name, p'.offsetOf? name = l.offsetOf? name) ∧
      p.size ≤ p'.size ∧
      ∀ n, .setSize c n ∈ w.succeeded calls → n ≤ p'.size := by
  intro p p'
  have hmove : Relation.ReflGen Progress.Move p p' := w.run_move calls c
  refine ⟨hmove, w.succeeded_sublist calls c, fun k f h => perform_of_error h,
    w.run_succeeded calls, ?_, Progress.size_le_of_reflGen hmove,
    fun n h => le_size_of_succeeded h⟩
  intro l hl
  rw [Progress.eq_of_reflGen hmove hl]
  exact ⟨hl, Progress.answers_of_layout? hl⟩

end Workspace

namespace Sample

/-- A definition that fails: a struct cannot hold itself. -/
def recursiveCall : Call :=
  .define packet resolver (.keyed [("next", .single (.composite packet))])

def pointCall : Call := .define packet resolver pointSpec

/-- A definition that began when there was no least size. -/
def overtakenCall : Call := .finish packet 0 pointLayout ⟨.empty, resolver, pointSpec, rfl⟩

def calls : List Call :=
  [recursiveCall, .setSize packet 40, .setSize packet 50, overtakenCall, pointCall]

def called : Workspace := workspace.run calls

def lateCalls : List Call := [.setSize packet 100, recursiveCall]

end Sample

theorem Workspace.run_lifecycle_packet :
    Sample.workspace.succeeded Sample.calls = [.setSize Sample.packet 40, Sample.pointCall] ∧
      Sample.workspace.run [.setSize Sample.packet 40, Sample.pointCall] = Sample.called ∧
      40 ≤ (Sample.called.definitions.progress Sample.packet).size ∧
      Sample.called.definitions.layout? Sample.packet =
        some { Sample.pointLayout with size := 40 } ∧
      ((Sample.called.run Sample.lateCalls).definitions.progress Sample.packet).size = 40 ∧
      ((Sample.called.run Sample.lateCalls).definitions.progress Sample.packet).members =
        ["x", "y"] ∧
      (Sample.called.perform (.setSize Sample.packet 100)).2 = Sample.called := by
  have hsucceeded : Sample.workspace.succeeded Sample.calls =
      [.setSize Sample.packet 40, Sample.pointCall] := rfl
  have hlayout : Sample.called.definitions.layout? Sample.packet =
      some { Sample.pointLayout with size := 40 } := rfl
  have hfails : ∃ f, (Sample.called.perform (.setSize Sample.packet 100)).1 = .error f :=
    ⟨_, rfl⟩
  obtain ⟨-, -, hfailed, ⟨hrun, -⟩, -, -, hfloor⟩ :=
    run_lifecycle Sample.workspace Sample.calls Sample.packet
  obtain ⟨-, -, -, -, hsettled, -, -⟩ := run_lifecycle Sample.called Sample.lateCalls Sample.packet
  obtain ⟨-, hsize, -, hmembers, -⟩ := hsettled _ hlayout
  obtain ⟨f, hf⟩ := hfails
  rw [hsucceeded] at hrun hfloor
  exact ⟨hsucceeded, hrun, hfloor 40 (by simp), hlayout, hsize, hmembers, hfailed _ f hf⟩

end ForeignBinding
