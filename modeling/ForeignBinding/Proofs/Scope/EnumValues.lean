import ForeignBinding.Proofs.Attach.Function
import ForeignBinding.Proofs.Scope.Frames

/-!
# Symbols of enumerations

The values of symbols are kept three times: in the enumerations, in one map for each scope, and in
the map of all scopes that builders of invokers are given. All of them give a symbol the value that
the latest enumeration with it has, in the innermost scope with such an enumeration.
-/

namespace ForeignBinding

open Attempt

namespace Enumeration

variable {e : Enumeration} {symbol : String} {value : Int64}

private theorem find?_eq_none_iff : e.find? symbol = none ↔ symbol ∉ e.symbols := by
  rw [find?, List.lookup_eq_none_iff, symbols, List.mem_map]
  constructor
  · rintro hnone ⟨p, hp, rfl⟩
    simpa using hnone p (List.mem_reverse.2 hp)
  · intro hnot p hp
    have hne : symbol ≠ p.1 := fun heq => hnot ⟨p, List.mem_reverse.1 hp, heq.symm⟩
    simpa using hne

/-- Of a repeated symbol the last value counts. -/
theorem find?_eq_some_iff :
    e.find? symbol = some value ↔ ∃ earlier later,
      e.enumerators = earlier ++ (symbol, value) :: later ∧ ∀ p ∈ later, symbol ≠ p.1 := by
  rw [find?, List.lookup_eq_some_iff]
  constructor
  · rintro ⟨later, earlier, heq, hlater⟩
    refine ⟨earlier.reverse, later.reverse, ?_, ?_⟩
    · simpa using congrArg List.reverse heq
    · intro p hp
      simpa using hlater p (List.mem_reverse.1 hp)
  · rintro ⟨earlier, later, heq, hlater⟩
    refine ⟨later.reverse, earlier.reverse, by simp [heq], ?_⟩
    intro p hp
    simpa using hlater p (List.mem_reverse.1 hp)

end Enumeration

namespace Registry

variable {r : Registry} {symbol : String}

/-- The values of all symbols are those in the latest enumerations. -/
def Tallied (r : Registry) : Prop :=
  ∀ symbol, r.enumValues.get? symbol = r.enumerations.reverse.findSome? (·.find? symbol)

private theorem tallied_empty : empty.Tallied := fun _ => rfl

private theorem Tallied.insertEnum (h : r.Tallied) (e : Enumeration) :
    (r.insertEnum e).Tallied := by
  intro symbol
  have hvalues : (r.insertEnum e).enumValues = r.enumValues.insertAll e.enumerators := rfl
  have hall : (r.insertEnum e).enumerations = r.enumerations ++ [e] := rfl
  rw [hvalues, hall, NameMap.get?_insertAll, h symbol, List.reverse_append, List.findSome?_append]
  simp [Enumeration.find?]

/-- The enumeration is the latest with the symbol. -/
def LatestWith (r : Registry) (symbol : String) (e : Enumeration) : Prop :=
  ∃ before after, r.enumerations = before ++ e :: after ∧ symbol ∈ e.symbols ∧
    ∀ e' ∈ after, symbol ∉ e'.symbols

private theorem Tallied.get?_eq_some_iff (h : r.Tallied) {value : Int64} :
    r.enumValues.get? symbol = some value ↔
      ∃ e, r.LatestWith symbol e ∧ e.find? symbol = some value := by
  rw [h symbol, List.findSome?_eq_some_iff]
  constructor
  · rintro ⟨after, e, before, heq, hvalue, hafter⟩
    have hmem : symbol ∈ e.symbols := by
      by_contra hnot
      rw [Enumeration.find?_eq_none_iff.2 hnot] at hvalue
      cases hvalue
    refine ⟨e, ⟨before.reverse, after.reverse, ?_, hmem, ?_⟩, hvalue⟩
    · simpa using congrArg List.reverse heq
    · intro e' he'
      exact Enumeration.find?_eq_none_iff.1 (hafter e' (List.mem_reverse.1 he'))
  · rintro ⟨e, ⟨before, after, heq, -, hafter⟩, hvalue⟩
    refine ⟨after.reverse, e, before.reverse, by simp [heq], hvalue, ?_⟩
    intro e' he'
    exact Enumeration.find?_eq_none_iff.2 (hafter e' (List.mem_reverse.1 he'))

theorem Tallied.get?_eq_none_iff (h : r.Tallied) :
    r.enumValues.get? symbol = none ↔ ∀ e ∈ r.enumerations, symbol ∉ e.symbols := by
  simp [h symbol, Enumeration.find?_eq_none_iff]

end Registry

namespace Scope

variable {s : Scope} {symbol : String}

/-- The enumeration is the latest with the symbol in the innermost scope that has one. -/
def EnumOf (s : Scope) (symbol : String) (e : Enumeration) : Prop :=
  ∃ inner r outer, s.registries = inner ++ r :: outer ∧
    (∀ r' ∈ inner, ∀ e' ∈ r'.enumerations, symbol ∉ e'.symbols) ∧ r.LatestWith symbol e

/-- The maps of the scope and those around it agree with their enumerations. -/
def Tallied (s : Scope) : Prop :=
  ∀ r ∈ s.registries, r.Tallied

private theorem get?_enumValues (s : Scope) (symbol : String) :
    s.enumValues.get? symbol = s.enumValue? symbol := by
  rw [enumValues, enumValue?]
  induction s.registries with
  | nil => rfl
  | cons r outer ih =>
      rw [List.foldr_cons, NameMap.get?_insertAll, NameMap.lookup_reverse, ih, List.findSome?_cons]
      cases r.enumValues.get? symbol <;> rfl

private theorem Tallied.enumValue?_eq_some_iff (h : s.Tallied) {value : Int64} :
    s.enumValue? symbol = some value ↔
      ∃ e, s.EnumOf symbol e ∧ e.find? symbol = some value := by
  rw [enumValue?, List.findSome?_eq_some_iff]
  constructor
  · rintro ⟨inner, r, outer, heq, hvalue, hinner⟩
    have hr : r.Tallied := h r (by simp [heq])
    obtain ⟨e, hlatest, he⟩ := hr.get?_eq_some_iff.1 hvalue
    refine ⟨e, ⟨inner, r, outer, heq, ?_, hlatest⟩, he⟩
    intro r' hr'
    exact (h r' (by simp [heq, hr'])).get?_eq_none_iff.1 (hinner r' hr')
  · rintro ⟨e, ⟨inner, r, outer, heq, hinner, hlatest⟩, he⟩
    have hr : r.Tallied := h r (by simp [heq])
    refine ⟨inner, r, outer, heq, hr.get?_eq_some_iff.2 ⟨e, hlatest, he⟩, ?_⟩
    intro r' hr'
    exact (h r' (by simp [heq, hr'])).get?_eq_none_iff.2 (hinner r' hr')

private theorem Tallied.enumValue?_eq_none_iff (h : s.Tallied) :
    s.enumValue? symbol = none ↔
      ∀ r ∈ s.registries, ∀ e ∈ r.enumerations, symbol ∉ e.symbols := by
  rw [enumValue?, List.findSome?_eq_none_iff]
  exact forall₂_congr fun r hr => (h r hr).get?_eq_none_iff

end Scope

theorem Session.Reachable.tallied {t : Session} (ht : t.Reachable) :
    ∀ s ∈ t.scopes, s.Tallied := by
  have hframes : ∀ s ∈ t.scopes, ∀ F ∈ s.frames, F.registry.Tallied := by
    apply ht.forall_frames (P := fun F => F.registry.Tallied)
    · intro name convention
      exact Registry.tallied_empty
    · intro s F hstep hs
      have hown : s.registry.Tallied := hs s.frame List.mem_cons_self
      cases hstep with
      | enumeration e => exact hown.insertEnum e
      | _ => exact hown
  intro s hs
  exact List.forall_mem_map.2 (hframes s hs)

/-- The enumeration that a declaration declares, if any. -/
def Declaration.enumeration? : Declaration → Option Enumeration
  | enumeration name items => some (.ofItems name items)
  | _ => none

def Action.enumeration? : Action → Option Enumeration
  | declare d => d.enumeration?
  | enumeration name items => some (.ofItems name items)
  | _ => none

namespace Workspace

variable {w : Workspace}

/-- The enumerations that the scope itself has declared, in order. -/
def enumerations (w : Workspace) : List Enumeration :=
  w.scope.registry.enumerations

private theorem enumerations_step {ε α : Type} {made : α → Declared} {a : Attempt ε (α × Scope)}
    (h : ∀ x s, a = .ok (x, s) → s.registry.enumerations = w.enumerations) :
    (w.step made a).2.enumerations = w.enumerations := by
  cases ha : a with
  | error f => rfl
  | ok y => exact h y.1 y.2 ha

private theorem enumerations_withComposite (w : Workspace) (kind : CompositeKind) (name : String)
    {next : Workspace → Composite → Attempt LayoutError Declared × Workspace}
    (hnext : ∀ w c, (next w c).2.scope = w.scope) :
    (w.withComposite kind name next).2.enumerations = w.enumerations := by
  cases hname : w.scope.registry.composites.get? name with
  | none =>
      rw [withComposite_of_none hname, enumerations, hnext]
      rfl
  | some c =>
      rw [withComposite_of_some hname]
      split
      · rw [enumerations, hnext]
        rfl
      · rfl

private theorem enumerations_declareSize (w : Workspace) (name : String) (size : Nat) :
    (w.declareSize name size).2.enumerations = w.enumerations := by
  unfold declareSize
  cases w.scope.registry.composites.get? name with
  | none => exact w.enumerations_withComposite .struct name (setSize_scope size)
  | some c => exact congrArg (·.registry.enumerations) (setSize_scope size w c)

private theorem enumerations_declare_of_none {d : Declaration} (h : d.enumeration? = none) :
    (w.declare d).2.enumerations = w.enumerations := by
  cases d with
  | enumeration name items => cases h
  | convention c => rfl
  | libraries names =>
      refine enumerations_step (a := (w.scope.declareLibraries names).1) fun set s hs => ?_
      obtain ⟨-, rfl⟩ := Scope.declareLibraries_eq_ok hs
      rfl
  | typedef existing name =>
      refine enumerations_step (a := w.scope.typedef existing name) fun d s hs => ?_
      obtain ⟨-, rfl⟩ := Scope.typedef_eq_ok hs
      rfl
  | callback name params ret =>
      refine enumerations_step (a := w.scope.callback name params ret) fun d s hs => ?_
      obtain ⟨sig, -, -, rfl⟩ := Scope.callback_eq_ok hs
      cases name <;> rfl
  | composite kind name layout =>
      exact w.enumerations_withComposite kind name (define_scope layout)
  | size name size => exact w.enumerations_declareSize name size
  | function d =>
      refine enumerations_step (a := (w.scope.attachFunction d).1) fun b s hs => ?_
      obtain ⟨libraries, build, -, -, -, rfl⟩ := Scope.attachFunction_eq_ok hs
      rfl
  | global d =>
      refine enumerations_step (a := w.scope.attachVariable w.definitions d) fun b s hs => ?_
      obtain ⟨libraries, -, -, rfl⟩ := Scope.attachVariable_eq_ok hs
      rfl

private theorem enumerations_declare (w : Workspace) (d : Declaration) :
    (w.declare d).2.enumerations = w.enumerations ++ d.enumeration?.toList := by
  cases he : d.enumeration? with
  | none =>
      rw [enumerations_declare_of_none he]
      exact (List.append_nil _).symm
  | some e =>
      cases d with
      | enumeration name items =>
          cases he
          rfl
      | _ => cases he

theorem enumerations_act (w : Workspace) (a : Action) :
    (w.act a).enumerations = w.enumerations ++ a.enumeration?.toList := by
  cases a with
  | declare d => exact w.enumerations_declare d
  | libraries names => exact w.enumerations_declare (.libraries names)
  | convention c => exact w.enumerations_declare (.convention c)
  | typedef existing name => exact w.enumerations_declare (.typedef existing name)
  | enumeration name items => exact w.enumerations_declare (.enumeration name items)
  | callback name params ret => exact w.enumerations_declare (.callback name params ret)
  | composite kind name => exact w.enumerations_declare (.composite kind name none)
  | function d => exact w.enumerations_declare (.function d)
  | global d => exact w.enumerations_declare (.global d)
  | layout | setSize =>
      rw [act]
      split <;> exact (List.append_nil _).symm

/-- The enumerations of a scope are those that were declared, in this order. -/
theorem enumerations_actAll (w : Workspace) (as : List Action) :
    (w.actAll as).enumerations = w.enumerations ++ as.filterMap Action.enumeration? := by
  induction as generalizing w with
  | nil => exact (List.append_nil _).symm
  | cons a as ih =>
      have hrest : w.actAll (a :: as) = (w.act a).actAll as := rfl
      rw [hrest, ih, enumerations_act, List.append_assoc, List.filterMap_cons]
      cases a.enumeration? <;> rfl

end Workspace

private theorem mem_inquire {build : InvokerBuilder} {request : Library → InvokerRequest}
    {libraries : List Library} {q : InvokerRequest} (h : q ∈ (inquire build request libraries).2) :
    ∃ l ∈ libraries, q = request l := by
  induction libraries with
  | nil => cases h
  | cons l rest ih =>
      by_cases hl : build.Lacks (request l)
      · obtain ⟨f, hf, hload⟩ := InvokerBuilder.lacks_iff.1 hl
        rw [inquire_cons rest hf hload] at h
        rcases List.mem_cons.1 h with rfl | h
        · exact ⟨l, List.mem_cons_self, rfl⟩
        · obtain ⟨k, hk, hq⟩ := ih h
          exact ⟨k, List.mem_cons_of_mem l hk, hq⟩
      · have hfirst : inquire build request (l :: rest) =
            (.ofAnswer l (build (request l)), [request l]) :=
          inquire_of_answer rest (List.forall_mem_nil _) hl
        rw [hfirst] at h
        exact ⟨l, List.mem_cons_self, List.mem_singleton.1 h⟩

namespace Scope

variable {s : Scope} {d : FunctionDecl} {q : InvokerRequest}

private theorem enums_of_mem_attachFunction (h : q ∈ (s.attachFunction d).2) :
    q.enums = s.enumValues := by
  by_cases hready : s.Unready d
  · obtain ⟨f, hf, -⟩ := attachFunction_of_unready hready
    rw [hf] at h
    cases h
  · obtain ⟨libraries, build, sig, hlibraries, hbuild, hsig⟩ := exists_of_not_unready hready
    rw [attachFunction_eq hlibraries hbuild hsig] at h
    obtain ⟨l, -, rfl⟩ := mem_inquire h
    rfl

end Scope

/-- However enumerations have been declared in a scope and those around it, the value of a symbol
is that in the latest enumeration with it in the innermost scope that has one, and no value where
there is none. It is the same in the map of all symbols, and in the one that a builder is given
whenever a function is attached. Operations keep all enumerations in the order in which they are
declared, and of a symbol repeated in one of them the last value counts. -/
theorem Workspace.enumValues_agree {w : Workspace} (hw : w.Reachable) (symbol : String) :
    let s := w.scope
    (∀ value, s.enumValue? symbol = some value ↔
        ∃ e, s.EnumOf symbol e ∧ e.find? symbol = some value) ∧
      (s.enumValue? symbol = none ↔
        ∀ r ∈ s.registries, ∀ e ∈ r.enumerations, symbol ∉ e.symbols) ∧
      s.enumValues.get? symbol = s.enumValue? symbol ∧
      (∀ invokers d, ∀ q ∈ ({ s with host.invokers := invokers }.attachFunction d).2,
        q.enums.get? symbol = s.enumValue? symbol) ∧
      (∀ as, (w.actAll as).enumerations = w.enumerations ++ as.filterMap Action.enumeration?) ∧
      ∀ (e : Enumeration) value, e.find? symbol = some value ↔ ∃ earlier later,
        e.enumerators = earlier ++ (symbol, value) :: later ∧ ∀ p ∈ later, symbol ≠ p.1 := by
  intro s
  have htallied : s.Tallied := hw.holds (P := fun s _ => s.Tallied) fun _ ht => ht.tallied
  refine ⟨fun value => htallied.enumValue?_eq_some_iff, htallied.enumValue?_eq_none_iff,
    s.get?_enumValues symbol, ?_, w.enumerations_actAll, fun e value => ?_⟩
  · intro invokers d q hq
    rw [Scope.enums_of_mem_attachFunction hq]
    exact s.get?_enumValues symbol
  · exact Enumeration.find?_eq_some_iff

-- The outer scope has a symbol in two enumerations and one that is repeated in the second, and
-- the inner scope has one of them again.
namespace Sample

def states : List EnumItem := [.implicit "idle", .implicit "busy", .implicit "lost"]

def overrides : List EnumItem := [.explicit "busy" 5, .explicit "busy" 6]

def stated : Workspace :=
  ((Workspace.new (.new "main" opener)).actAll
    [.declare (.enumeration (some "state") states), .declare (.enumeration none overrides)])

def restated : Workspace :=
  ({ stated with scope := .nested "inner" stated.scope }.actAll
    [.declare (.libraries [.named "m", .named "z"]),
      .declare (.enumeration (some "phase") [.explicit "idle" 9])])

private theorem restated_reachable : restated.Reachable := by
  have hnew : (Workspace.new (.new "main" opener)).Reachable :=
    ⟨_, .single (.new "main" opener), List.mem_cons_self, rfl⟩
  have hstated : stated.Reachable := (hnew.declare _).declare _
  exact ((hstated.nested "inner").declare _).declare _

def state : Enumeration := .ofItems (some "state") states

def override : Enumeration := .ofItems none overrides

def phase : Enumeration := .ofItems (some "phase") [.explicit "idle" 9]

private theorem registries_restated : restated.scope.registries.map (·.enumerations) =
    [[phase], [state, override]] := rfl

private theorem enumOf_idle : restated.scope.EnumOf "idle" phase :=
  ⟨[], _, _, rfl, by simp, [], [], rfl, by decide, by simp⟩

private theorem enumOf_busy : restated.scope.EnumOf "busy" override := by
  refine ⟨[restated.scope.registry], stated.scope.registry, [], rfl, ?_, [state], [], rfl,
    by decide, by simp⟩
  have hinner : ∀ e ∈ [phase], "busy" ∉ e.symbols := by decide
  exact List.forall_mem_singleton.2 hinner

end Sample

theorem Workspace.enumValues_agree_restated :
    let attaching := { Sample.restated.scope with host.invokers := some Sample.onlyInZ }
    Sample.restated.Reachable ∧
      Sample.restated.scope.EnumOf "idle" Sample.phase ∧
      Sample.restated.scope.enumValue? "idle" = some 9 ∧
      Sample.restated.scope.EnumOf "busy" Sample.override ∧
      Sample.restated.scope.enumValue? "busy" = some 6 ∧
      Sample.restated.scope.enumValues.get? "busy" = some 6 ∧
      (attaching.attachFunction Sample.deflate).2.map (fun q => q.library.name) =
        [some "m", some "z"] ∧
      (∀ q ∈ (attaching.attachFunction Sample.deflate).2, q.enums.get? "busy" = some 6) ∧
      Sample.restated.scope.enumValue? "gone" = none := by
  intro attaching
  have hidle : Sample.phase.find? "idle" = some 9 := rfl
  have hbusy : Sample.override.find? "busy" = some 6 := rfl
  have hgone : ∀ es ∈ Sample.restated.scope.registries.map (·.enumerations), ∀ e ∈ es,
      "gone" ∉ e.symbols := by
    rw [Sample.registries_restated]
    decide
  have hmade : (attaching.attachFunction Sample.deflate).2.map (fun q => q.library.name) =
      [some "m", some "z"] := rfl
  obtain ⟨hidleValue, -⟩ := enumValues_agree Sample.restated_reachable "idle"
  obtain ⟨hbusyValue, -, hmap, hgiven, -⟩ := enumValues_agree Sample.restated_reachable "busy"
  obtain ⟨-, hnone, -⟩ := enumValues_agree Sample.restated_reachable "gone"
  have hvalue : Sample.restated.scope.enumValue? "busy" = some 6 :=
    (hbusyValue 6).2 ⟨Sample.override, Sample.enumOf_busy, hbusy⟩
  refine ⟨Sample.restated_reachable, Sample.enumOf_idle,
    (hidleValue 9).2 ⟨Sample.phase, Sample.enumOf_idle, hidle⟩, Sample.enumOf_busy, hvalue,
    hmap.trans hvalue, hmade, ?_, hnone.2 (List.forall_mem_map.1 hgone)⟩
  intro q hq
  exact (hgiven (some Sample.onlyInZ) Sample.deflate q hq).trans hvalue

end ForeignBinding
