import ForeignBinding.Library.Table
import ForeignBinding.Manifest.Check
import ForeignBinding.Manifest.Types
import ForeignBinding.Proofs.Declaration.Failure
import ForeignBinding.Proofs.Document
import ForeignBinding.Report

/-!
# Types do not depend on libraries

Two runs of declarations, one of which leaves out what is not about types, go through scopes that
see the same types and the same layouts. So where a whole manifest can be carried out, its types
alone can, and come out the same.
-/

namespace ForeignBinding

open Attempt

/-- The scopes see the same types, and declare new ones in the same way. -/
structure Scope.SameTypes (s t : Scope) : Prop where
  registry : s.registry = t.registry
  outer : s.ancestors.map (·.registry) = t.ancestors.map (·.registry)
  base : s.host.base = t.host.base
  convention : s.frame.convention = t.frame.convention

namespace Scope.SameTypes

variable {s t u : Scope}

theorem refl (s : Scope) : s.SameTypes s := ⟨rfl, rfl, rfl, rfl⟩

theorem trans (h : s.SameTypes t) (h' : t.SameTypes u) : s.SameTypes u :=
  ⟨h.registry.trans h'.registry, h.outer.trans h'.outer, h.base.trans h'.base,
    h.convention.trans h'.convention⟩

private theorem resolver_eq (h : s.SameTypes t) : s.resolver = t.resolver := by
  rw [resolver, resolver, registries, registries, h.registry, h.outer, h.base]

private theorem withRegistry (h : s.SameTypes t) (change : Registry → Registry) :
    (s.withRegistry (change s.registry)).SameTypes (t.withRegistry (change t.registry)) :=
  ⟨congrArg change h.registry, h.outer, h.base, h.convention⟩

end Scope.SameTypes

namespace Workspace

/-- The scopes see the same types, of which the same is known. -/
structure SameTypes (w v : Workspace) : Prop where
  scope : w.scope.SameTypes v.scope
  definitions : w.definitions = v.definitions

/-- The same came of both, and the workspaces still see the same types. -/
structure SameOutcome {ε : Type} (x y : Attempt ε Declared × Workspace) : Prop where
  result : x.1 = y.1
  workspace : x.2.SameTypes y.2

variable {w v : Workspace}

theorem SameTypes.trans {u : Workspace} (h : w.SameTypes v) (h' : v.SameTypes u) :
    w.SameTypes u :=
  ⟨h.scope.trans h'.scope, h.definitions.trans h'.definitions⟩

private theorem SameOutcome.conclude {ε : Type} [IsCause ε] {x y : Attempt ε Declared × Workspace}
    (h : SameOutcome x y) (d : Declaration) : SameOutcome (conclude d x) (conclude d y) :=
  ⟨by rw [Workspace.conclude, Workspace.conclude, h.result], h.workspace⟩

namespace SameTypes

private theorem typedef (h : w.SameTypes v) (existing : TypeRef) (name : String) :
    SameOutcome (w.step .type (w.scope.typedef existing name))
      (v.step .type (v.scope.typedef existing name)) := by
  simp only [Scope.typedef, Scope.findType, h.scope.resolver_eq]
  cases v.scope.resolver.resolve existing with
  | error f => exact ⟨rfl, h⟩
  | ok d => exact ⟨rfl, h.scope.withRegistry (·.insertAlias name d), h.definitions⟩

private theorem callback (h : w.SameTypes v) (name : Option String) (params : List TypeRef)
    (ret : TypeRef) :
    SameOutcome (w.step .type (w.scope.callback name params ret))
      (v.step .type (v.scope.callback name params ret)) := by
  simp only [Scope.callback, h.scope.resolver_eq, h.scope.convention]
  cases v.scope.resolver.signature params ret v.scope.frame.convention with
  | error f => exact ⟨rfl, h⟩
  | ok sig =>
      cases name with
      | none => exact ⟨rfl, h⟩
      | some name => exact ⟨rfl, h.scope.withRegistry (·.insertCallback name sig), h.definitions⟩

private theorem introduce (h : w.SameTypes v) (kind : CompositeKind) (name : String) :
    (w.introduce kind name).SameTypes (v.introduce kind name) := by
  simp only [Workspace.introduce, h.definitions]
  exact ⟨h.scope.withRegistry (·.insertComposite _), rfl⟩

private theorem refine (h : w.SameTypes v) (c : Composite) (a : Attempt LayoutError Definitions) :
    SameOutcome (w.refine c a) (v.refine c a) := by
  cases a with
  | error f => exact ⟨rfl, h⟩
  | ok defs => exact ⟨rfl, h.scope, rfl⟩

private theorem define (h : w.SameTypes v) (layout : Option LayoutSpec) (c : Composite) :
    SameOutcome (define layout w c) (define layout v c) := by
  cases layout with
  | none => exact ⟨rfl, h⟩
  | some spec =>
      simp only [Workspace.define, h.scope.resolver_eq, h.definitions]
      exact h.refine c _

private theorem setSize (h : w.SameTypes v) (size : Nat) (c : Composite) :
    SameOutcome (setSize size w c) (setSize size v c) := by
  rw [Workspace.setSize, Workspace.setSize, h.definitions]
  exact h.refine c _

private theorem withComposite (h : w.SameTypes v) (kind : CompositeKind) (name : String)
    {next : Workspace → Composite → Attempt LayoutError Declared × Workspace}
    (hnext : ∀ {w v : Workspace}, w.SameTypes v → ∀ c, SameOutcome (next w c) (next v c)) :
    SameOutcome (w.withComposite kind name next) (v.withComposite kind name next) := by
  have hregistry := h.scope.registry
  cases hname : v.scope.registry.composites.get? name with
  | none =>
      rw [withComposite_of_none hname, withComposite_of_none (hregistry ▸ hname), h.definitions]
      exact hnext (h.introduce kind name) _
  | some c =>
      rw [withComposite_of_some hname, withComposite_of_some (hregistry ▸ hname)]
      split
      · exact hnext h c
      · exact ⟨rfl, h⟩

private theorem declareSize (h : w.SameTypes v) (name : String) (size : Nat) :
    SameOutcome (w.declareSize name size) (v.declareSize name size) := by
  rw [Workspace.declareSize, Workspace.declareSize, h.scope.registry]
  cases v.scope.registry.composites.get? name with
  | none => exact h.withComposite .struct name fun h c => h.setSize size c
  | some c => exact h.setSize size c

/-- A declaration of a type depends on types alone. -/
theorem declare (h : w.SameTypes v) {d : Declaration} (hd : d.isType) :
    SameOutcome (w.declare d) (v.declare d) := by
  cases d with
  | convention c => exact ⟨rfl, ⟨h.scope.registry, h.scope.outer, h.scope.base, rfl⟩, h.definitions⟩
  | typedef existing name => exact (h.typedef existing name).conclude _
  | enumeration name items =>
      exact ⟨rfl, h.scope.withRegistry (·.insertEnum (.ofItems name items)), h.definitions⟩
  | callback name params ret => exact (h.callback name params ret).conclude _
  | composite kind name layout =>
      exact (h.withComposite kind name fun h c => h.define layout c).conclude _
  | size name size => exact (h.declareSize name size).conclude _
  | libraries names => cases hd
  | function f => cases hd
  | global g => cases hd

end SameTypes

private theorem step_sameTypes {ε α : Type} {made : α → Declared} {a : Attempt ε (α × Scope)}
    (hw : w.SameTypes v) (h : ∀ x s, a = .ok (x, s) → s.SameTypes v.scope) :
    (w.step made a).2.SameTypes v := by
  cases a with
  | error f => exact hw
  | ok y => exact ⟨h y.1 y.2 rfl, hw.definitions⟩

/-- A declaration of libraries, a function or a variable does not touch types. -/
theorem declare_sameTypes (w : Workspace) {d : Declaration} (hd : d.isType = false) :
    (w.declare d).2.SameTypes w := by
  have hkept : ∀ opened consulted, SameTypes { w with opened, consulted } w :=
    fun _ _ => ⟨.refl _, rfl⟩
  cases d with
  | libraries names =>
      have hdone : ∀ set s, (w.scope.declareLibraries names).1 = .ok (set, s) →
          s.SameTypes w.scope := by
        intro set s hs
        obtain ⟨-, rfl⟩ := Scope.declareLibraries_eq_ok hs
        exact ⟨rfl, rfl, rfl, rfl⟩
      exact step_sameTypes (hkept _ w.consulted) hdone
  | function f =>
      have hdone : ∀ b s, (w.scope.attachFunction f).1 = .ok (b, s) → s.SameTypes w.scope := by
        intro b s hs
        obtain ⟨_, _, -, -, -, rfl⟩ := Scope.attachFunction_eq_ok hs
        exact ⟨rfl, rfl, rfl, rfl⟩
      exact step_sameTypes (hkept w.opened _) hdone
  | global g =>
      have hdone : ∀ b s, w.scope.attachVariable w.definitions g = .ok (b, s) →
          s.SameTypes w.scope := by
        intro b s hs
        obtain ⟨_, -, -, rfl⟩ := Scope.attachVariable_eq_ok hs
        exact ⟨rfl, rfl, rfl, rfl⟩
      exact step_sameTypes (hkept w.opened w.consulted) hdone
  | _ => cases hd

private theorem declareAll_of_check {w' : Workspace} {ds : List Declaration} {index : Nat}
    (h : w.SameTypes v) (hw : (w.check index ds).1 = .ok w') :
    ∃ v', v.declareAll (ds.filter Declaration.isType) = .ok v' ∧ w'.SameTypes v' := by
  induction ds generalizing w v index with
  | nil =>
      cases hw
      exact ⟨v, rfl, h⟩
  | cons d ds ih =>
      cases hdeclare : w.declare d with
      | mk result next =>
        rw [check, hdeclare] at hw
        cases result with
        | error f => cases hw
        | ok declared =>
          cases hd : d.isType with
          | false =>
              have hnext : next.SameTypes v :=
                .trans (by simpa only [hdeclare] using w.declare_sameTypes hd) h
              rw [List.filter_cons_of_neg (by simp [hd])]
              exact ih hnext hw
          | true =>
              obtain ⟨hresult, hnext⟩ := h.declare hd
              rw [hdeclare] at hresult hnext
              rw [List.filter_cons_of_pos hd, declareAll]
              cases hv : v.declare d with
              | mk result' next' =>
                rw [hv] at hresult hnext
                subst hresult
                exact ih hnext hw

end Workspace

namespace Report

open Document (listField)

/-- The sections about types. -/
def types (r : Registry) (defs : Definitions) : List (String × Document) :=
  listField "typedefs" (typedefs r) ++ listField "enums" (r.enumerations.map enumeration) ++
    listField "structs" (r.composites.entries.map (composite defs ·.2)) ++
    listField "callbacks" (r.callbacks.entries.map callback)

theorem field?_ofFrame (f : Frame) (defs : Definitions) {key : String}
    (hkey : key ∈ ["typedefs", "enums", "structs", "callbacks"]) :
    (ofFrame f defs).field? key = (types f.registry defs).lookup key := by
  have hother : ∀ name ∈ ["libraries", "functions", "variables"], key ≠ name := by
    rintro name hname rfl
    simp only [List.mem_cons, List.not_mem_nil, or_false] at hkey hname
    rcases hkey with rfl | rfl | rfl | rfl <;> simp at hname
  have hscope : (key == "scope") = false := by
    simp only [List.mem_cons, List.not_mem_nil, or_false] at hkey
    rcases hkey with rfl | rfl | rfl | rfl <;> rfl
  simp only [ofFrame, Document.field?, types, List.lookup_cons, hscope, List.lookup_append,
    Document.lookup_listField (hother "libraries" (by simp)),
    Document.lookup_listField (hother "functions" (by simp)),
    Document.lookup_listField (hother "variables" (by simp)), Option.none_or, Option.or_none]

end Report

/-- Where a manifest can be carried out, its types alone can be, on any host that has the same base
table, and the convention, the types and layouts, and what is reported of them are the same. Where
its types alone cannot be carried out, the manifest cannot be. -/
theorem Manifest.declareTypes_sameTypes (m : Manifest) {host host' : Host}
    (hbase : host.base = host'.base) :
    (∀ w, (m.check host).1 = .ok w →
      ∃ v, m.declareTypes host' = .ok v ∧
        v.scope.frame.convention = w.scope.frame.convention ∧
        v.scope.registry = w.scope.registry ∧ v.definitions = w.definitions ∧
        ∀ key ∈ ["typedefs", "enums", "structs", "callbacks"],
          (Report.ofScope v.scope v.definitions).field? key =
            (Report.ofScope w.scope w.definitions).field? key) ∧
      ∀ f, m.declareTypes host' = .error f → ∃ g, (m.check host).1 = .error g := by
  have hok : ∀ w, (m.check host).1 = .ok w →
      ∃ v, m.declareTypes host' = .ok v ∧ w.SameTypes v := by
    intro w hw
    have hnew : (Workspace.new (.new m.name { host with invokers := some .probe })).SameTypes
        (Workspace.new (.new m.name host')) := ⟨⟨rfl, rfl, hbase, rfl⟩, rfl⟩
    unfold check at hw
    unfold declareTypes
    cases hread : m.read with
    | error f =>
        rw [hread] at hw
        cases hw
    | ok ds =>
        rw [hread] at hw
        obtain ⟨v, hv, hsame⟩ := Workspace.declareAll_of_check hnew hw
        exact ⟨v, under_eq_ok.2 hv, hsame⟩
  constructor
  · intro w hw
    obtain ⟨v, hv, hsame⟩ := hok w hw
    refine ⟨v, hv, hsame.scope.convention.symm, hsame.scope.registry.symm,
      hsame.definitions.symm, ?_⟩
    intro key hkey
    have hregistry : w.scope.frame.registry = v.scope.frame.registry := hsame.scope.registry
    rw [Report.ofScope, Report.ofScope, Report.field?_ofFrame _ _ hkey,
      Report.field?_ofFrame _ _ hkey, hregistry, hsame.definitions]
  · intro f hf
    cases hcheck : (m.check host).1 with
    | error g => exact ⟨g, rfl⟩
    | ok w =>
        obtain ⟨v, hv, -⟩ := hok w hcheck
        rw [hf] at hv
        cases hv

namespace Sample

/-- A struct, a callback and a function of the C library. -/
def clock : Manifest where
  name := "clock"
  convention := some "stdcall"
  libraries := [.string "c"]
  declarations :=
    [.mapping [(.string "struct", .sequence [.string "time",
        .mapping [(.string "sec", .string "int64"), (.string "nsec", .string "int32")]])],
      .mapping [(.string "function", .sequence [.string "getpid", .sequence [], .string "int"])],
      .mapping [(.string "callback", .sequence [.string "tick", .sequence [.string "time"],
        .string "void"])]]

/-- An alias of a type that there is not. -/
def dangling : Manifest where
  name := "dangling"
  convention := none
  libraries := [.string "c"]
  declarations := [.mapping [(.string "typedef", .sequence [.string "nope", .string "t"])]]

end Sample

/-- The types of the clock come out on a host without libraries as where the function is found. -/
theorem Manifest.declareTypes_sameTypes_clock :
    Host.minimal.base = Sample.host.base ∧
      (∃ w v, (Sample.clock.check .minimal).1 = .ok w ∧
        Sample.clock.declareTypes Sample.host = .ok v ∧ v.scope.registry = w.scope.registry ∧
        (Report.ofScope v.scope v.definitions).field? "structs" =
          (Report.ofScope w.scope w.definitions).field? "structs") ∧
      ∃ f g, Sample.dangling.declareTypes Sample.host = .error f ∧
        (Sample.dangling.check .minimal).1 = .error g := by
  have hbase : Host.minimal.base = Sample.host.base := rfl
  have hclock : ∃ w, (Sample.clock.check .minimal).1 = .ok w := ⟨_, rfl⟩
  have hdangling : ∃ f, Sample.dangling.declareTypes Sample.host = .error f := ⟨_, rfl⟩
  obtain ⟨w, hw⟩ := hclock
  obtain ⟨f, hf⟩ := hdangling
  obtain ⟨v, hv, -, hregistry, -, hreport⟩ :=
    (Sample.clock.declareTypes_sameTypes hbase).1 w hw
  obtain ⟨g, hg⟩ := (Sample.dangling.declareTypes_sameTypes hbase).2 f hf
  exact ⟨hbase, ⟨w, v, hw, hv, hregistry, hreport "structs" (by simp)⟩, f, g, hf, hg⟩

end ForeignBinding
