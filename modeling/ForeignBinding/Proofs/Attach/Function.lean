import ForeignBinding.Proofs.Library.Resolution
import ForeignBinding.Proofs.Scope.Actions

/-!
# Functions are searched in order

The builder is asked about the libraries in order, up to the first that does not lack the function,
and its answer there is the outcome. Libraries that have been declared are never none, so where all
lack the function there is a first one, whose failure is reported.
-/

namespace ForeignBinding

open Attempt

/-- If libraries have been declared, there is one. -/
def Scope.Stocked (s : Scope) : Prop :=
  ∀ set, s.frame.libraries = some set → set.libraries ≠ []

namespace Workspace

variable {w w' : Workspace}

private theorem Step.stocked (h : w.Step w') (hw : w.scope.Stocked) : w'.scope.Stocked := by
  cases h with
  | opened | consulted | convention | composite | definitions => exact hw
  | libraries done =>
      obtain ⟨hopened, rfl⟩ := Scope.declareLibraries_eq_ok done
      intro set hset
      cases hset
      exact libraries_ne_nil hopened
  | typedef done =>
      obtain ⟨-, rfl⟩ := Scope.typedef_eq_ok done
      exact hw
  | enumeration => exact hw
  | @callback name _ _ _ _ done =>
      obtain ⟨sig, -, -, rfl⟩ := Scope.callback_eq_ok done
      cases name <;> exact hw
  | function done =>
      obtain ⟨libraries, build, -, -, -, rfl⟩ := Scope.attachFunction_eq_ok done
      exact hw
  | global done =>
      obtain ⟨libraries, -, -, rfl⟩ := Scope.attachVariable_eq_ok done
      exact hw

private theorem Run.stocked (h : w.Run w') (hw : w.scope.Stocked) : w'.scope.Stocked := by
  induction h with
  | refl => exact hw
  | tail _ hstep ih => exact hstep.stocked ih

end Workspace

theorem Session.Reachable.stocked {t : Session} (ht : t.Reachable) :
    ∀ s ∈ t.scopes, s.Stocked := by
  refine Reachable.forall_scopes (P := fun s _ => s.Stocked) ht ?_ ?_ ?_ ?_
  · intro name host defs set hset
    cases hset
  · intro name s defs _ _ set hset
    cases hset
  · intro w d hknown hw
    exact (Workspace.run_declare hknown d).stocked hw
  · intro s defs defs' _ hs
    exact hs

/-- The library that is asked about is said to lack the function. -/
def InvokerBuilder.Lacks (build : InvokerBuilder) (q : InvokerRequest) : Prop :=
  ∃ f symbol library, build q = .error f ∧ f.cause = .notFound symbol library

theorem InvokerBuilder.lacks_iff {build : InvokerBuilder} {q : InvokerRequest} :
    build.Lacks q ↔ ∃ f, build q = .error f ∧ f.cause.isLoadError := by
  apply exists_congr
  intro f
  cases hf : f.cause <;> simp [InvokerError.isLoadError]

/-- What comes of the search where it ends with an answer about a library. -/
def Inquiry.ofAnswer (library : Library) : Attempt InvokerError Invoker → Inquiry
  | .ok invoker => .found library invoker
  | .error f => .refused f

section

variable {build : InvokerBuilder} {request : Library → InvokerRequest}

theorem inquire_cons {l : Library} {f : Failure InvokerError} (rest : List Library)
    (hl : build (request l) = .error f) (hf : f.cause.isLoadError) :
    inquire build request (l :: rest) =
      (match (inquire build request rest).1 with
        | .missing _ => .missing (some f)
        | found => found, request l :: (inquire build request rest).2) := by
  rw [inquire, hl]
  simp only [hf, if_true]
  split <;> simp_all

theorem inquire_of_answer {skipped : List Library} {l : Library} (rest : List Library)
    (hskipped : ∀ k ∈ skipped, build.Lacks (request k)) (hl : ¬ build.Lacks (request l)) :
    inquire build request (skipped ++ l :: rest) =
      (.ofAnswer l (build (request l)), (skipped ++ [l]).map request) := by
  induction skipped with
  | nil =>
      rw [List.nil_append, inquire]
      cases h : build (request l) with
      | ok i => rfl
      | error f =>
          have hf : f.cause.isLoadError = false :=
            Bool.eq_false_iff.2 fun hload => hl (InvokerBuilder.lacks_iff.2 ⟨f, h, hload⟩)
          simp [hf, Inquiry.ofAnswer]
  | cons k skipped ih =>
      obtain ⟨hlacks, hskipped⟩ := List.forall_mem_cons.1 hskipped
      obtain ⟨f, hk, hf⟩ := InvokerBuilder.lacks_iff.1 hlacks
      rw [List.cons_append, inquire_cons _ hk hf, ih hskipped]
      cases build (request l) <;> rfl

private theorem inquire_of_lacks {l : Library} {rest : List Library} {f : Failure InvokerError}
    (hlacks : ∀ k ∈ l :: rest, build.Lacks (request k)) (hl : build (request l) = .error f) :
    inquire build request (l :: rest) = (.missing (some f), (l :: rest).map request) := by
  induction rest generalizing l f with
  | nil =>
      obtain ⟨g, hg, hload⟩ := InvokerBuilder.lacks_iff.1 (hlacks l List.mem_cons_self)
      obtain rfl : f = g := Except.error.inj (hl.symm.trans hg)
      rw [inquire_cons _ hl hload]
      rfl
  | cons k rest ih =>
      obtain ⟨hfirst, hrest⟩ := List.forall_mem_cons.1 hlacks
      obtain ⟨g, hg, hload⟩ := InvokerBuilder.lacks_iff.1 hfirst
      obtain rfl : f = g := Except.error.inj (hl.symm.trans hg)
      obtain ⟨g, -, -, hk, -⟩ := hrest k List.mem_cons_self
      rw [inquire_cons _ hl hload, ih hrest hk]
      rfl

private theorem inquire_ne_missing_none {ls : List Library} (h : ls ≠ []) :
    (inquire build request ls).1 ≠ .missing none := by
  cases ls with
  | nil => exact absurd rfl h
  | cons l rest =>
      cases hl : build (request l) with
      | ok i => simp [inquire, hl]
      | error f =>
          cases hf : f.cause.isLoadError with
          | true =>
              rw [inquire_cons rest hl hf]
              split <;> simp_all
          | false => simp [inquire, hl, hf]

end

private theorem FunctionDecl.bind_cause (d : FunctionDecl) {sig : Signature}
    {libraries : LibrarySet} {inquiry : Inquiry} {f : Failure AttachError}
    (h : d.bind sig libraries inquiry = .error f) (hfirst : inquiry ≠ .missing none) :
    f.cause = .ofFunction d.name := by
  cases inquiry with
  | found l i => cases h
  | refused g =>
      cases h
      rfl
  | missing first =>
      cases first with
      | none => exact absurd rfl hfirst
      | some g =>
          cases h
          rfl

namespace Scope

variable {s : Scope} {d : FunctionDecl}

/-- Something is missing without which no library is asked about. -/
def Unready (s : Scope) (d : FunctionDecl) : Prop :=
  s.frame.libraries = none ∨ s.host.invokers = none ∨
    ∃ t ∈ d.ret :: d.params, ∃ f, s.findType t = .error f

/-- What a builder is asked about a library. -/
def request (s : Scope) (d : FunctionDecl) (sig : Signature) (library : Library) :
    InvokerRequest :=
  ⟨library, d.symbol, sig, s.enumValues⟩

/-- The failure of an attachment that a library's failure leads to. -/
def refusal (s : Scope) (d : FunctionDecl) (f : Failure InvokerError) : Failure AttachError :=
  (f.under (AttachError.ofFunction d.name)).note s!"In scope `{s.name}`"

theorem exists_of_not_unready (h : ¬ s.Unready d) :
    ∃ libraries build sig, s.frame.libraries = some libraries ∧ s.host.invokers = some build ∧
      s.Signs d.params d.ret sig := by
  simp only [Unready, not_or] at h
  obtain ⟨hlibraries, hinvokers, htypes⟩ := h
  obtain ⟨libraries, hlibraries⟩ := Option.ne_none_iff_exists'.1 hlibraries
  obtain ⟨build, hbuild⟩ := Option.ne_none_iff_exists'.1 hinvokers
  have hresolved : ∀ t ∈ d.ret :: d.params, ∃ x, s.findType t = .ok x := by
    intro t ht
    cases hx : s.findType t with
    | ok x => exact ⟨x, rfl⟩
    | error f => exact absurd ⟨t, ht, f, hx⟩ htypes
  obtain ⟨sig, hsig⟩ := exists_signs_iff.2 hresolved
  exact ⟨libraries, build, sig, hlibraries, hbuild, hsig⟩

theorem attachFunction_of_unready (h : s.Unready d) :
    ∃ f, s.attachFunction d = (.error f, []) ∧
      ∀ symbol names, f.cause ≠ .notFound symbol names := by
  unfold attachFunction
  cases hlibraries : s.frame.libraries with
  | none =>
      have hclosed : s.libraries = .fail .notDeclared := by rw [Scope.libraries, hlibraries]
      simp [hclosed, Attempt.fail, Failure.under]
  | some libraries =>
      have hopened : s.libraries = .ok libraries := by rw [Scope.libraries, hlibraries]
      rw [hopened]
      cases hbuild : s.host.invokers with
      | none => simp [Attempt.fail]
      | some build =>
          obtain ⟨t, ht, f, hf⟩ : ∃ t ∈ d.ret :: d.params, ∃ f, s.findType t = .error f := by
            simpa [Unready, hlibraries, hbuild] using h
          cases hsig : s.resolver.signature d.params d.ret s.frame.convention with
          | error g =>
              simp [ForeignBinding.attachFunction, hsig, Except.map, Failure.under, Failure.note]
          | ok sig =>
              obtain ⟨x, hx⟩ := exists_signs_iff.1 ⟨sig, signature_eq_ok_iff.1 hsig⟩ t ht
              rw [hf] at hx
              cases hx

section

variable {libraries : LibrarySet} {build : InvokerBuilder} {sig : Signature}

theorem attachFunction_eq (hlibraries : s.frame.libraries = some libraries)
    (hbuild : s.host.invokers = some build) (hsig : s.Signs d.params d.ret sig) :
    s.attachFunction d =
      (((d.bind sig libraries (inquire build (s.request d sig) libraries.libraries).1).noting
          s!"In scope `{s.name}`").map fun b => (b, s.bind d.name (.ofFunction b)),
        (inquire build (s.request d sig) libraries.libraries).2) := by
  have hopened : s.libraries = .ok libraries := by rw [Scope.libraries, hlibraries]
  rw [attachFunction, hopened, hbuild]
  simp only [under_ok, ForeignBinding.attachFunction, signature_eq_ok_iff.2 hsig]
  rfl

/-- The search ends at the first library that is not said to lack the function. -/
theorem attachFunction_of_answer (hlibraries : s.frame.libraries = some libraries)
    (hbuild : s.host.invokers = some build) (hsig : s.Signs d.params d.ret sig)
    {skipped : List Library} {l : Library} {rest : List Library}
    (heq : libraries.libraries = skipped ++ l :: rest)
    (hskipped : ∀ k ∈ skipped, build.Lacks (s.request d sig k))
    (hl : ¬ build.Lacks (s.request d sig l)) :
    (s.attachFunction d).2 = (skipped ++ [l]).map (s.request d sig) ∧
      (∀ i, build (s.request d sig l) = .ok i →
        (s.attachFunction d).1 = .ok (⟨d.name, d.symbol, sig, l, i⟩,
          s.bind d.name (.ofFunction ⟨d.name, d.symbol, sig, l, i⟩))) ∧
      ∀ f, build (s.request d sig l) = .error f →
        (s.attachFunction d).1 = .error (s.refusal d f) := by
  rw [attachFunction_eq hlibraries hbuild hsig, heq, inquire_of_answer rest hskipped hl]
  refine ⟨rfl, ?_, ?_⟩
  · intro i hi
    rw [hi]
    rfl
  · intro f hf
    rw [hf]
    rfl

/-- Where all libraries are said to lack the function, the failure is that of the first. -/
theorem attachFunction_of_lacks (hlibraries : s.frame.libraries = some libraries)
    (hbuild : s.host.invokers = some build) (hsig : s.Signs d.params d.ret sig)
    (hne : libraries.libraries ≠ [])
    (hlacks : ∀ l ∈ libraries.libraries, build.Lacks (s.request d sig l)) :
    (s.attachFunction d).2 = libraries.libraries.map (s.request d sig) ∧
      ∃ first rest f, libraries.libraries = first :: rest ∧
        build (s.request d sig first) = .error f ∧
        (s.attachFunction d).1 = .error (s.refusal d f) := by
  obtain ⟨first, rest, heq⟩ := List.exists_cons_of_ne_nil hne
  rw [heq] at hlacks
  obtain ⟨f, -, -, hf, -⟩ := hlacks first List.mem_cons_self
  rw [attachFunction_eq hlibraries hbuild hsig, heq, inquire_of_lacks hlacks hf]
  exact ⟨rfl, first, rest, f, rfl, hf, rfl⟩

end

private theorem attachFunction_ne_notFound (hs : s.Stocked) {f : Failure AttachError}
    (h : (s.attachFunction d).1 = .error f) (symbol : String) (names : List String) :
    f.cause ≠ .notFound symbol names := by
  by_cases hready : s.Unready d
  · obtain ⟨g, hg, hcause⟩ := attachFunction_of_unready hready
    rw [hg] at h
    cases h
    exact hcause symbol names
  · obtain ⟨libraries, build, sig, hlibraries, hbuild, hsig⟩ := exists_of_not_unready hready
    have hfirst : (inquire build (s.request d sig) libraries.libraries).1 ≠ .missing none :=
      inquire_ne_missing_none (hs libraries hlibraries)
    rw [attachFunction_eq hlibraries hbuild hsig] at h
    cases hbind : d.bind sig libraries (inquire build (s.request d sig) libraries.libraries).1 with
    | ok b =>
        rw [hbind] at h
        cases h
    | error g =>
        rw [hbind] at h
        cases h
        have hcause : g.cause = .ofFunction d.name := d.bind_cause hbind hfirst
        simp [Failure.note, hcause]

end Scope

/-- Whatever builder a scope is given, an attachment without libraries, a builder or the meaning of
a type asks about no library. Otherwise the libraries are asked about in order, up to the first that
is not said to lack the function, and the outcome is the answer there; where all lack it, it is the
failure of the first. The cause is never `AttachError.notFound`. Bindings change only by a success,
and only under the function's name. -/
theorem Workspace.attachFunction_inOrder {w : Workspace} (hw : w.Reachable)
    (invokers : Option InvokerBuilder) (d : FunctionDecl) :
    let s := { w.scope with host.invokers := invokers }
    let w' := { w with scope := s }.act (.function d)
    (s.Unready d → ∃ f, s.attachFunction d = (.error f, [])) ∧
      (¬ s.Unready d → ∃ libraries build sig,
        s.frame.libraries = some libraries ∧ invokers = some build ∧
        s.Signs d.params d.ret sig ∧
        (∀ skipped l rest, libraries.libraries = skipped ++ l :: rest →
          (∀ k ∈ skipped, build.Lacks (s.request d sig k)) →
          ¬ build.Lacks (s.request d sig l) →
            (s.attachFunction d).2 = (skipped ++ [l]).map (s.request d sig) ∧
            (∀ i, build (s.request d sig l) = .ok i →
              (s.attachFunction d).1 = .ok (⟨d.name, d.symbol, sig, l, i⟩,
                s.bind d.name (.ofFunction ⟨d.name, d.symbol, sig, l, i⟩))) ∧
            ∀ f, build (s.request d sig l) = .error f →
              (s.attachFunction d).1 = .error (s.refusal d f)) ∧
        ((∀ l ∈ libraries.libraries, build.Lacks (s.request d sig l)) →
          (s.attachFunction d).2 = libraries.libraries.map (s.request d sig) ∧
            ∃ first rest f, libraries.libraries = first :: rest ∧
              build (s.request d sig first) = .error f ∧
              (s.attachFunction d).1 = .error (s.refusal d f))) ∧
      (∀ f, (s.attachFunction d).1 = .error f → ∀ symbol names,
        f.cause ≠ .notFound symbol names) ∧
      w'.consulted = w.consulted ++ (s.attachFunction d).2 ∧
      (∀ f, (s.attachFunction d).1 = .error f → w'.scope = s) ∧
      ∀ b s', (s.attachFunction d).1 = .ok (b, s') →
        w'.scope = s' ∧ s' = s.bind d.name (.ofFunction b) ∧
          ∀ name, s'.binding? name =
            if name = d.name then some (.ofFunction b) else s.binding? name := by
  intro s w'
  have hstocked : s.Stocked := hw.holds (P := fun s _ => s.Stocked) fun _ ht => ht.stocked
  refine ⟨?_, ?_, ?_, ?_, ?_, ?_⟩
  · intro hunready
    obtain ⟨f, hf, -⟩ := Scope.attachFunction_of_unready hunready
    exact ⟨f, hf⟩
  · intro hready
    obtain ⟨libraries, build, sig, hlibraries, hbuild, hsig⟩ :=
      Scope.exists_of_not_unready hready
    refine ⟨libraries, build, sig, hlibraries, hbuild, hsig, ?_, ?_⟩
    · intro skipped l rest heq hskipped hl
      exact Scope.attachFunction_of_answer hlibraries hbuild hsig heq hskipped hl
    · intro hlacks
      have hne : libraries.libraries ≠ [] := hstocked libraries hlibraries
      exact Scope.attachFunction_of_lacks hlibraries hbuild hsig hne hlacks
  · intro f hf
    exact Scope.attachFunction_ne_notFound hstocked hf
  · cases h : (s.attachFunction d).1 <;> simp [w', act, step, h]
  · intro f hf
    simp [w', act, step, hf]
  · intro b s' hb
    obtain ⟨-, -, -, -, -, hs'⟩ := Scope.attachFunction_eq_ok hb
    refine ⟨by simp [w', act, step, hb], hs', ?_⟩
    intro name
    rw [hs']
    exact NameMap.get?_insert _ _ _ _

-- Every library opens, and the second of three has the function.
namespace Sample

def opener : Host := { host with load := fun name => .ok ⟨name, fun _ => none⟩ }

def stocked : Workspace :=
  ((Workspace.new (.new "main" opener)).declare
    (.libraries [.named "m", .named "z", .named "rt"])).2

private theorem stocked_reachable : stocked.Reachable :=
  .declare ⟨_, .single (.new "main" opener), List.mem_cons_self, rfl⟩ _

def library (name : String) : Library := ⟨some name, fun _ => none⟩

private theorem libraries_stocked :
    stocked.scope.frame.libraries = some ⟨[library "m", library "z", library "rt"], []⟩ := rfl

def invoker : Invoker := ⟨⟨4096⟩, fun _ => .fail (.native "not called")⟩

def onlyInZ : InvokerBuilder := fun q =>
  if q.library.name = some "z" then .ok invoker
  else .fail (.notFound q.symbol q.library.display)

def builderScope : Scope := { stocked.scope with host.invokers := some onlyInZ }

def deflate : FunctionDecl :=
  ⟨"deflate", none, [.resolved (.prim .int32)], .resolved (.prim .int32)⟩

def deflateSignature : Signature := ⟨[.prim .int32], .prim .int32, .standard⟩

def asking : Library → InvokerRequest := builderScope.request deflate deflateSignature

def deflateBinding : FunctionBinding :=
  ⟨"deflate", "deflate", deflateSignature, library "z", invoker⟩

private theorem signs_deflate : builderScope.Signs deflate.params deflate.ret deflateSignature :=
  ⟨rfl, rfl, rfl⟩

private theorem not_unready_deflate : ¬ builderScope.Unready deflate := by
  rintro (h | h | ⟨t, ht, f, hf⟩)
  · cases h
  · cases h
  · obtain ⟨d, hd⟩ := Scope.exists_signs_iff.1 ⟨_, signs_deflate⟩ t ht
    rw [hf] at hd
    cases hd

end Sample

theorem Workspace.attachFunction_inOrder_onlyInZ :
    Sample.stocked.Reachable ∧
      (Sample.builderScope.attachFunction Sample.deflate).2 =
        [Sample.library "m", Sample.library "z"].map Sample.asking ∧
      (Sample.builderScope.attachFunction Sample.deflate).1 =
        .ok (Sample.deflateBinding,
          Sample.builderScope.bind "deflate" (.ofFunction Sample.deflateBinding)) := by
  obtain ⟨-, hready, -⟩ :=
    attachFunction_inOrder Sample.stocked_reachable (some Sample.onlyInZ) Sample.deflate
  obtain ⟨libraries, build, sig, hlibraries, hbuild, hsig, hanswer, -⟩ :=
    hready Sample.not_unready_deflate
  obtain rfl : libraries = _ := Option.some.inj (hlibraries.symm.trans Sample.libraries_stocked)
  obtain rfl : build = Sample.onlyInZ := (Option.some.inj hbuild).symm
  obtain rfl : sig = Sample.deflateSignature :=
    Except.ok.inj ((Scope.signature_eq_ok_iff.2 hsig).symm.trans
      (Scope.signature_eq_ok_iff.2 Sample.signs_deflate))
  have hm : ∀ k ∈ [Sample.library "m"], Sample.onlyInZ.Lacks (Sample.asking k) := by
    intro k hk
    obtain rfl := List.mem_singleton.1 hk
    exact ⟨_, "deflate", "m", rfl, rfl⟩
  have hz : Sample.onlyInZ (Sample.asking (Sample.library "z")) = .ok Sample.invoker := rfl
  have hfound : ¬ Sample.onlyInZ.Lacks (Sample.asking (Sample.library "z")) := by
    rintro ⟨f, -, -, hf, -⟩
    cases hz.symm.trans hf
  obtain ⟨hmade, hok, -⟩ :=
    hanswer [Sample.library "m"] (Sample.library "z") [Sample.library "rt"] rfl hm hfound
  exact ⟨Sample.stocked_reachable, hmade, hok Sample.invoker hz⟩

end ForeignBinding
