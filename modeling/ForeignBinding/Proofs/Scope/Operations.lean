import ForeignBinding.Proofs.Attempt
import ForeignBinding.Scope
import Mathlib.Data.Set.List

/-!
# What operations on a scope do

For every operation, all that it has done where it succeeds.
-/

namespace ForeignBinding.Scope

open Attempt

variable {s s' : Scope} {defs defs' : Definitions}

theorem declareLibraries_eq_ok {names : List LibraryName} {set : LibrarySet}
    (h : (s.declareLibraries names).1 = .ok (set, s')) :
    (resolveLibraries s.host.load s.host.platform names).1 = .ok set ∧
      s' = { s with frame.libraries := some set } := by
  obtain ⟨set', hset, heq⟩ := map_eq_ok.1 h
  cases heq
  exact ⟨noting_eq_ok.1 hset, rfl⟩

theorem typedef_eq_ok {existing : TypeRef} {name : String} {d : Descriptor}
    (h : s.typedef existing name = .ok (d, s')) :
    s.findType existing = .ok d ∧ s' = s.withRegistry (s.registry.insertAlias name d) := by
  obtain ⟨d', hd, heq⟩ := bind_eq_ok.1 h
  cases heq
  exact ⟨noting_eq_ok.1 hd, rfl⟩

/-- The signature that a function or callback declared in the scope now has. -/
structure Signs (s : Scope) (params : List TypeRef) (ret : TypeRef) (sig : Signature) : Prop where
  params : params.map s.findType = sig.params.map .ok
  ret : s.findType ret = .ok sig.ret
  convention : sig.convention = s.frame.convention

theorem signature_eq_ok_iff {params : List TypeRef} {ret : TypeRef} {sig : Signature} :
    s.resolver.signature params ret s.frame.convention = .ok sig ↔ s.Signs params ret sig := by
  rw [Resolver.signature, bind_eq_ok]
  constructor
  · rintro ⟨ds, hparams, hrest⟩
    obtain ⟨d, hret, heq⟩ := bind_eq_ok.1 hrest
    cases heq
    exact ⟨mapM_eq_ok.1 hparams, hret, rfl⟩
  · rintro ⟨hparams, hret, hconvention⟩
    refine ⟨sig.params, mapM_eq_ok.2 hparams, bind_eq_ok.2 ⟨sig.ret, hret, ?_⟩⟩
    rw [← hconvention]
    rfl

theorem exists_signs_iff {params : List TypeRef} {ret : TypeRef} :
    (∃ sig, s.Signs params ret sig) ↔ ∀ t ∈ ret :: params, ∃ d, s.findType t = .ok d := by
  have hparams : (∃ ds : List Descriptor, ds.map .ok = params.map s.findType) ↔
      ∀ t ∈ params, ∃ d, s.findType t = .ok d := by
    rw [← Set.mem_range, Set.range_list_map]
    exact List.forall_mem_map.trans (forall₂_congr fun t _ => exists_congr fun d => eq_comm)
  rw [List.forall_mem_cons, ← hparams]
  constructor
  · rintro ⟨sig, hsig⟩
    exact ⟨⟨sig.ret, hsig.ret⟩, sig.params, hsig.params.symm⟩
  · rintro ⟨⟨d, hret⟩, ds, hds⟩
    exact ⟨⟨ds, d, s.frame.convention⟩, hds.symm, hret, rfl⟩

theorem callback_eq_ok {name : Option String} {params : List TypeRef} {ret : TypeRef}
    {d : Descriptor} (h : s.callback name params ret = .ok (d, s')) :
    ∃ sig, s.resolver.signature params ret s.frame.convention = .ok sig ∧
      d = sig.toDescriptor ∧ s' = s.withCallback name sig := by
  obtain ⟨sig, hsig, heq⟩ := bind_eq_ok.1 h
  cases heq
  exact ⟨sig, hsig, rfl, rfl⟩

theorem declareComposite_eq_ok {kind : CompositeKind} {name : String} {c : Composite}
    (h : s.declareComposite defs kind name = .ok (c, s', defs')) :
    (s.registry.composites.get? name = some c ∧ c.kind = kind ∧ s' = s ∧ defs' = defs) ∨
      (s.registry.composites.get? name = none ∧ c = (defs.declare kind name).1 ∧
        s' = s.withRegistry (s.registry.insertComposite c) ∧
        defs' = (defs.declare kind name).2) := by
  unfold declareComposite at h
  cases hname : s.registry.composites.get? name with
  | none =>
      rw [hname] at h
      cases h
      exact .inr ⟨rfl, rfl, rfl, rfl⟩
  | some c' =>
      simp only [hname] at h
      split at h
      · rename_i hkind
        cases h
        exact .inl ⟨rfl, hkind, rfl, rfl⟩
      · cases h

theorem declareComposite_of_none (kind : CompositeKind) {name : String}
    (h : s.registry.composites.get? name = none) :
    s.declareComposite defs kind name =
      .ok ((defs.declare kind name).1,
        s.withRegistry (s.registry.insertComposite (defs.declare kind name).1),
        (defs.declare kind name).2) := by
  simp only [declareComposite, h]

theorem ownComposite_eq_ok {name : String} {c : Composite} (h : s.ownComposite name = .ok c) :
    s.registry.composites.get? name = some c := by
  unfold ownComposite at h
  cases hname : s.registry.composites.get? name with
  | none =>
      simp only [hname] at h
      split at h <;> cases h
  | some c' =>
      rw [hname] at h
      cases h
      rfl

theorem ownComposite_of_none {name : String} (h : s.registry.composites.get? name = none) :
    (s.ownComposite name).FailsWith (.notDeclaredHere name s.name) := by
  have hmissing : (fail (.notDeclaredHere name s.name) : Attempt LayoutError Composite).FailsWith
      (.notDeclaredHere name s.name) := failsWith_fail _
  simp only [ownComposite, h]
  split
  · exact hmissing.noting _
  · exact hmissing

theorem attachFunction_eq_ok {d : FunctionDecl} {b : FunctionBinding}
    (h : (s.attachFunction d).1 = .ok (b, s')) :
    ∃ libraries build, s.libraries = .ok libraries ∧ s.host.invokers = some build ∧
      (ForeignBinding.attachFunction d s.resolver s.frame.convention libraries build
        s.enumValues).1 = .ok b ∧ s' = s.bind d.name (.ofFunction b) := by
  unfold attachFunction at h
  split at h
  · cases h
  · rename_i libraries hlibraries
    split at h
    · cases h
    · rename_i build hbuild
      obtain ⟨b', hb, heq⟩ := map_eq_ok.1 h
      cases heq
      exact ⟨libraries, build, under_eq_ok.1 hlibraries, hbuild, noting_eq_ok.1 hb, rfl⟩

theorem signs_of_attachFunction {d : FunctionDecl} {libraries : LibrarySet}
    {build : InvokerBuilder} {enums : NameMap Int64} {b : FunctionBinding}
    (h : (ForeignBinding.attachFunction d s.resolver s.frame.convention libraries build enums).1 =
      .ok b) :
    s.Signs d.params d.ret b.signature ∧ b.name = d.name := by
  unfold ForeignBinding.attachFunction at h
  cases hsig : s.resolver.signature d.params d.ret s.frame.convention with
  | error f => simp [hsig] at h
  | ok sig =>
      simp only [hsig, under_ok] at h
      have hsigns : s.Signs d.params d.ret sig := signature_eq_ok_iff.1 hsig
      unfold FunctionDecl.bind at h
      split at h <;> cases h
      exact ⟨hsigns, rfl⟩

theorem attachVariable_eq_ok {d : VariableDecl} {b : VariableBinding}
    (h : s.attachVariable defs d = .ok (b, s')) :
    ∃ libraries, s.libraries = .ok libraries ∧
      ForeignBinding.attachVariable d defs s.resolver libraries = .ok b ∧
      s' = s.bind d.name (.ofVariable b) := by
  obtain ⟨libraries, hlibraries, h⟩ := bind_eq_ok.1 h
  obtain ⟨b', hb, heq⟩ := bind_eq_ok.1 h
  cases heq
  exact ⟨libraries, under_eq_ok.1 hlibraries, noting_eq_ok.1 hb, rfl⟩

end ForeignBinding.Scope
