import ForeignBinding.Proofs.Scope.Actions

/-!
# Types are as they were when they were declared

What a name means depends on nothing that is declared under other names: references are resolved
when an alias, a callback or a function is declared, and a descriptor holds no names. So a name
keeps its meaning through all operations that do not declare it.
-/

namespace ForeignBinding

open Attempt

private theorem Registry.SameAt.resolve?_eq {r r' : Registry} {name : String}
    (h : r.SameAt r' name) : r.resolve? name = r'.resolve? name := by
  rw [Registry.resolve?, Registry.resolve?, h.composites, h.aliases, h.callbacks]

namespace Workspace

variable {w w' : Workspace} {types bound : String → Prop} {name : String}

theorem ChangesOnly.findType_eq (h : ChangesOnly types bound w w') (hname : ¬ types name) :
    w'.scope.findType (.named name) = w.scope.findType (.named name) := by
  have hsame : w'.scope.registry.resolve? name = w.scope.registry.resolve? name :=
    (h.registry name hname).resolve?_eq
  simp only [Scope.findType, Resolver.resolve, Resolver.resolveName, Scope.resolver,
    Scope.registries, List.findSome?_cons, hsame, h.ancestors, h.host]

theorem actAll_changesOthers (w : Workspace) {as : List Action}
    (h : ∀ a ∈ as, a.type? ≠ some name) :
    ChangesOnly (· ≠ name) (fun _ => True) w (w.actAll as) := by
  apply w.actAll_changesOnly as
  · intro a ha other hother heq
    exact h a ha (heq ▸ hother)
  · intro _ _ _ _
    trivial

private theorem actAll_findType (w : Workspace) {as : List Action}
    (h : ∀ a ∈ as, a.type? ≠ some name) :
    (w.actAll as).scope.findType (.named name) = w.scope.findType (.named name) :=
  (w.actAll_changesOthers h).findType_eq fun hne => hne rfl

private theorem actAll_findFunction? (w : Workspace) {as : List Action}
    (h : ∀ a ∈ as, a.bound? ≠ some name) :
    (w.actAll as).scope.findFunction? name = w.scope.findFunction? name := by
  have hchanges : ChangesOnly (fun _ => True) (· ≠ name) w (w.actAll as) := by
    apply w.actAll_changesOnly as
    · intro _ _ _ _
      trivial
    · intro a ha other hother heq
      exact h a ha (heq ▸ hother)
  rw [Scope.findFunction?, Scope.findFunction?, hchanges.bindings name fun hne => hne rfl]

end Workspace

namespace Scope

variable {s s' : Scope} {name : String}

theorem findType_of_alias {d : Descriptor}
    (hcomposite : s.registry.composites.get? name = none)
    (halias : s.registry.aliases.get? name = some d) : s.findType (.named name) = .ok d := by
  have hown : s.registry.resolve? name = some d := by simp [Registry.resolve?, hcomposite, halias]
  simp only [findType, Resolver.resolve, Resolver.resolveName, resolver, registries,
    List.findSome?_cons, hown]

/-- The name means this, and goes on to do so as long as it is not declared. -/
def Settles (s : Scope) (name : String) (d : Descriptor) : Prop :=
  ∀ (w : Workspace) (as : List Action), w.scope = s → (∀ a ∈ as, a.type? ≠ some name) →
    (w.actAll as).scope.findType (.named name) = .ok d

/-- The function is attached, and stays so as long as nothing else is attached in its place. -/
def Attaches (s : Scope) (b : FunctionBinding) : Prop :=
  ∀ (w : Workspace) (as : List Action), w.scope = s → (∀ a ∈ as, a.bound? ≠ some b.name) →
    (w.actAll as).scope.findFunction? b.name = some b

private theorem settles_of_findType {d : Descriptor} (h : s.findType (.named name) = .ok d) :
    s.Settles name d := by
  intro w as hw has
  rw [w.actAll_findType has, hw, h]

private theorem settles_of_alias {d : Descriptor}
    (hcomposite : s.registry.composites.get? name = none)
    (halias : s.registry.aliases.get? name = some d) : s.Settles name d :=
  settles_of_findType (findType_of_alias hcomposite halias)

private theorem typedef_settles {t : TypeRef} {d : Descriptor}
    (hnone : s.registry.composites.get? name = none) (h : s.typedef t name = .ok (d, s')) :
    s.findType t = .ok d ∧ s'.Settles name d := by
  obtain ⟨hd, rfl⟩ := typedef_eq_ok h
  refine ⟨hd, ?_⟩
  apply settles_of_alias
  · exact hnone
  · simp [withRegistry, registry, Registry.insertAlias]

private theorem callback_settles {params : List TypeRef} {ret : TypeRef} {d : Descriptor}
    (hnone : s.registry.composites.get? name = none)
    (h : s.callback (some name) params ret = .ok (d, s')) : s'.Settles name d := by
  obtain ⟨sig, -, rfl, rfl⟩ := callback_eq_ok h
  apply settles_of_alias
  · exact hnone
  · simp [withCallback, withRegistry, registry, Registry.insertCallback, Registry.insertAlias]

private theorem enumeration_settles (hnone : s.registry.composites.get? name = none)
    (items : List EnumItem) :
    (s.enumeration (some name) items).2.Settles name Enumeration.descriptor := by
  apply settles_of_alias
  · exact hnone
  · simp [enumeration, Enumeration.ofItems, withRegistry, registry, Registry.insertEnum,
      Registry.insertEnumAlias, Registry.insertAlias]

private theorem attachFunction_attaches {d : FunctionDecl} {b : FunctionBinding}
    (h : (s.attachFunction d).1 = .ok (b, s')) :
    s.Signs d.params d.ret b.signature ∧ b.name = d.name ∧ s'.Attaches b := by
  obtain ⟨libraries, build, -, -, hb, rfl⟩ := attachFunction_eq_ok h
  obtain ⟨hsigns, hname⟩ := signs_of_attachFunction hb
  refine ⟨hsigns, hname, ?_⟩
  intro w as hw has
  rw [w.actAll_findFunction? has, hw, hname]
  simp [findFunction?, binding?, bind]

end Scope

/-- An operation changes the meaning of no name but the one that it declares. What a successful
typedef, callback or enumeration gives under a name that is no composite of the scope is what the
name means from then on, until it is declared again; a callback or function keeps the parameters,
the result and the convention that were in force at its declaration. -/
theorem Workspace.types_asDeclared (w : Workspace) :
    (∀ (a : Action) name, a.type? ≠ some name →
      (w.act a).scope.findType (.named name) = w.scope.findType (.named name)) ∧
    (∀ name, w.scope.registry.composites.get? name = none →
      (∀ t d s, w.scope.typedef t name = .ok (d, s) →
        w.scope.findType t = .ok d ∧ s.Settles name d) ∧
      (∀ params ret d s, w.scope.callback (some name) params ret = .ok (d, s) →
        s.Settles name d) ∧
      ∀ items, (w.scope.enumeration (some name) items).2.Settles name (.prim .int32)) ∧
    (∀ name? params ret d s, w.scope.callback name? params ret = .ok (d, s) →
      ∃ sig, w.scope.Signs params ret sig ∧
        d = .callback sig.params sig.ret sig.convention) ∧
    ∀ f b s, (w.scope.attachFunction f).1 = .ok (b, s) →
      w.scope.Signs f.params f.ret b.signature ∧ b.name = f.name ∧ s.Attaches b := by
  refine ⟨?_, ?_, ?_, ?_⟩
  · intro a name ha
    exact w.actAll_findType (List.forall_mem_singleton.2 ha)
  · intro name hnone
    exact ⟨fun t d s h => Scope.typedef_settles hnone h,
      fun params ret d s h => Scope.callback_settles hnone h,
      Scope.enumeration_settles hnone⟩
  · intro name? params ret d s h
    obtain ⟨sig, hsig, hd, -⟩ := Scope.callback_eq_ok h
    exact ⟨sig, Scope.signature_eq_ok_iff.1 hsig, hd⟩
  · intro f b s h
    exact Scope.attachFunction_attaches h

-- After the callback is declared, the name and the convention that it was declared under are
-- others.
namespace Sample

def counted : Workspace :=
  workspace.actAll [.convention .stdcall, .typedef (.resolved (.prim .uint32)) "count"]

def notify : Descriptor := .callback [.prim .uint32] (.prim .void) .stdcall

def notified : Workspace :=
  counted.act (.callback (some "notify") [.named "count"] (.resolved (.prim .void)))

private theorem callback_counted :
    counted.scope.callback (some "notify") [.named "count"] (.resolved (.prim .void)) =
      .ok (notify, notified.scope) := rfl

def recount : List Action :=
  [.typedef (.resolved (.prim .uint64)) "count", .convention .standard,
    .composite .struct "count", .setSize "notify" 8]

private theorem findType_count :
    (notified.actAll recount).scope.findType (.named "count") = .ok .pointer := rfl

end Sample

theorem Workspace.types_asDeclared_notify :
    Sample.counted.scope.callback (some "notify") [.named "count"] (.resolved (.prim .void)) =
        .ok (Sample.notify, Sample.notified.scope) ∧
      (Sample.notified.actAll Sample.recount).scope.findType (.named "notify") =
        .ok Sample.notify ∧
      (Sample.notified.actAll Sample.recount).scope.findType (.named "count") = .ok .pointer := by
  have hnone : Sample.counted.scope.registry.composites.get? "notify" = none := rfl
  have hundeclared : ∀ a ∈ Sample.recount, a.type? ≠ some "notify" := by
    simp [Sample.recount, Action.type?]
  obtain ⟨-, hnames, -⟩ := types_asDeclared Sample.counted
  obtain ⟨-, hcallback, -⟩ := hnames "notify" hnone
  have hsettles := hcallback _ _ _ _ Sample.callback_counted
  exact ⟨Sample.callback_counted, hsettles Sample.notified Sample.recount rfl hundeclared,
    Sample.findType_count⟩

end ForeignBinding
