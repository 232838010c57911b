import ForeignBinding.Proofs.Definitions

/-!
# Definitions are exact

A composite without a layout gets exactly the placement over unbounded numbers of its declared
fields, above the least size that it was given, or the definition fails with an overflow.
-/

namespace ForeignBinding

open Attempt

namespace Definitions

private theorem define_of_fits {defs : Definitions} (hdefs : defs.Sound) {r : Resolver}
    {c : Composite} {spec : LayoutSpec} {qs : List Request} (hnone : defs.layout? c = none)
    (hnd : (spec.fields.map (·.name)).Nodup)
    (hq : List.Forall₂ (·.Denotes defs r ·) spec.fields qs)
    (hfit : (Unbounded.layout c.kind (defs.progress c).floor qs).Fits) :
    defs.define r c spec =
      .ok (Unbounded.layout c.kind (defs.progress c).floor qs,
        defs.set c (.computed (Unbounded.layout c.kind (defs.progress c).floor qs))) :=
  define_of_compute hnone (Layout.compute_of_fits hdefs.alignmentOf_pos hnd hq hfit)

private theorem define_of_not_fits {defs : Definitions} (hdefs : defs.Sound) {r : Resolver}
    {c : Composite} {spec : LayoutSpec} {qs : List Request} (hnone : defs.layout? c = none)
    (hnd : (spec.fields.map (·.name)).Nodup)
    (hq : List.Forall₂ (·.Denotes defs r ·) spec.fields qs)
    (hfit : ¬ (Unbounded.layout c.kind (defs.progress c).floor qs).Fits) :
    (defs.define r c spec).FailsWith
      (.overflow (Unbounded.culprit (Unbounded.layout c.kind (defs.progress c).floor qs))) :=
  define_failsWith hnone (Layout.compute_of_not_fits hdefs.alignmentOf_pos hnd hq hfit)

/-- A composite without a layout, declared with distinct field names whose types are known, gets
the placement over unbounded numbers if all of its numbers fit. Otherwise the overflow names the
first field that does not fit, or the last field where only the whole does not. -/
theorem define_exact {defs : Definitions} (hdefs : defs.Reachable) {r : Resolver} {c : Composite}
    {spec : LayoutSpec} {qs : List Request} (hnone : defs.layout? c = none)
    (hnd : (spec.fields.map (·.name)).Nodup)
    (hq : List.Forall₂ (·.Denotes defs r ·) spec.fields qs) :
    let l := Unbounded.layout c.kind (defs.progress c).floor qs
    l.members = spec.fields.map (·.name) ∧
      ((∃ x, defs.define r c spec = .ok x) ↔ l.Fits) ∧
      (l.Fits → defs.define r c spec = .ok (l, defs.set c (.computed l))) ∧
      (¬ l.Fits → (defs.define r c spec).FailsWith (.overflow (Unbounded.culprit l))) := by
  intro l
  have hok : l.Fits → defs.define r c spec = .ok (l, defs.set c (.computed l)) :=
    define_of_fits hdefs.sound hnone hnd hq
  have hfail : ¬ l.Fits → (defs.define r c spec).FailsWith (.overflow (Unbounded.culprit l)) :=
    define_of_not_fits hdefs.sound hnone hnd hq
  refine ⟨?_, ⟨?_, fun hfit => ⟨_, hok hfit⟩⟩, hok, hfail⟩
  · exact (Unbounded.map_name_fields _ _ _).trans (denotes_names hq)
  · rintro ⟨x, hx⟩
    by_contra hfit
    exact (hfail hfit).ne_ok x hx

/-- Two points in an array, an address that overlaps them, and a number behind the address. -/
theorem define_exact_overlapping :
    let spec : LayoutSpec := .ordered
      [⟨"tag", .single (.resolved (.prim .int8)), none⟩,
       ⟨"points", .array (.composite Sample.point) 2, none⟩,
       ⟨"next", .single (.resolved .pointer), some 5⟩,
       ⟨"count", .single (.resolved (.prim .int16)), none⟩]
    Sample.definitions.Reachable ∧ Sample.definitions.layout? Sample.packet = none ∧
      (spec.fields.map (·.name)).Nodup ∧
      ∃ l, Sample.definitions.define Sample.resolver Sample.packet spec =
          .ok (l, Sample.definitions.set Sample.packet (.computed l)) ∧
        l.offsets = [("tag", 0), ("points", 4), ("next", 5), ("count", 14)] ∧ l.size = 40 := by
  intro spec
  have hprim : ∀ p, (Descriptor.prim p).IsComplete Sample.definitions :=
    fun p c hc => nomatch hc
  have hpoint : (Descriptor.composite Sample.point).IsComplete Sample.definitions := by
    intro c hc
    cases hc
    exact ⟨Sample.pointLayout, rfl⟩
  have hq : List.Forall₂ (·.Denotes Sample.definitions Sample.resolver ·) spec.fields
      [⟨"tag", .scalar (.prim .int8), 1, 1, none⟩,
       ⟨"points", .array (.composite Sample.point) 2, 16, 4, none⟩,
       ⟨"next", .scalar .pointer, 8, 8, some 5⟩,
       ⟨"count", .scalar (.prim .int16), 2, 2, none⟩] :=
    .cons ⟨_, rfl, hprim _, rfl⟩ <| .cons ⟨_, rfl, hpoint, rfl⟩ <|
      .cons ⟨_, rfl, hprim _, rfl⟩ <| .cons ⟨_, rfl, hprim _, rfl⟩ .nil
  have hnd : (spec.fields.map (·.name)).Nodup := by decide
  have h := define_exact Sample.definitions_reachable (c := Sample.packet) rfl hnd hq
  exact ⟨Sample.definitions_reachable, rfl, hnd, _, h.2.2.1 (by decide), rfl, rfl⟩

end Definitions

end ForeignBinding
