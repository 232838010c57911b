import ForeignBinding.Attach.Variable
import ForeignBinding.Proofs.Memory.Frame

/-!
# Attached variables

A variable whose type names a composite is a view of it. Any other is the single field, at its
beginning, of a struct placed around it.
-/

namespace ForeignBinding

open Attempt

namespace VariableDecl

variable {d : VariableDecl} {defs : Definitions} {r : Resolver} {a : Address} {type : Descriptor}

private theorem wrap_eq_ok (hpos : ∀ t, 0 < defs.alignmentOf t) {l : Layout}
    (h : d.wrap defs r type = .ok l) :
    l.fields = [⟨VariableBinding.fieldName, Placement.fieldKind type, 0, defs.sizeOf type,
      defs.alignmentOf type⟩] := by
  obtain ⟨-, qs, hq, rfl, -⟩ := Layout.compute_eq_ok hpos (noting_eq_ok.1 (under_eq_ok.1 h))
  rcases hq with _ | ⟨⟨t, ht, -, rfl⟩, _ | _⟩
  cases ht
  simp [Unbounded.layout, Unbounded.fields, FieldSpec.request, Request.field, Request.offset,
    leastMultiple]

/-- How a variable is accessed: as a view, or as the field of a struct around it. -/
theorem access_eq_ok {access : VariableAccess} (h : d.access defs r a = .ok (type, access)) :
    (∃ c v, d.composite? r = some c ∧ type = .composite c ∧ View.at? defs c a = .ok v ∧
        access = .view v) ∨
      d.composite? r = none ∧ ∃ l, d.wrap defs r type = .ok l ∧ access = .wrapped l := by
  unfold VariableDecl.access at h
  cases hc : d.composite? r with
  | none =>
      simp only [hc] at h
      obtain ⟨t, -, h⟩ := bind_eq_ok.1 h
      obtain ⟨l, hl, h⟩ := bind_eq_ok.1 h
      cases h
      exact .inr ⟨rfl, l, hl, rfl⟩
  | some c =>
      simp only [hc] at h
      obtain ⟨v, hv, h⟩ := bind_eq_ok.1 h
      cases h
      exact .inl ⟨c, v, rfl, rfl, under_eq_ok.1 hv, rfl⟩

end VariableDecl

theorem attachVariable_eq_ok {d : VariableDecl} {defs : Definitions} {r : Resolver}
    {libraries : LibrarySet} {b : VariableBinding}
    (h : attachVariable d defs r libraries = .ok b) :
    d.access defs r b.address = .ok (b.type, b.access) := by
  unfold attachVariable at h
  cases hfind : libraries.find? d.symbol with
  | none => simp [hfind, fail] at h
  | some found =>
      simp only [hfind] at h
      obtain ⟨⟨type, access⟩, haccess, h⟩ := bind_eq_ok.1 h
      cases h
      exact haccess

namespace VariableBinding

/-- The variable was attached at some point of the run that has led to the definitions. -/
def IsAttached (b : VariableBinding) (defs : Definitions) : Prop :=
  ∃ before d r libraries, Definitions.Reachable before ∧ Definitions.Run before defs ∧
    attachVariable d before r libraries = .ok b

variable {b : VariableBinding} {defs : Definitions} {l : Layout}

theorem IsAttached.type_eq (h : b.IsAttached defs) {v : View} (hv : b.access = .view v) :
    ∃ c, b.type = .composite c := by
  obtain ⟨before, d, r, libraries, -, -, hattach⟩ := h
  rcases VariableDecl.access_eq_ok (attachVariable_eq_ok hattach) with
    ⟨c, w, -, htype, -, -⟩ | ⟨-, l, -, hwrapped⟩
  · exact ⟨c, htype⟩
  · cases hv.symm.trans hwrapped

private theorem IsAttached.exists_wrap (h : b.IsAttached defs) (hl : b.access = .wrapped l) :
    ∃ before d r, Definitions.Reachable before ∧ Definitions.Run before defs ∧
      VariableDecl.wrap d before r b.type = .ok l := by
  obtain ⟨before, d, r, libraries, hreachable, hrun, hattach⟩ := h
  rcases VariableDecl.access_eq_ok (attachVariable_eq_ok hattach) with
    ⟨c, v, -, -, -, hview⟩ | ⟨-, l', hwrap, hwrapped⟩
  · cases hl.symm.trans hview
  · cases hl.symm.trans hwrapped
    exact ⟨before, d, r, hreachable, hrun, hwrap⟩

theorem IsAttached.isPlaced (h : b.IsAttached defs) (hl : b.access = .wrapped l) :
    l.IsPlaced defs .struct := by
  obtain ⟨before, d, r, hreachable, hrun, hwrap⟩ := h.exists_wrap hl
  have hcompute := noting_eq_ok.1 (under_eq_ok.1 hwrap)
  exact hrun.extends.isPlaced (hreachable.sound.compute_isPlaced hcompute)

private theorem IsAttached.exists_field (h : b.IsAttached defs) (hl : b.access = .wrapped l) :
    ∃ f, l.field fieldName = .ok f ∧ f.kind = Placement.fieldKind b.type ∧ f.offset = 0 := by
  obtain ⟨before, d, r, hreachable, -, hwrap⟩ := h.exists_wrap hl
  have hfields := VariableDecl.wrap_eq_ok hreachable.sound.alignmentOf_pos hwrap
  refine ⟨⟨fieldName, Placement.fieldKind b.type, 0, before.sizeOf b.type,
    before.alignmentOf b.type⟩, ?_, rfl, rfl⟩
  rw [Layout.field_eq_ok, Layout.field?, hfields]
  exact List.find?_cons_of_pos (beq_self_eq_true _)

theorem IsAttached.field_eq (h : b.IsAttached defs) (hl : b.access = .wrapped l) :
    ∃ f, l.field fieldName = .ok f ∧ f.kind = Placement.fieldKind b.type := by
  obtain ⟨f, hf, hk, -⟩ := h.exists_field hl
  exact ⟨f, hf, hk⟩

theorem IsAttached.exists_scalar (h : b.IsAttached defs) {p : Prim} (ht : b.type = .prim p) :
    ∃ l f, b.access = .wrapped l ∧ l.IsPlaced defs .struct ∧ l.field fieldName = .ok f ∧
      f.kind = .scalar (.prim p) ∧ f.offset = 0 := by
  cases haccess : b.access with
  | view v =>
      obtain ⟨c, hc⟩ := h.type_eq haccess
      cases ht.symm.trans hc
  | wrapped l =>
      obtain ⟨f, hf, hk, hoffset⟩ := h.exists_field haccess
      rw [ht] at hk
      exact ⟨l, f, rfl, h.isPlaced haccess, hf, hk, hoffset⟩

end VariableBinding

namespace Sample

def counterLibrary : Library :=
  ⟨some "libcounter.so", fun symbol => if symbol = "counter" then some ⟨0x3000⟩ else none⟩

def counter : VariableBinding where
  name := "counter"
  symbol := "counter"
  address := ⟨0x3000⟩
  type := .prim .int16
  library := counterLibrary
  access := .wrapped ⟨.struct, [⟨"gvar", .scalar (.prim .int16), 0, 2, 2⟩], 2, 2⟩

theorem counter_isAttached : counter.IsAttached definitions :=
  ⟨definitions, ⟨"counter", none, .resolved (.prim .int16)⟩, resolver, ⟨[counterLibrary], []⟩,
    definitions_reachable, .refl, rfl⟩

end Sample

end ForeignBinding
