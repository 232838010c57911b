import ForeignBinding.Proofs.Memory.Frame
import Mathlib.Data.List.Pairwise

/-!
# Fields are isolated

Writing a field of a view changes no byte outside the field. In a struct declared without offsets
the fields lie one behind the other, so the bytes of every other field stay as they were.
-/

namespace ForeignBinding

open Attempt

namespace Field

/-- One of the fields ends before the other begins. -/
def Apart (f g : Field) : Prop := f.stop ≤ g.offset ∨ g.stop ≤ f.offset

instance : Std.Symm Apart := ⟨fun _ _ => Or.symm⟩

/-- The byte at `b` belongs to the field of what lies at `a`. -/
def Covers (f : Field) (a b : Address) : Prop :=
  a.val.toNat + f.offset ≤ b.val.toNat ∧ b.val.toNat < a.val.toNat + f.stop

variable {f g : Field} {a b : Address}

private theorem Apart.not_covers (h : f.Apart g) (hg : g.Covers a b) : ¬ f.Covers a b := by
  rintro ⟨hlow, hhigh⟩
  obtain ⟨hlow', hhigh'⟩ := hg
  rcases h with h | h <;> omega

private theorem size_le_distance (hend : a.val.toNat + f.stop ≤ addressCount)
    (hb : ¬ f.Covers a b) : f.size ≤ Memory.distance (a.offset f.offset) b := by
  have ha : a.val.toNat < addressCount := UInt64.toNat_lt _
  have hblt : b.val.toNat < addressCount := UInt64.toNat_lt _
  have hstop : f.stop = f.offset + f.size := rfl
  -- A field without bytes may begin behind the last address, where its own address wraps around.
  rcases Nat.eq_zero_or_pos f.size with hzero | hpos
  · exact hzero ▸ Nat.zero_le _
  · have hlt : a.val.toNat + f.offset < addressCount := by omega
    rw [Memory.toNat_distance, Address.toNat_offset hlt]
    unfold Covers at hb
    -- A byte before the field is reached by going around.
    by_cases hbefore : b.val.toNat < a.val.toNat + f.offset
    · rw [Nat.mod_eq_of_lt (by omega)]
      omega
    · obtain ⟨k, hk⟩ := Nat.exists_eq_add_of_le (Nat.not_lt.1 hbefore)
      have hsum : addressCount - (a.val.toNat + f.offset) + b.val.toNat = k + addressCount := by
        omega
      rw [hsum, Nat.add_mod_right, Nat.mod_eq_of_lt (by omega)]
      omega

end Field

namespace Unbounded

private theorem fields_without_offsets (cursor : Nat) {qs : List Request}
    (hpos : ∀ q ∈ qs, 0 < q.alignment) (hnone : ∀ q ∈ qs, q.given = none) :
    (∀ f ∈ fields .struct cursor qs, cursor ≤ f.offset) ∧
      (fields .struct cursor qs).Pairwise (·.stop ≤ ·.offset) := by
  induction qs generalizing cursor with
  | nil => simp [fields]
  | cons q qs ih =>
      have hq : cursor ≤ (q.field .struct cursor).offset := by
        simp only [Request.field, Request.offset, hnone q List.mem_cons_self]
        exact le_leastMultiple (hpos q List.mem_cons_self) cursor
      obtain ⟨hcursor, hrest⟩ := ih (q.field .struct cursor).stop
        (fun q' hq' => hpos q' (List.mem_cons_of_mem q hq'))
        (fun q' hq' => hnone q' (List.mem_cons_of_mem q hq'))
      have hstop : cursor ≤ (q.field .struct cursor).stop := hq.trans (Nat.le_add_right _ _)
      refine ⟨?_, List.pairwise_cons.2 ⟨hcursor, hrest⟩⟩
      intro f hf
      rcases List.mem_cons.1 hf with rfl | hf
      · exact hq
      · exact hstop.trans (hcursor f hf)

end Unbounded

theorem FieldSpec.Denotes.given_eq {f : FieldSpec} {defs : Definitions} {r : Resolver}
    {q : Request} (h : f.Denotes defs r q) : q.given = f.offset := by
  obtain ⟨d, -, -, rfl⟩ := h
  unfold request
  split <;> rfl

theorem exists_denotes {defs : Definitions} {r : Resolver} {fs : List FieldSpec}
    {qs : List Request} (hq : List.Forall₂ (·.Denotes defs r ·) fs qs) {q : Request}
    (hmem : q ∈ qs) : ∃ f ∈ fs, f.Denotes defs r q := by
  induction hq with
  | nil => simp at hmem
  | @cons f q' fs qs h _ ih =>
      rcases List.mem_cons.1 hmem with rfl | hmem
      · exact ⟨f, List.mem_cons_self, h⟩
      · obtain ⟨f', hf', hdenotes⟩ := ih hmem
        exact ⟨f', List.mem_cons_of_mem f hf', hdenotes⟩

namespace Layout

variable {l : Layout} {defs : Definitions} {kind : CompositeKind} {f : Field}

/-- Fields of a struct that is computed from a declaration without offsets are apart. -/
theorem apart_of_compute (hpos : ∀ d, 0 < defs.alignmentOf d) {r : Resolver} {floor : Nat}
    {spec : LayoutSpec} (h : compute defs r .struct floor spec = .ok l)
    (hnone : ∀ s ∈ spec.fields, s.offset = none) {g : Field} (hf : f ∈ l.fields)
    (hg : g ∈ l.fields) (hne : g ≠ f) : f.Apart g := by
  obtain ⟨-, qs, hq, rfl, -⟩ := compute_eq_ok hpos h
  have hqs : ∀ q ∈ qs, 0 < q.alignment ∧ q.given = none := by
    intro q hmem
    obtain ⟨s, hs, hdenotes⟩ := exists_denotes hq hmem
    exact ⟨hdenotes.alignment_pos hpos, hdenotes.given_eq.trans (hnone s hs)⟩
  have hpair := (Unbounded.fields_without_offsets 0 (fun q hmem => (hqs q hmem).1)
    (fun q hmem => (hqs q hmem).2)).2
  have happart : (Unbounded.fields .struct 0 qs).Pairwise Field.Apart := hpair.imp .inl
  exact happart.forall hf hg hne.symm

end Layout

namespace View

variable {v : View} {defs : Definitions} {f : Field} {x : Value}

/-- Writing a field changes no byte outside it. -/
theorem set_of_not_covers (hdefs : defs.Sound) (hv : v.IsMade defs)
    (hend : v.address.val.toNat + v.layout.size ≤ addressCount) (hf : f ∈ v.layout.fields)
    (hx : x.IsMade defs) (m : Memory) {b : Address} (hb : ¬ f.Covers v.address b) :
    (v.set defs m f.name x).2 b = m b := by
  have hplaced := hdefs.placed _ _ hv.layout?_eq
  have hset : (v.set defs m f.name x).2 =
      (m.writeField defs f.kind (v.address.offset f.offset) x).2 := by
    rw [set, Layout.set_of_field (Layout.field_of_mem hplaced.nodup hf)]
  have hstop : f.stop ≤ v.layout.size := hplaced.stop_le_size hf
  rw [hset]
  apply Memory.agreeBeyond_writeField f.kind _ hx m
  rw [← hplaced.size_eq hf]
  exact f.size_le_distance (by omega) hb

/-- Let `v` be a view of a composite whose layout `define` has computed, which lies within the
addresses. Writing one of its fields, whether it succeeds or not, changes no byte outside the
field. If the composite is a struct declared without offsets, then no other field has a byte in
common with this one, and the bytes of all other fields stay as they were. -/
theorem set_isolated {defs₀ defs₁ : Definitions} {r : Resolver} {spec : LayoutSpec} {l : Layout}
    (hdefs : defs₀.Reachable) (known : v.composite.id < defs₀.count)
    (hdefine : defs₀.define r v.composite spec = .ok (l, defs₁)) (hrun : defs₁.Run defs)
    (hv : v.IsMade defs) (hend : v.address.val.toNat + v.layout.size ≤ addressCount)
    (hf : f ∈ v.layout.fields) (hx : x.IsMade defs) (m : Memory) :
    (∀ b, ¬ f.Covers v.address b → (v.set defs m f.name x).2 b = m b) ∧
      (v.composite.kind = .struct → (∀ s ∈ spec.fields, s.offset = none) →
        ∀ g ∈ v.layout.fields, g ≠ f → f.Apart g ∧
          ∀ b, g.Covers v.address b → (v.set defs m f.name x).2 b = m b) := by
  have hstep : defs₀.Step defs₁ := .define known hdefine
  have hsound : defs.Sound := hrun.sound (hstep.sound hdefs.sound)
  have hframe : ∀ b, ¬ f.Covers v.address b → (v.set defs m f.name x).2 b = m b :=
    fun b hb => set_of_not_covers hsound hv hend hf hx m hb
  refine ⟨hframe, ?_⟩
  intro hstruct hnone g hg hne
  obtain ⟨-, hcompute, rfl⟩ := Definitions.define_eq_ok hdefine
  have hlayout : v.layout = l := by
    have hl := hrun.extends v.composite l (by simp [Definitions.layout?, Progress.layout?])
    rw [hv.layout?_eq] at hl
    exact Option.some.inj hl
  rw [hlayout] at hf hg
  rw [hstruct] at hcompute
  have happart : f.Apart g :=
    Layout.apart_of_compute hdefs.sound.alignmentOf_pos hcompute hnone hf hg hne
  exact ⟨happart, fun b hb => hframe b (happart.not_covers hb)⟩

end View

namespace Sample

def packetSpec : LayoutSpec := .keyed
  [("points", .array (.composite point) 2), ("count", .single (.resolved (.prim .int32)))]

def packetLayout : Layout :=
  ⟨.struct, [⟨"points", .array (.composite point) 2, 0, 16, 4⟩,
    ⟨"count", .scalar (.prim .int32), 16, 4, 4⟩], 40, 4⟩

def complete : Definitions := definitions.set packet (.computed packetLayout)

/-- A packet that ends with the last address. -/
def packetView : View := ⟨packet, packetLayout, ⟨0xffffffffffffffd8⟩⟩

/-- Two elements, of which only the first can be stored. -/
def halfStored : Value := .array [.view ⟨point, pointLayout, ⟨0x1000⟩⟩, .int 7]

private theorem halfStored_isMade : halfStored.IsMade complete := by
  intro v hv
  rcases hv with _ | @⟨_, x, _, hx, hheld⟩
  rcases List.mem_cons.1 hx with rfl | hx
  · cases hheld
    exact ⟨complete, .refl, rfl⟩
  · rw [List.mem_singleton.1 hx] at hheld
    cases hheld

end Sample

/-- The array of a packet is written up to the element that cannot be stored, and the count stays
as it was. -/
theorem View.set_isolated_halfStored :
    let points : Field := ⟨"points", .array (.composite Sample.point) 2, 0, 16, 4⟩
    let count : Field := ⟨"count", .scalar (.prim .int32), 16, 4, 4⟩
    let write := fun m => Sample.packetView.set Sample.complete m "points" Sample.halfStored
    Sample.definitions.Reachable ∧
      Sample.definitions.define Sample.resolver Sample.packet Sample.packetSpec =
        .ok (Sample.packetLayout, Sample.complete) ∧
      Sample.packetView.IsMade Sample.complete ∧ Sample.halfStored.IsMade Sample.complete ∧
      (∀ m, ∃ e, (write m).1 = .error e) ∧
      (∀ m b, ¬ points.Covers Sample.packetView.address b → (write m).2 b = m b) ∧
      points.Apart count ∧
      ∀ m b, count.Covers Sample.packetView.address b → (write m).2 b = m b := by
  intro points count write
  have hdefine : Sample.definitions.define Sample.resolver Sample.packet Sample.packetSpec =
      .ok (Sample.packetLayout, Sample.complete) := rfl
  have hview : Sample.packetView.IsMade Sample.complete := ⟨Sample.complete, .refl, rfl⟩
  have hisolated := set_isolated (f := points) Sample.definitions_reachable (by decide) hdefine
    .refl hview (by decide) List.mem_cons_self Sample.halfStored_isMade
  have hcount := fun m => (hisolated m).2 rfl (by decide) count (by decide) (by decide)
  exact ⟨Sample.definitions_reachable, hdefine, hview, Sample.halfStored_isMade,
    fun m => ⟨_, rfl⟩, fun m => (hisolated m).1, (hcount Memory.zeroed).1,
    fun m => (hcount m).2⟩

end ForeignBinding
