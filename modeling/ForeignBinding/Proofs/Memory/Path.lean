import ForeignBinding.Proofs.Memory.Reading
import Mathlib.Algebra.Order.BigOperators.Group.List

/-!
# Nested accesses

A path leads from a view through fields and elements of arrays to something that lies in it. However
deep it leads, this is within the view, and what is computed on the way there never wraps around.
-/

namespace ForeignBinding

open Attempt

/-- The number of bytes in a field. -/
def FieldKind.size (k : FieldKind) (defs : Definitions) : Nat :=
  defs.sizeOf k.element * k.count

namespace FieldKind

@[simp]
theorem size_scalar (d : Descriptor) (defs : Definitions) :
    (scalar d).size defs = defs.sizeOf d := Nat.mul_one _

@[simp]
theorem size_composite (c : Composite) (defs : Definitions) :
    (composite c).size defs = defs.sizeOf (.composite c) := Nat.mul_one _

@[simp]
theorem size_array (d : Descriptor) (n : Nat) (defs : Definitions) :
    (array d n).size defs = defs.sizeOf d * n := rfl

@[simp]
theorem size_fieldKind (d : Descriptor) (defs : Definitions) :
    (Placement.fieldKind d).size defs = defs.sizeOf d := by
  cases d <;> exact Nat.mul_one _

end FieldKind

/-- A step of a path: to a field of a composite, or to an element of an array. -/
inductive Hop where
  | field (name : String)
  | element (index : Nat)

/-- The path leads from the layout, over these distances, to something of the given kind. -/
inductive Layout.Leads (l : Layout) (defs : Definitions) :
    List Hop → List Nat → FieldKind → Prop
  | field {name : String} {f : Field} (found : l.field name = .ok f) :
      Leads l defs [.field name] [f.offset] f.kind
  | element {path : List Hop} {ds : List Nat} {d : Descriptor} {count i : Nat}
      (array : Leads l defs path ds (.array d count)) (lt : i < count) :
      Leads l defs (path ++ [.element i]) (ds ++ [i * defs.sizeOf d]) (Placement.fieldKind d)
  | member {path : List Hop} {ds : List Nat} {c : Composite} {inner : Layout} {name : String}
      {f : Field} (composite : Leads l defs path ds (.composite c))
      (computed : defs.layout? c = some inner) (found : inner.field name = .ok f) :
      Leads l defs (path ++ [.field name]) (ds ++ [f.offset]) f.kind

/-- What a step leads to from a value that was read. -/
def Value.hop? (x : Value) (defs : Definitions) (m : Memory) : Hop → Option Value
  | .field name =>
      match x with
      | .view v => (v.get defs m name).toOption
      | _ => none
  | .element i =>
      match x with
      | .array xs => xs[i]?
      | _ => none

/-- What a path leads to from a value, reading all that is on the way. -/
def Value.follow? (x : Value) (defs : Definitions) (m : Memory) (path : List Hop) :
    Option Value :=
  path.foldlM (fun y hop => y.hop? defs m hop) x

private theorem Address.foldl_offset (a : Address) (ds : List Nat) :
    ds.foldl Address.offset a = a.offset ds.sum := by
  induction ds generalizing a with
  | nil => simp
  | cons d ds ih => rw [List.foldl_cons, ih, offset_offset, List.sum_cons]

namespace Layout

variable {l : Layout} {defs : Definitions} {kind : CompositeKind} {path : List Hop}
  {ds : List Nat} {k : FieldKind}

private theorem element_fieldKind_isComplete {d : Descriptor} (h : d.IsComplete defs) :
    (Placement.fieldKind d).element.IsComplete defs := by
  cases d <;> exact h

/-- What a path leads to is complete, and ends within the layout. -/
theorem Leads.within (h : l.Leads defs path ds k) (hdefs : defs.Sound)
    (hl : l.IsPlaced defs kind) :
    k.element.IsComplete defs ∧ ds.sum + k.size defs ≤ l.size := by
  have hfield : ∀ {l' : Layout} {kind' : CompositeKind} {name : String} {f : Field},
      l'.IsPlaced defs kind' → l'.field name = .ok f →
        f.kind.element.IsComplete defs ∧ f.offset + f.kind.size defs ≤ l'.size := by
    intro l' kind' name f hl' hf
    have hmem := mem_of_field hf
    refine ⟨hl'.isComplete hmem, ?_⟩
    rw [FieldKind.size, ← hl'.size_eq hmem]
    exact hl'.stop_le_size hmem
  induction h with
  | field found => simpa using hfield hl found
  | @element path ds d count i array lt ih =>
      refine ⟨element_fieldKind_isComplete ih.1, ?_⟩
      have hlast : i * defs.sizeOf d + defs.sizeOf d ≤ defs.sizeOf d * count := by
        rw [← Nat.succ_mul, Nat.mul_comm]
        exact Nat.mul_le_mul_left _ lt
      have harray : ds.sum + defs.sizeOf d * count ≤ l.size := ih.2
      rw [FieldKind.size_fieldKind, List.sum_append, List.sum_singleton]
      omega
  | @member path ds c inner name f composite computed found ih =>
      obtain ⟨hcomplete, hstop⟩ := hfield (hdefs.placed c inner computed) found
      have hinner : ds.sum + inner.size ≤ l.size := by
        have hsize : defs.sizeOf (.composite c) = inner.size :=
          Memory.sizeOf_of_layout? rfl computed
        have hcomposite := ih.2
        rwa [FieldKind.size_composite, hsize] at hcomposite
      refine ⟨hcomplete, ?_⟩
      rw [List.sum_append, List.sum_singleton]
      omega

end Layout

namespace Memory

variable {m m' : Memory} {defs : Definitions} {d : Descriptor} {a : Address}

private theorem hop?_element (hd : d.IsComplete defs) {count i : Nat} (hi : i < count) (m : Memory)
    (a : Address) :
    (m.readField defs (.array d count) a).toOption.bind (·.hop? defs m (.element i)) =
      (m.readField defs (Placement.fieldKind d) (a.offset (i * defs.sizeOf d))).toOption := by
  rw [readValue_fieldKind]
  by_cases hvalues : d.HasValues
  · obtain ⟨xs, hxs⟩ := exists_readElements hd hvalues m a 0 count
    obtain ⟨hlen, hall⟩ := readElements_eq_ok.1 hxs
    have hx := hall i xs[i] (List.getElem?_eq_getElem (hlen ▸ hi))
    rw [Nat.zero_add] at hx
    rw [readField, hxs, hx]
    exact List.getElem?_eq_getElem (hlen ▸ hi)
  · -- No element can be read, so the array cannot either.
    obtain ⟨p, rfl, hp⟩ := Descriptor.not_hasValues.1 hvalues
    obtain ⟨f, hf, -⟩ :=
      readField_failsWith (k := .array (.prim p) count) rfl hp (Nat.zero_lt_of_lt hi) m defs a
    rw [hf, readValue_of_not_isStored hp]
    rfl

private theorem hop?_member {c : Composite} {l : Layout} {name : String} {f : Field}
    (hl : defs.layout? c = some l) (hf : l.field name = .ok f) (m : Memory) (a : Address) :
    (m.readField defs (.composite c) a).toOption.bind (·.hop? defs m (.field name)) =
      (m.readField defs f.kind (a.offset f.offset)).toOption := by
  rw [← toOption_noting (m.readField defs f.kind (a.offset f.offset))
    s!"While reading field `{name}`", ← Layout.get_of_field hf, readField, View.at?, hl]
  rfl

private theorem readField_of_isMade {v : View} (hv : v.IsMade defs) (m : Memory) :
    m.readField defs (.composite v.composite) v.address = .ok (.view v) := by
  rw [readField, View.at?, hv.layout?_eq]
  rfl

/-- Following a path reads at the address that its distances lead to. -/
theorem follow?_of_leads {v : View} (hdefs : defs.Sound) (hv : v.IsMade defs)
    {path : List Hop} {ds : List Nat} {k : FieldKind} (h : v.layout.Leads defs path ds k)
    (m : Memory) :
    (Value.view v).follow? defs m path =
      (m.readField defs k (ds.foldl Address.offset v.address)).toOption := by
  have hl := hdefs.placed _ _ hv.layout?_eq
  unfold Value.follow?
  induction h with
  | @field name f found =>
      have hread := hop?_member hv.layout?_eq found m v.address
      rw [readField_of_isMade hv] at hread
      simpa [Except.toOption] using hread
  | @element path ds d count i array lt ih =>
      have hd : d.IsComplete defs := (array.within hdefs hl).1
      rw [List.foldlM_append, ih, List.foldl_append]
      simpa using hop?_element hd lt m (ds.foldl Address.offset v.address)
  | @member path ds c inner name f composite computed found ih =>
      rw [List.foldlM_append, ih, List.foldl_append]
      simpa using hop?_member computed found m (ds.foldl Address.offset v.address)

private theorem read_offset {i n k : Nat} (h : i + k ≤ n) (m : Memory) (a : Address) :
    m.read (a.offset i) k = ((m.read a n).drop i).take k := by
  apply List.ext_getElem
  · simp only [length_read, List.length_take, List.length_drop]
    omega
  · intro j hj _
    simp [read, Address.offset_offset]

private theorem read_offset_congr {i n k : Nat} (hm : m.read a n = m'.read a n) (h : i + k ≤ n) :
    m.read (a.offset i) k = m'.read (a.offset i) k := by
  rw [read_offset h, read_offset h, hm]

theorem readValue_congr (h : m.read a (defs.sizeOf d) = m'.read a (defs.sizeOf d)) :
    m.readValue defs d a = m'.readValue defs d a := by
  unfold readValue
  cases hs : d.stored with
  | inl p =>
      rw [sizeOf_of_stored hs] at h
      simp only [h]
  | inr c => rfl

private theorem readElements_congr {i n : Nat}
    (h : m.read a ((i + n) * defs.sizeOf d) = m'.read a ((i + n) * defs.sizeOf d)) :
    m.readElements defs d a i n = m'.readElements defs d a i n := by
  induction n generalizing i with
  | zero => rfl
  | succ n ih =>
      have hfirst : m.readValue defs d (a.offset (i * defs.sizeOf d)) =
          m'.readValue defs d (a.offset (i * defs.sizeOf d)) := by
        apply readValue_congr
        apply read_offset_congr h
        rw [← Nat.succ_mul]
        exact Nat.mul_le_mul_right _ (by omega)
      have hnext : i + (n + 1) = i + 1 + n := by omega
      rw [readElements, readElements, hfirst, ih (hnext ▸ h)]

private theorem readField_congr {k : FieldKind}
    (h : m.read a (k.size defs) = m'.read a (k.size defs)) :
    m.readField defs k a = m'.readField defs k a := by
  cases k with
  | scalar d => exact readValue_congr (by simpa using h)
  | composite c => rfl
  | array d n =>
      rw [FieldKind.size_array, Nat.mul_comm, ← Nat.zero_add n] at h
      rw [readField, readField, readElements_congr h]

private theorem readField_eq_view {k : FieldKind} {w : View}
    (h : m.readField defs k a = .ok (.view w)) : w.address = a ∧ w.layout.size = k.size defs := by
  have hvalue : ∀ {d : Descriptor}, m.readValue defs d a = .ok (.view w) →
      w.address = a ∧ w.layout.size = defs.sizeOf d := by
    intro d h
    obtain ⟨c, hs, hat⟩ := view_of_readValue h (.view w)
    obtain ⟨l, hl, rfl⟩ := at?_eq_ok.1 hat
    exact ⟨rfl, (sizeOf_of_layout? (composite?_of_stored hs) hl).symm⟩
  cases k with
  | scalar d =>
      rw [FieldKind.size_scalar]
      exact hvalue h
  | composite c =>
      rw [FieldKind.size_composite]
      exact hvalue (d := .composite c) h
  | array d n =>
      obtain ⟨xs, -, heq⟩ := map_eq_ok.1 h
      cases heq

end Memory

namespace View

variable {v : View} {defs : Definitions}

/-- Whatever is written through a view, no byte outside it changes. -/
theorem agreeBeyond_set (hdefs : defs.Sound) (hv : v.IsMade defs) {x : Value}
    (hx : x.IsMade defs) (m : Memory) (name : String) :
    Memory.AgreeBeyond v.address v.layout.size m (v.set defs m name x).2 := by
  have hl := hdefs.placed _ _ hv.layout?_eq
  rw [set]
  cases hf : v.layout.field name with
  | error f =>
      rw [Layout.set, hf]
      exact .refl _ _ _
  | ok f =>
      rw [Layout.set_of_field hf]
      have hmem := Layout.mem_of_field hf
      refine (Memory.agreeBeyond_writeField f.kind _ hx m).of_offset ?_
      rw [← hl.size_eq hmem]
      exact hl.stop_le_size hmem

/-- However deep a path leads into a view, what it leads to lies within the view, and the distances
on the way are smaller than the number of addresses. Reading finds it at the address that these
distances lead to, and depends on no byte outside the view. Writing a field of a view that it leads
to goes one distance further, and changes no byte outside.

No address on the way wraps around if the range of the view does not. That is read as this: its
address and its size, added as natural numbers, stay below the number of addresses; or they reach
it, so that the last byte of the view is at the last address, and what the path leads to has bytes.
Left out is a thing without bytes behind that last byte: its own address would be the number of
addresses, which is address 0. -/
theorem within_of_leads (hdefs : defs.Reachable) (hv : v.IsMade defs) {path : List Hop}
    {ds : List Nat} {k : FieldKind} (h : v.layout.Leads defs path ds k) :
    (ds.sum + k.size defs ≤ v.layout.size ∧ ∀ d ∈ ds, d < addressCount) ∧
    (∀ m, (Value.view v).follow? defs m path =
      (m.readField defs k (ds.foldl Address.offset v.address)).toOption) ∧
    (∀ m m' : Memory, m.read v.address v.layout.size = m'.read v.address v.layout.size →
      (Value.view v).follow? defs m path = (Value.view v).follow? defs m' path) ∧
    (∀ (m m' : Memory) (w : View), (Value.view v).follow? defs m path = some (.view w) →
      ∀ name x,
        (∀ f, w.layout.field name = .ok f → (w.set defs m' name x).2 =
          (m'.writeField defs f.kind ((ds ++ [f.offset]).foldl Address.offset v.address) x).2) ∧
        (x.IsMade defs →
          Memory.AgreeBeyond v.address v.layout.size m' (w.set defs m' name x).2)) ∧
    (v.address.val.toNat + v.layout.size < addressCount ∨
        v.address.val.toNat + v.layout.size = addressCount ∧ 0 < k.size defs →
      ∀ done, done <+: ds →
        (done.foldl Address.offset v.address).val.toNat = v.address.val.toNat + done.sum) := by
  have hsound := hdefs.sound
  have hl := hsound.placed _ _ hv.layout?_eq
  have hwithin := (h.within hsound hl).2
  have hfollow := Memory.follow?_of_leads hsound hv h
  refine ⟨⟨hwithin, fun d hd => ?_⟩, hfollow, fun m m' hm => ?_, ?_, ?_⟩
  · have hle : d ≤ ds.sum := List.le_sum_of_mem hd
    have hlt := hl.size_lt
    omega
  · have hread : m.read (v.address.offset ds.sum) (k.size defs) =
        m'.read (v.address.offset ds.sum) (k.size defs) := Memory.read_offset_congr hm hwithin
    rw [hfollow, hfollow, Address.foldl_offset, Memory.readField_congr hread]
  · intro m m' w hw name x
    rw [hfollow, Address.foldl_offset] at hw
    have hread : m.readField defs k (v.address.offset ds.sum) = .ok (.view w) := by
      cases hr : m.readField defs k (v.address.offset ds.sum) with
      | error f => simp [hr, Except.toOption] at hw
      | ok y => simpa [hr, Except.toOption] using hw
    obtain ⟨haddress, hsize⟩ := Memory.readField_eq_view hread
    have hmade : w.IsMade defs := Memory.isMade_of_readField hread w (.view w)
    refine ⟨fun f hf => ?_, fun hx => ?_⟩
    · have hnext : (ds ++ [f.offset]).foldl Address.offset v.address =
          (v.address.offset ds.sum).offset f.offset := by
        rw [List.foldl_append, Address.foldl_offset v.address ds]
        rfl
      rw [set, Layout.set_of_field hf, haddress, hnext]
    · have hset := agreeBeyond_set hsound hmade hx m' name
      rw [haddress, hsize] at hset
      exact hset.of_offset hwithin
  · rintro hend done ⟨rest, rfl⟩
    rw [List.sum_append] at hwithin
    rw [Address.foldl_offset]
    exact Address.toNat_offset (by omega)

/-- The second number of the second point in the packet of the record. -/
theorem within_of_leads_record :
    let path : List Hop :=
      [.field "packet", .field "points", .element 1, .field "y"]
    Sample.nested.Reachable ∧ Sample.recordView.IsMade Sample.nested ∧
      Sample.recordLayout.Leads Sample.nested path [0, 0, 8, 4] (.scalar (.prim .int16)) ∧
      (∀ m : Memory, (Value.view Sample.recordView).follow? Sample.nested m path =
        (m.readField Sample.nested (.scalar (.prim .int16)) ⟨0x100c⟩).toOption) ∧
      ([0, 0, 8, 4].foldl Address.offset Sample.recordView.address).val.toNat =
        0x1000 + [0, 0, 8, 4].sum := by
  intro path
  have hpacket : Sample.recordLayout.Leads Sample.nested [.field "packet"] [0]
      (.composite Sample.packet) :=
    .field (f := ⟨"packet", .composite Sample.packet, 0, 40, 4⟩) rfl
  have hpoints : Sample.packetLayout.field "points" =
      .ok ⟨"points", .array (.composite Sample.point) 2, 0, 16, 4⟩ := rfl
  have hy : Sample.pointLayout.field "y" = .ok ⟨"y", .scalar (.prim .int16), 4, 2, 2⟩ := rfl
  have hpath : Sample.recordLayout.Leads Sample.nested path [0, 0, 8, 4]
      (.scalar (.prim .int16)) :=
    ((hpacket.member rfl hpoints).element (i := 1) (by decide)).member rfl hy
  obtain ⟨-, hfollow, -, -, haddress⟩ :=
    within_of_leads Sample.nested_reachable Sample.recordView_isMade hpath
  exact ⟨Sample.nested_reachable, Sample.recordView_isMade, hpath, hfollow,
    haddress (.inl (by decide)) _ (List.prefix_refl _)⟩

end View

end ForeignBinding
