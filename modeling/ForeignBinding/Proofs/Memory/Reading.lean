import ForeignBinding.Proofs.Attach.Variable
import ForeignBinding.Proofs.Layout.Embedding
import ForeignBinding.Proofs.Memory.Isolation
import ForeignBinding.Proofs.Session

/-!
# What is read

A value of a complete type is read unless its type has no values in memory. The views that are
read are made by reading, so what they show can be read in turn.
-/

namespace ForeignBinding

open Attempt

namespace Prim

private theorem isStored_eq_false {p : Prim} :
    p.isStored = false ↔ p = .void ∨ p = .varargs ∨ p = .longDouble := by
  cases p <;> simp [isStored]

private theorem isSome_decode? (p : Prim) (bytes : List UInt8) :
    (p.decode? bytes).isSome = p.isStored := by
  cases p <;> rfl

end Prim

/-- Values of the type can be in memory. -/
def Descriptor.HasValues (d : Descriptor) : Prop :=
  ∀ p, d = .prim p → p.isStored = true

theorem Descriptor.not_hasValues {d : Descriptor} :
    ¬ d.HasValues ↔ ∃ p, d = .prim p ∧ p.isStored = false := by
  simp [HasValues]

namespace Memory

variable {m : Memory} {defs : Definitions} {d : Descriptor} {a : Address} {x : Value}

private theorem exists_readValue (hd : d.IsComplete defs) (hvalues : d.HasValues) (m : Memory)
    (a : Address) : ∃ x, m.readValue defs d a = .ok x := by
  have hprim : ∀ p, d.stored = .inl p → p.isStored = true →
      ∃ x, m.readValue defs d a = .ok x := by
    intro p hs hp
    obtain ⟨x, hx⟩ := Option.isSome_iff_exists.1 ((p.isSome_decode? (m.read a p.size)).trans hp)
    exact ⟨x, by simp only [readValue, hs, hx]⟩
  have hcomposite : ∀ c, d.stored = .inr c → ∃ x, m.readValue defs d a = .ok x := by
    intro c hs
    obtain ⟨l, hl⟩ := hd c (composite?_of_stored hs)
    exact ⟨.view ⟨c, l, a⟩, by simp only [readValue, hs, View.at?, hl, Except.map]⟩
  cases d with
  | prim p => exact hprim p rfl (hvalues p rfl)
  | composite c => exact hcomposite c rfl
  | byValue c => exact hcomposite c rfl
  | callback ps r k => exact hprim .pointer rfl rfl

theorem readValue_of_not_isStored {p : Prim} (hp : p.isStored = false) (m : Memory)
    (defs : Definitions) (a : Address) :
    m.readValue defs (.prim p) a = .fail (.unsupported p.display) := by
  have hnone : p.decode? (m.read a p.size) = none := by
    rw [← Option.not_isSome_iff_eq_none, p.isSome_decode?, hp]
    decide
  simp only [readValue, Descriptor.stored, hnone]

theorem readValue_fieldKind (m : Memory) (defs : Definitions) (d : Descriptor) (a : Address) :
    m.readField defs (Placement.fieldKind d) a = m.readValue defs d a := by
  cases d <;> rfl

/-- Elements are read if each of them is, one stride after the other. -/
theorem readElements_eq_ok {i n : Nat} {xs : List Value} :
    m.readElements defs d a i n = .ok xs ↔
      xs.length = n ∧ ∀ j x, xs[j]? = some x →
        m.readValue defs d (a.offset ((i + j) * defs.sizeOf d)) = .ok x := by
  induction n generalizing i xs with
  | zero => cases xs <;> simp [readElements]
  | succ n ih =>
      have hnext : ∀ j, i + 1 + j = i + (j + 1) := by omega
      rw [readElements, bind_eq_ok]
      constructor
      · rintro ⟨x, hx, h⟩
        obtain ⟨rest, hrest, h⟩ := bind_eq_ok.1 h
        cases h
        obtain ⟨hlen, hall⟩ := ih.1 hrest
        refine ⟨congrArg (· + 1) hlen, fun j y hj => ?_⟩
        cases j with
        | zero =>
            cases hj
            exact hx
        | succ j => exact hnext j ▸ hall j y hj
      · rintro ⟨hlen, hall⟩
        cases xs with
        | nil => cases hlen
        | cons x rest =>
            refine ⟨x, hall 0 x rfl, ?_⟩
            have hrest := ih.2 ⟨Nat.succ.inj hlen, fun j y hj => hnext j ▸ hall (j + 1) y hj⟩
            rw [hrest]
            rfl

theorem exists_readElements (hd : d.IsComplete defs) (hvalues : d.HasValues) (m : Memory)
    (a : Address) (i n : Nat) : ∃ xs, m.readElements defs d a i n = .ok xs := by
  induction n generalizing i with
  | zero => exact ⟨[], rfl⟩
  | succ n ih =>
      obtain ⟨x, hx⟩ := exists_readValue hd hvalues m (a.offset (i * defs.sizeOf d))
      obtain ⟨xs, hxs⟩ := ih (i + 1)
      refine ⟨x :: xs, ?_⟩
      rw [readElements, hx, ok_bind, hxs]
      rfl

theorem exists_readField {k : FieldKind} (hd : k.element.IsComplete defs)
    (hvalues : k.element.HasValues ∨ k.count = 0) (m : Memory) (a : Address) :
    ∃ x, m.readField defs k a = .ok x := by
  cases k with
  | scalar d => exact exists_readValue hd (hvalues.resolve_right Nat.one_ne_zero) m a
  | composite c => exact exists_readValue (d := .composite c) hd nofun m a
  | array d n =>
      have hxs : ∃ xs, m.readElements defs d a 0 n = .ok xs := by
        rcases hvalues with hvalues | hzero
        · exact exists_readElements hd hvalues m a 0 n
        · exact ⟨[], by rw [show n = 0 from hzero]; rfl⟩
      obtain ⟨xs, hxs⟩ := hxs
      exact ⟨.array xs, by rw [readField, hxs]; rfl⟩

theorem readField_failsWith {k : FieldKind} {p : Prim} (hk : k.element = .prim p)
    (hp : p.isStored = false) (hcount : 0 < k.count) (m : Memory) (defs : Definitions)
    (a : Address) : (m.readField defs k a).FailsWith (.unsupported p.display) := by
  have hvalue : ∀ a, (m.readValue defs (.prim p) a).FailsWith (.unsupported p.display) := by
    intro a
    rw [readValue_of_not_isStored hp]
    exact failsWith_fail _
  cases k with
  | scalar d =>
      cases hk
      exact hvalue a
  | composite c => cases hk
  | array d n =>
      cases hk
      cases n with
      | zero => exact absurd hcount (Nat.lt_irrefl 0)
      | succ n =>
          obtain ⟨f, hf, hcause⟩ := (hvalue (a.offset (0 * defs.sizeOf (.prim p)))).bind
            fun x => m.readElements defs (.prim p) a 1 n >>= fun xs => .ok (x :: xs)
          exact ⟨f, by rw [readField]; exact congrArg (Except.map Value.array) hf, hcause⟩

/-- A view in a value that was read is the value, and is at the address that was read. -/
theorem view_of_readValue (h : m.readValue defs d a = .ok x) {v : View} (hv : x.Holds v) :
    ∃ c, d.stored = .inr c ∧ View.at? defs c a = .ok v := by
  cases hs : d.stored with
  | inr c =>
      simp only [readValue, hs] at h
      obtain ⟨w, hw, rfl⟩ := map_eq_ok.1 h
      cases hv
      exact ⟨c, rfl, hw⟩
  | inl p =>
      simp only [readValue, hs] at h
      split at h
      · rename_i y hy
        cases h
        cases p <;> cases hy <;> cases hv
      · cases h

private theorem isMade_of_readValue (h : m.readValue defs d a = .ok x) : x.IsMade defs := by
  intro v hv
  obtain ⟨c, -, hat⟩ := view_of_readValue h hv
  obtain ⟨l, -, rfl⟩ := at?_eq_ok.1 hat
  exact ⟨defs, .refl, hat⟩

theorem isMade_of_readField {k : FieldKind} (h : m.readField defs k a = .ok x) :
    x.IsMade defs := by
  cases k with
  | scalar d => exact isMade_of_readValue h
  | composite c => exact isMade_of_readValue (m := m) (d := .composite c) h
  | array d n =>
      obtain ⟨xs, hxs, rfl⟩ := map_eq_ok.1 h
      rintro v (_ | ⟨hx, hheld⟩)
      obtain ⟨j, hj⟩ := List.mem_iff_getElem?.1 hx
      exact isMade_of_readValue ((readElements_eq_ok.1 hxs).2 j _ hj) v hheld

end Memory

namespace Layout

variable {l : Layout} {defs : Definitions} {kind : CompositeKind} {name : String}

private theorem IsPlaced.get_cases (hl : l.IsPlaced defs kind) {f : Field}
    (hf : l.field name = .ok f) (m : Memory) (a : Address) :
    (∃ x, l.get defs m a name = .ok x) ∨
      ∃ p, f.kind.element = .prim p ∧ (p = .void ∨ p = .varargs ∨ p = .longDouble) ∧
        0 < f.kind.count ∧ (l.get defs m a name).FailsWith (.unsupported p.display) := by
  rw [get_of_field hf]
  by_cases hvalues : f.kind.element.HasValues ∨ f.kind.count = 0
  · obtain ⟨x, hx⟩ :=
      Memory.exists_readField (hl.isComplete (mem_of_field hf)) hvalues m (a.offset f.offset)
    exact .inl ⟨x, noting_eq_ok.2 hx⟩
  · obtain ⟨hvalues, hcount⟩ := not_or.1 hvalues
    obtain ⟨p, hp, hstored⟩ := Descriptor.not_hasValues.1 hvalues
    refine .inr ⟨p, hp, Prim.isStored_eq_false.1 hstored, Nat.pos_of_ne_zero hcount, ?_⟩
    exact (Memory.readField_failsWith hp hstored (Nat.pos_of_ne_zero hcount) m defs _).noting _

private theorem IsPlaced.get_not_incomplete (hl : l.IsPlaced defs kind) (m : Memory) (a : Address)
    (name c : String) : ¬ (l.get defs m a name).FailsWith (.incomplete c) := by
  intro h
  cases hf : l.field? name with
  | none =>
      have hfail : (l.get defs m a name).FailsWith (.unknownField name) := by
        rw [get, field, hf]
        exact (failsWith_fail _).bind _
      cases h.unique hfail
  | some f =>
      rcases hl.get_cases (field_eq_ok.2 hf) m a with ⟨x, hx⟩ | ⟨p, -, -, -, hfail⟩
      · exact h.ne_ok x hx
      · cases h.unique hfail

private theorem isMade_of_get {m : Memory} {a : Address} {x : Value}
    (h : l.get defs m a name = .ok x) : x.IsMade defs := by
  obtain ⟨f, hf, -⟩ := bind_eq_ok.1 h
  rw [get_of_field hf] at h
  exact Memory.isMade_of_readField (noting_eq_ok.1 h)

end Layout

private theorem VariableBinding.IsAttached.get_not_incomplete {b : VariableBinding}
    {defs : Definitions} (h : b.IsAttached defs) (m : Memory) (c : String) :
    ¬ (b.get defs m).FailsWith (.incomplete c) := by
  unfold VariableBinding.get
  cases hb : b.access with
  | view v => exact fun hfail => hfail.ne_ok _ rfl
  | wrapped l => exact (h.isPlaced hb).get_not_incomplete m b.address _ c

/-- In every session a composite embedded in a computed layout has the size and alignment that it
was placed with, and no composite contains itself. Reading never meets a composite without a
layout: a field of a view is read, unless its type or that of its elements has no values in memory,
and the views that are read can be read on. Nor does reading an attached variable. -/
theorem Session.views_complete {t : Session} (ht : t.Reachable) :
    (∀ c l (f : Field) e, t.definitions.layout? c = some l → f ∈ l.fields →
      f.kind.element.composite? = some e →
        ∃ inner, t.definitions.layout? e = some inner ∧
          f.size = inner.size * f.kind.count ∧ f.alignment = inner.alignment) ∧
    (∀ c, ¬ Relation.TransGen t.definitions.Embeds c c) ∧
    (∀ (v : View) (m : Memory), v.IsMade t.definitions →
      (∀ name c, ¬ (v.get t.definitions m name).FailsWith (.incomplete c)) ∧
      (∀ name x, v.get t.definitions m name = .ok x → x.IsMade t.definitions) ∧
      ∀ f ∈ v.layout.fields, (∃ x, v.get t.definitions m f.name = .ok x) ∨
        ∃ p, f.kind.element = .prim p ∧ (p = .void ∨ p = .varargs ∨ p = .longDouble) ∧
          0 < f.kind.count ∧
          (v.get t.definitions m f.name).FailsWith (.unsupported p.display)) ∧
    ∀ (b : VariableBinding) (m : Memory) c, b.IsAttached t.definitions →
      ¬ (b.get t.definitions m).FailsWith (.incomplete c) := by
  have hreachable := ht.sound.definitions
  have hsound := hreachable.sound
  refine ⟨fun c l f e hl hf he => hsound.embedded hl hf he, hreachable.not_transGen_embeds,
    fun v m hv => ?_, fun b m c hb => hb.get_not_incomplete m c⟩
  have hplaced := hsound.placed _ _ hv.layout?_eq
  exact ⟨hplaced.get_not_incomplete m v.address, fun name x hx => Layout.isMade_of_get hx,
    fun f hf => hplaced.get_cases (Layout.field_of_mem hplaced.nodup hf) m v.address⟩

-- The union holds a packet, and numbers that cannot be read.
namespace Sample

private theorem complete_reachable : complete.Reachable :=
  .tail definitions_reachable (.define (by decide)
    (show definitions.define resolver packet packetSpec = .ok (packetLayout, complete) from rfl))

def record : Composite := ⟨2, .union, "record"⟩

def recordSpec : LayoutSpec := .keyed
  [("packet", .single (.composite packet)), ("wide", .array (.resolved (.prim .longDouble)) 2),
    ("none", .array (.resolved (.prim .longDouble)) 0)]

def recordLayout : Layout :=
  ⟨.union, [⟨"packet", .composite packet, 0, 40, 4⟩,
    ⟨"wide", .array (.prim .longDouble) 2, 0, 32, 16⟩,
    ⟨"none", .array (.prim .longDouble) 0, 0, 0, 16⟩], 48, 16⟩

def nested : Definitions :=
  (complete.declare .union "record").2.set record (.computed recordLayout)

theorem nested_reachable : nested.Reachable :=
  .tail (.tail complete_reachable (.declare _ .union "record")) (.define (by decide)
    (show (complete.declare .union "record").2.define resolver record recordSpec =
      .ok (recordLayout, nested) from rfl))

def recordView : View := ⟨record, recordLayout, ⟨0x1000⟩⟩

theorem recordView_isMade : recordView.IsMade nested := ⟨nested, .refl, rfl⟩

end Sample

private theorem Session.reachable_of_definitions {defs : Definitions} (h : defs.Reachable) :
    Session.Reachable ⟨defs, []⟩ := by
  induction h with
  | refl => exact .refl
  | tail _ hstep ih => exact .tail ih (.handle hstep)

/-- The packet in the record is complete. The long numbers cannot be read, except for none. -/
theorem Session.views_complete_nested :
    let t : Session := ⟨Sample.nested, []⟩
    t.Reachable ∧ Sample.nested.Embeds Sample.packet Sample.record ∧
      Sample.nested.Embeds Sample.point Sample.packet ∧
      ¬ Relation.TransGen Sample.nested.Embeds Sample.packet Sample.packet ∧
      Sample.recordView.IsMade Sample.nested ∧
      (∀ m, (Sample.recordView.get Sample.nested m "wide").FailsWith
        (.unsupported "long_double")) ∧
      (∀ m, Sample.recordView.get Sample.nested m "none" = .ok (.array [])) ∧
      ∀ m name c, ¬ (Sample.recordView.get Sample.nested m name).FailsWith (.incomplete c) := by
  intro t
  have ht : t.Reachable := reachable_of_definitions Sample.nested_reachable
  obtain ⟨-, hacyclic, hviews, -⟩ := views_complete ht
  refine ⟨ht, ⟨_, _, rfl, List.mem_cons_self, rfl⟩, ⟨_, _, rfl, List.mem_cons_self, rfl⟩,
    hacyclic _, Sample.recordView_isMade, fun m => ?_, fun m => rfl,
    fun m => (hviews _ m Sample.recordView_isMade).1⟩
  have hwide := (hviews _ m Sample.recordView_isMade).2.2
    ⟨"wide", .array (.prim .longDouble) 2, 0, 32, 16⟩ (by decide)
  rcases hwide with ⟨x, hx⟩ | ⟨p, hp, -, -, hfail⟩
  · cases hx
  · cases hp
    exact hfail

end ForeignBinding
