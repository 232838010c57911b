import ForeignBinding.Proofs.Layout.Embedding
import ForeignBinding.Proofs.Memory.Path

/-!
# Natural alignment

All alignments are powers of two, so the alignment of a layout is a multiple of that of each of its
fields. Where no offset is given, at any depth, whatever a path leads to is aligned as its type
asks.
-/

namespace ForeignBinding

open Attempt

private theorem dvd_of_isPowerOfTwo {m n : Nat} (hm : m.isPowerOfTwo) (hn : n.isPowerOfTwo)
    (h : m ≤ n) : m ∣ n := by
  obtain ⟨i, rfl⟩ := hm
  obtain ⟨j, rfl⟩ := hn
  have hij : i ≤ j := (Nat.pow_le_pow_iff_right Nat.one_lt_two).1 h
  exact Nat.pow_dvd_pow 2 hij

private theorem isPowerOfTwo_max {m n : Nat} (hm : m.isPowerOfTwo) (hn : n.isPowerOfTwo) :
    (max m n).isPowerOfTwo ∧ m ∣ max m n ∧ n ∣ max m n := by
  rcases Nat.le_total m n with h | h
  · have hmax : max m n = n := Nat.max_eq_right h
    rw [hmax]
    exact ⟨hn, dvd_of_isPowerOfTwo hm hn h, Nat.dvd_refl n⟩
  · have hmax : max m n = m := Nat.max_eq_left h
    rw [hmax]
    exact ⟨hm, Nat.dvd_refl m, dvd_of_isPowerOfTwo hn hm h⟩

private theorem isPowerOfTwo_foldl_max (ns : List Nat) {n : Nat} (hn : n.isPowerOfTwo)
    (hns : ∀ m ∈ ns, m.isPowerOfTwo) :
    (ns.foldl max n).isPowerOfTwo ∧ n ∣ ns.foldl max n ∧ ∀ m ∈ ns, m ∣ ns.foldl max n := by
  induction ns generalizing n with
  | nil => simpa using hn
  | cons m ns ih =>
      have hm : m.isPowerOfTwo := hns m (by simp)
      obtain ⟨hmax, hdvdn, hdvdm⟩ := isPowerOfTwo_max hn hm
      obtain ⟨hfold, hdvd, hrest⟩ := ih hmax (fun k hk => hns k (by simp [hk]))
      simp only [List.foldl_cons, List.mem_cons]
      refine ⟨hfold, hdvdn.trans hdvd, ?_⟩
      intro k hk
      rcases hk with rfl | hk
      · exact hdvdm.trans hdvd
      · exact hrest k hk

private theorem Prim.alignment_isPowerOfTwo (p : Prim) : p.alignment.isPowerOfTwo := by
  have hone : Nat.isPowerOfTwo 1 := ⟨0, rfl⟩
  have htwo : Nat.isPowerOfTwo 2 := ⟨1, rfl⟩
  have hfour : Nat.isPowerOfTwo 4 := ⟨2, rfl⟩
  have height : Nat.isPowerOfTwo 8 := ⟨3, rfl⟩
  have hsixteen : Nat.isPowerOfTwo 16 := ⟨4, rfl⟩
  cases p <;> assumption

namespace Unbounded

private theorem alignment_isPowerOfTwo {fs : List Field} (h : ∀ f ∈ fs, f.alignment.isPowerOfTwo) :
    (alignment fs).isPowerOfTwo ∧ ∀ f ∈ fs, f.alignment ∣ alignment fs := by
  have halignments : ∀ n ∈ fs.map (·.alignment), n.isPowerOfTwo := by
    intro n hn
    obtain ⟨f, hf, rfl⟩ := List.mem_map.1 hn
    exact h f hf
  obtain ⟨hfold, -, hdvd⟩ :=
    isPowerOfTwo_foldl_max (fs.map (·.alignment)) Nat.isPowerOfTwo_one halignments
  exact ⟨hfold, fun f hf => hdvd _ (List.mem_map_of_mem hf)⟩

private theorem alignment_dvd_offset {kind : CompositeKind} {cursor : Nat} {qs : List Request}
    {f : Field} (h : kind = .union ∨ ∀ q ∈ qs, q.given = none) (hf : f ∈ fields kind cursor qs) :
    f.alignment ∣ f.offset := by
  obtain ⟨q, hq, before, rfl⟩ := mem_fields hf
  simp only [Request.field, Request.offset]
  cases kind with
  | union => simp
  | struct =>
      have hgiven : q.given = none := by
        rcases h with hunion | hnone
        · cases hunion
        · exact hnone q hq
      simp only [hgiven]
      exact Nat.dvd_mul_right _ _

end Unbounded

namespace Layout

variable {l : Layout} {defs : Definitions} {kind : CompositeKind}

private theorem IsPlaced.alignment_dvd_size (h : l.IsPlaced defs kind) : l.alignment ∣ l.size := by
  obtain ⟨floor, qs, rfl, -⟩ := h
  exact Nat.dvd_mul_right _ _

private theorem IsPlaced.alignment_isPowerOfTwo (h : l.IsPlaced defs kind)
    (hfields : ∀ f ∈ l.fields, f.alignment.isPowerOfTwo) :
    l.alignment.isPowerOfTwo ∧ ∀ f ∈ l.fields, f.alignment ∣ l.alignment := by
  obtain ⟨floor, qs, rfl, -⟩ := h
  exact Unbounded.alignment_isPowerOfTwo hfields

end Layout

namespace Definitions

variable {defs : Definitions} {c e : Composite} {l : Layout} {f : Field}

/-- The alignment of a type is a power of two of which its size is a multiple. -/
theorem Reachable.alignmentOf (h : defs.Reachable) (d : Descriptor) :
    (defs.alignmentOf d).isPowerOfTwo ∧ defs.alignmentOf d ∣ defs.sizeOf d := by
  have hcomposite : ∀ c, (defs.progress c).alignment.isPowerOfTwo ∧
      (defs.progress c).alignment ∣ (defs.progress c).size := by
    intro c
    -- What a layout embeds comes before it, and its other fields are primitives and callbacks.
    induction c using h.wellFounded_embeds.induction with
    | _ c ih =>
      cases hp : defs.progress c with
      | declared => exact ⟨Nat.isPowerOfTwo_one, Nat.one_dvd _⟩
      | floored n => exact ⟨Nat.isPowerOfTwo_one, Nat.one_dvd _⟩
      | computed l =>
          have hl : defs.layout? c = some l := layout?_eq_some.2 hp
          have hplaced := h.sound.placed c l hl
          have hfields : ∀ f ∈ l.fields, f.alignment.isPowerOfTwo := by
            intro f hf
            rw [hplaced.alignment_eq hf]
            cases hd : f.kind.element with
            | prim p => exact p.alignment_isPowerOfTwo
            | callback ps r k => exact Prim.pointer.alignment_isPowerOfTwo
            | composite e => exact (ih e ⟨l, f, hl, hf, by rw [hd]; rfl⟩).1
            | byValue e => exact (ih e ⟨l, f, hl, hf, by rw [hd]; rfl⟩).1
          exact ⟨(hplaced.alignment_isPowerOfTwo hfields).1, hplaced.alignment_dvd_size⟩
  cases d with
  | prim p => exact ⟨p.alignment_isPowerOfTwo, p.alignment_dvd_size⟩
  | composite c => exact hcomposite c
  | byValue c => exact hcomposite c
  | callback ps r k => exact ⟨Prim.pointer.alignment_isPowerOfTwo, Prim.pointer.alignment_dvd_size⟩

private theorem Reachable.field_alignment_dvd (h : defs.Reachable) (hl : defs.layout? c = some l)
    (hf : f ∈ l.fields) : defs.alignmentOf f.kind.element ∣ l.alignment := by
  have hplaced := h.sound.placed c l hl
  have hfields : ∀ g ∈ l.fields, g.alignment.isPowerOfTwo := by
    intro g hg
    rw [hplaced.alignment_eq hg]
    exact (h.alignmentOf g.kind.element).1
  have hdvd := (hplaced.alignment_isPowerOfTwo hfields).2 f hf
  rwa [hplaced.alignment_eq hf] at hdvd

/-- At some point of the run the composite was defined, and no field had an offset. -/
def DefinedWithoutOffsets (defs : Definitions) (c : Composite) : Prop :=
  ∃ before r spec l after, Reachable before ∧ before.define r c spec = .ok (l, after) ∧
    after.Run defs ∧ ∀ f ∈ spec.fields, f.offset = none

/-- The composite, and whatever is embedded in it at any depth, is a union or was defined without
offsets. -/
def IsImplicit (defs : Definitions) (c : Composite) : Prop :=
  ∀ e, Relation.ReflTransGen defs.Embeds e c → e.kind = .union ∨ defs.DefinedWithoutOffsets e

private theorem IsImplicit.embedded (h : defs.IsImplicit c) (he : defs.Embeds e c) :
    defs.IsImplicit e :=
  fun d hd => h d (hd.tail he)

private theorem isImplicit_of_embeds (h : c.kind = .union ∨ defs.DefinedWithoutOffsets c)
    (hembedded : ∀ e, defs.Embeds e c → defs.IsImplicit e) : defs.IsImplicit c := by
  intro d hd
  rcases hd.cases_tail with rfl | ⟨e, hde, he⟩
  · exact h
  · exact hembedded e he d hde

private theorem DefinedWithoutOffsets.alignment_dvd_offset (h : defs.DefinedWithoutOffsets c)
    (hl : defs.layout? c = some l) (hf : f ∈ l.fields) : f.alignment ∣ f.offset := by
  obtain ⟨before, r, spec, l', after, hbefore, hdefine, hrun, hnone⟩ := h
  obtain ⟨-, hcompute, rfl⟩ := define_eq_ok hdefine
  have hsame : l' = l := by
    have hafter := hrun.extends c l' (by simp [layout?, Progress.layout?])
    rw [hl] at hafter
    exact (Option.some.inj hafter).symm
  subst hsame
  obtain ⟨-, qs, hq, rfl, -⟩ := Layout.compute_eq_ok hbefore.sound.alignmentOf_pos hcompute
  have hgiven : ∀ q ∈ qs, q.given = none := by
    intro q hmem
    obtain ⟨s, hs, hdenotes⟩ := exists_denotes hq hmem
    rw [hdenotes.given_eq]
    exact hnone s hs
  exact Unbounded.alignment_dvd_offset (.inr hgiven) hf

private theorem IsImplicit.field (h : defs.IsImplicit c) (hdefs : defs.Reachable)
    (hl : defs.layout? c = some l) (hf : f ∈ l.fields) :
    defs.alignmentOf f.kind.element ∣ f.offset ∧
      ∀ e, f.kind.element.composite? = some e → defs.IsImplicit e := by
  have hplaced := hdefs.sound.placed c l hl
  refine ⟨?_, fun e he => h.embedded ⟨l, f, hl, hf, he⟩⟩
  rw [← hplaced.alignment_eq hf]
  rcases h c .refl with hunion | hdefined
  · obtain ⟨floor, qs, rfl, -⟩ := hplaced
    exact Unbounded.alignment_dvd_offset (.inl hunion) hf
  · exact hdefined.alignment_dvd_offset hl hf

private theorem alignmentOf_fieldKind (defs : Definitions) (d : Descriptor) :
    defs.alignmentOf (Placement.fieldKind d).element = defs.alignmentOf d := by
  cases d <;> rfl

private theorem composite?_fieldKind (d : Descriptor) :
    (Placement.fieldKind d).element.composite? = d.composite? := by
  cases d <;> rfl

/-- However deep a path leads into an implicit layout, it leads to a multiple of the alignment of
what is there. -/
theorem IsImplicit.dvd_of_leads (h : defs.IsImplicit c) (hdefs : defs.Reachable)
    (hl : defs.layout? c = some l) {path : List Hop} {ds : List Nat} {k : FieldKind}
    (hpath : l.Leads defs path ds k) :
    defs.alignmentOf k.element ∣ ds.sum ∧
      ∀ e, k.element.composite? = some e → defs.IsImplicit e := by
  induction hpath with
  | field found => simpa using h.field hdefs hl (Layout.mem_of_field found)
  | @element path ds d count i array lt ih =>
      obtain ⟨harray, helement⟩ := ih
      have hstride : defs.alignmentOf d ∣ i * defs.sizeOf d :=
        Nat.dvd_mul_left_of_dvd (hdefs.alignmentOf d).2 i
      rw [alignmentOf_fieldKind, composite?_fieldKind]
      simp only [List.sum_append, List.sum_singleton]
      exact ⟨Nat.dvd_add harray hstride, helement⟩
  | @member path ds e inner name f composite computed found ih =>
      obtain ⟨hcomposite, himplicit⟩ := ih
      have hmem := Layout.mem_of_field found
      obtain ⟨hfield, hembedded⟩ := (himplicit e rfl).field hdefs computed hmem
      have halignment : defs.alignmentOf (.composite e) = inner.alignment := by
        simp only [alignmentOf, layout?_eq_some.1 computed, Progress.alignment]
      have hinner : inner.alignment ∣ ds.sum := by
        rw [← halignment]
        exact hcomposite
      have houter := (hdefs.field_alignment_dvd computed hmem).trans hinner
      simp only [List.sum_append, List.sum_singleton]
      exact ⟨Nat.dvd_add houter hfield, hembedded⟩

/-- The alignment of an implicit layout is a power of two of which its size is a multiple, and a
path from it through fields, elements and embedded composites leads to a multiple of the alignment
of what it leads to. -/
theorem aligned_of_isImplicit (hdefs : defs.Reachable) (hl : defs.layout? c = some l)
    (hc : defs.IsImplicit c) :
    l.alignment.isPowerOfTwo ∧ l.alignment ∣ l.size ∧
      ∀ path ds k, l.Leads defs path ds k → defs.alignmentOf k.element ∣ ds.sum := by
  have hp : defs.progress c = .computed l := layout?_eq_some.1 hl
  have hwhole := hdefs.alignmentOf (.composite c)
  simp only [alignmentOf, sizeOf, hp, Progress.alignment, Progress.size] at hwhole
  obtain ⟨hpower, hdvd⟩ := hwhole
  exact ⟨hpower, hdvd, fun path ds k hpath => (hc.dvd_of_leads hdefs hl hpath).1⟩

private theorem Embeds.mem_filterMap (h : defs.Embeds e c) (hl : defs.layout? c = some l) :
    e ∈ l.fields.filterMap (·.kind.element.composite?) := by
  obtain ⟨l', f, hl', hf, he⟩ := h
  rw [hl] at hl'
  cases hl'
  exact List.mem_filterMap.2 ⟨f, hf, he⟩

end Definitions

namespace Sample

private theorem define_packet : definitions.define resolver packet packetSpec =
    .ok (packetLayout, complete) := rfl

private theorem complete_run : complete.Run nested := by
  have hrecord : (complete.declare .union "record").2.define resolver record recordSpec =
      .ok (recordLayout, nested) := rfl
  exact .head (.declare _ .union "record") (.single (.define (by decide) hrecord))

private theorem point_isImplicit : nested.IsImplicit point := by
  have hdeclared : declared.Reachable :=
    .tail (.tail .refl (.declare _ .struct "point")) (.declare _ .struct "packet")
  have hdefine : declared.define resolver point pointSpec =
      .ok (pointLayout, declared.set point (.computed pointLayout)) := rfl
  have hfloor : (declared.set point (.computed pointLayout)).setSize packet 40 =
      .ok definitions := rfl
  have hrun : (declared.set point (.computed pointLayout)).Run nested :=
    .head (.setSize (by decide) hfloor) (.head (.define (by decide) define_packet) complete_run)
  apply Definitions.isImplicit_of_embeds
  · exact .inr ⟨declared, _, _, _, _, hdeclared, hdefine, hrun, by decide⟩
  · intro e he
    have hmem := he.mem_filterMap (l := pointLayout) rfl
    cases hmem

private theorem packet_isImplicit : nested.IsImplicit packet := by
  apply Definitions.isImplicit_of_embeds
  · exact .inr ⟨definitions, _, _, _, _, definitions_reachable, define_packet, complete_run,
      by decide⟩
  · intro e he
    have hmem : e ∈ [point] := he.mem_filterMap (l := packetLayout) rfl
    rw [List.mem_singleton.1 hmem]
    exact point_isImplicit

private theorem record_isImplicit : nested.IsImplicit record := by
  apply Definitions.isImplicit_of_embeds
  · exact .inl rfl
  · intro e he
    have hmem : e ∈ [packet] := he.mem_filterMap (l := recordLayout) rfl
    rw [List.mem_singleton.1 hmem]
    exact packet_isImplicit

end Sample

/-- The second number of the second point in the packet of the record, and the second of the wide
numbers. -/
theorem Definitions.aligned_of_isImplicit_record :
    let path : List Hop := [.field "packet", .field "points", .element 1, .field "y"]
    Sample.nested.Reachable ∧
      Sample.nested.layout? Sample.record = some Sample.recordLayout ∧
      Sample.nested.IsImplicit Sample.record ∧
      Nat.isPowerOfTwo 16 ∧ 16 ∣ Sample.recordLayout.size ∧
      Sample.recordLayout.Leads Sample.nested path [0, 0, 8, 4] (.scalar (.prim .int16)) ∧
      Sample.nested.alignmentOf (.prim .int16) ∣ [0, 0, 8, 4].sum ∧
      Sample.recordLayout.Leads Sample.nested [.field "wide", .element 1] [0, 16]
        (.scalar (.prim .longDouble)) ∧
      Sample.nested.alignmentOf (.prim .longDouble) ∣ [0, 16].sum := by
  intro path
  have hl : Sample.nested.layout? Sample.record = some Sample.recordLayout := rfl
  have hpacket : Sample.recordLayout.Leads Sample.nested [.field "packet"] [0]
      (.composite Sample.packet) :=
    .field (f := ⟨"packet", .composite Sample.packet, 0, 40, 4⟩) rfl
  have hpoints : Sample.packetLayout.field "points" =
      .ok ⟨"points", .array (.composite Sample.point) 2, 0, 16, 4⟩ := rfl
  have hy : Sample.pointLayout.field "y" = .ok ⟨"y", .scalar (.prim .int16), 4, 2, 2⟩ := rfl
  have hpath : Sample.recordLayout.Leads Sample.nested path [0, 0, 8, 4]
      (.scalar (.prim .int16)) :=
    ((hpacket.member rfl hpoints).element (i := 1) (by decide)).member rfl hy
  have hwide : Sample.recordLayout.Leads Sample.nested [.field "wide"] [0]
      (.array (.prim .longDouble) 2) :=
    .field (f := ⟨"wide", .array (.prim .longDouble) 2, 0, 32, 16⟩) rfl
  have hsecond : Sample.recordLayout.Leads Sample.nested [.field "wide", .element 1] [0, 16]
      (.scalar (.prim .longDouble)) := hwide.element (i := 1) (by decide)
  obtain ⟨hpower, hsize, hleads⟩ :=
    aligned_of_isImplicit Sample.nested_reachable hl Sample.record_isImplicit
  exact ⟨Sample.nested_reachable, hl, Sample.record_isImplicit, hpower, hsize, hpath,
    hleads _ _ _ hpath, hsecond, hleads _ _ _ hsecond⟩

end ForeignBinding
