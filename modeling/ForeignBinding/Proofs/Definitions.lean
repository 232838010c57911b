import ForeignBinding.Proofs.Layout.Exact
import Mathlib.Logic.Relation

/-!
# Runs on definitions

The definitions of composites change in three ways: one more composite is declared, one that has
nothing yet gets its least size, or one without a layout gets the layout that is computed for it.
Hence a computed layout stays, every computed layout is a placement over unbounded numbers whose
numbers all fit, and the composites embedded in it have the layouts that it was placed with.
-/

namespace ForeignBinding

open Attempt

/-- The type of a field's value, or of the elements of an array. -/
def FieldKind.element : FieldKind → Descriptor
  | scalar d => d
  | composite c => .composite c
  | array d _ => d

/-- The number of values in a field. -/
def FieldKind.count : FieldKind → Nat
  | array _ n => n
  | _ => 1

/-- A requested field has the size and alignment of its type, and what it embeds has a layout. -/
structure Request.Sound (q : Request) (defs : Definitions) : Prop where
  complete : q.kind.element.IsComplete defs
  size_eq : q.size = defs.sizeOf q.kind.element * q.kind.count
  alignment_eq : q.alignment = defs.alignmentOf q.kind.element

/-- The layout is the placement over unbounded numbers of fields with distinct names, all of its
numbers fit, and what it embeds has the size and alignment that it was placed with. -/
def Layout.IsPlaced (l : Layout) (defs : Definitions) (kind : CompositeKind) : Prop :=
  ∃ floor qs, l = Unbounded.layout kind floor qs ∧ l.Fits ∧ l.members.Nodup ∧
    ∀ q ∈ qs, Request.Sound q defs

private theorem FieldSpec.Denotes.sound {f : FieldSpec} {defs : Definitions} {r : Resolver}
    {q : Request} (h : f.Denotes defs r q) : q.Sound defs := by
  obtain ⟨d, -, hc, rfl⟩ := h
  unfold FieldSpec.request
  cases f.type with
  | array t count => exact ⟨hc, rfl, rfl⟩
  | single t => cases d <;> exact ⟨hc, (Nat.mul_one _).symm, rfl⟩

private theorem denotes_sound {defs : Definitions} {r : Resolver} {fs : List FieldSpec}
    {qs : List Request} (hq : List.Forall₂ (·.Denotes defs r ·) fs qs) :
    ∀ q ∈ qs, q.Sound defs := by
  induction hq with
  | nil => simp
  | cons h _ ih => exact List.forall_mem_cons.2 ⟨h.sound, ih⟩

theorem denotes_names {defs : Definitions} {r : Resolver} {fs : List FieldSpec}
    {qs : List Request} (hq : List.Forall₂ (·.Denotes defs r ·) fs qs) :
    qs.map (·.name) = fs.map (·.name) := by
  induction hq with
  | nil => rfl
  | cons h _ ih => simp [h.name_eq, ih]

private theorem exists_request_of_mem {defs : Definitions} {r : Resolver} {fs : List FieldSpec}
    {qs : List Request} (hq : List.Forall₂ (·.Denotes defs r ·) fs qs) {f : FieldSpec}
    (hf : f ∈ fs) : ∃ q ∈ qs, f.Denotes defs r q := by
  induction hq with
  | nil => cases hf
  | @cons f' q' _ _ h _ ih =>
      rcases List.mem_cons.1 hf with rfl | hf
      · exact ⟨q', List.mem_cons_self, h⟩
      · obtain ⟨q, hmem, hdenotes⟩ := ih hf
        exact ⟨q, List.mem_cons_of_mem _ hmem, hdenotes⟩

namespace Layout

variable {l : Layout} {defs : Definitions} {kind : CompositeKind} {f : Field}

theorem IsPlaced.nodup (h : l.IsPlaced defs kind) : l.members.Nodup := by
  obtain ⟨-, -, -, -, hnd, -⟩ := h
  exact hnd

theorem IsPlaced.size_lt (h : l.IsPlaced defs kind) : l.size < addressCount := by
  obtain ⟨-, -, -, hfit, -⟩ := h
  exact hfit.2

theorem IsPlaced.stop_le_size (h : l.IsPlaced defs kind) (hf : f ∈ l.fields) :
    f.stop ≤ l.size := by
  obtain ⟨floor, qs, rfl, -⟩ := h
  exact Unbounded.stop_le_size kind floor qs hf

private theorem IsPlaced.exists_request (h : l.IsPlaced defs kind) (hf : f ∈ l.fields) :
    ∃ q : Request, q.Sound defs ∧ ∃ before, f = q.field kind before := by
  obtain ⟨floor, qs, rfl, -, -, hsound⟩ := h
  obtain ⟨q, hq, hbefore⟩ := Unbounded.mem_fields hf
  exact ⟨q, hsound q hq, hbefore⟩

theorem IsPlaced.isComplete (h : l.IsPlaced defs kind) (hf : f ∈ l.fields) :
    f.kind.element.IsComplete defs := by
  obtain ⟨q, hq, before, rfl⟩ := h.exists_request hf
  exact hq.complete

theorem IsPlaced.size_eq (h : l.IsPlaced defs kind) (hf : f ∈ l.fields) :
    f.size = defs.sizeOf f.kind.element * f.kind.count := by
  obtain ⟨q, hq, before, rfl⟩ := h.exists_request hf
  exact hq.size_eq

theorem IsPlaced.alignment_eq (h : l.IsPlaced defs kind) (hf : f ∈ l.fields) :
    f.alignment = defs.alignmentOf f.kind.element := by
  obtain ⟨q, hq, before, rfl⟩ := h.exists_request hf
  exact hq.alignment_eq

theorem exists_field_of_compute (hpos : ∀ d, 0 < defs.alignmentOf d) {r : Resolver} {floor : Nat}
    {spec : LayoutSpec} (h : compute defs r kind floor spec = .ok l) {g : FieldSpec}
    (hg : g ∈ spec.fields) {t : TypeRef} {d : Descriptor} (ht : g.type = .single t)
    (hd : r.resolveInline t = .ok d) :
    ∃ f ∈ l.fields, f.name = g.name ∧ f.kind = Placement.fieldKind d := by
  obtain ⟨-, qs, hq, rfl, -⟩ := compute_eq_ok hpos h
  obtain ⟨q, hmem, d', hd', -, rfl⟩ := exists_request_of_mem hq hg
  obtain ⟨before, hf⟩ := Unbounded.exists_mem_fields hmem kind 0
  rw [ht] at hd'
  cases hd.symm.trans hd'
  refine ⟨_, hf, ?_, ?_⟩ <;> simp only [FieldSpec.request, ht, Request.field]

end Layout

namespace Definitions

variable {defs defs' : Definitions} {r : Resolver} {c : Composite} {spec : LayoutSpec}
  {l : Layout} {size : Nat}

/-- What a definition that succeeds has done. -/
theorem define_eq_ok (h : defs.define r c spec = .ok (l, defs')) :
    defs.layout? c = none ∧
      Layout.compute defs r c.kind (defs.progress c).floor spec = .ok l ∧
      defs' = defs.set c (.computed l) := by
  obtain ⟨floor, hbegin, h⟩ := bind_eq_ok.1 h
  obtain ⟨layout, hcompute, h⟩ := bind_eq_ok.1 h
  obtain ⟨progress, hcommit, h⟩ := bind_eq_ok.1 h
  rw [noting_eq_ok] at hcompute
  cases h
  cases hp : defs.progress c with
  | computed l' => simp [hp, Progress.beginDefine, fail] at hbegin
  | declared =>
      simp only [hp, Progress.beginDefine, Progress.commit] at hbegin hcommit
      cases hbegin
      cases hcommit
      exact ⟨by simp [layout?, hp, Progress.layout?], hcompute, rfl⟩
  | floored n =>
      simp only [hp, Progress.beginDefine] at hbegin
      cases hbegin
      have hle : ¬ (Progress.floored n).floor < n := Nat.lt_irrefl n
      simp only [hp, Progress.commit, if_neg hle] at hcommit
      cases hcommit
      exact ⟨by simp [layout?, hp, Progress.layout?], hcompute, rfl⟩

theorem setSize_eq_ok (h : defs.setSize c size = .ok defs') :
    defs.progress c = .declared ∧ defs' = defs.set c (.floored size) := by
  obtain ⟨progress, hset, h⟩ := bind_eq_ok.1 h
  cases h
  cases hp : defs.progress c with
  | declared =>
      simp only [hp, Progress.setSize] at hset
      cases hset
      exact ⟨rfl, rfl⟩
  | floored n => simp [hp, Progress.setSize, fail] at hset
  | computed l => simp [hp, Progress.setSize, fail] at hset

theorem setSize_of_declared (h : defs.progress c = .declared) :
    defs.setSize c size = .ok (defs.set c (.floored size)) := by
  simp only [setSize, h, Progress.setSize, ok_bind]
  rfl

theorem define_of_compute (hnone : defs.layout? c = none)
    (h : Layout.compute defs r c.kind (defs.progress c).floor spec = .ok l) :
    defs.define r c spec = .ok (l, defs.set c (.computed l)) := by
  unfold define
  cases hp : defs.progress c with
  | computed l' => simp [layout?, hp, Progress.layout?] at hnone
  | declared =>
      rw [hp] at h
      simp only [Progress.beginDefine, ok_bind, h, noting_ok, Progress.commit]
      rfl
  | floored n =>
      rw [hp] at h
      have hle : ¬ (Progress.floored n).floor < n := Nat.lt_irrefl n
      simp only [Progress.beginDefine, ok_bind, h, noting_ok, Progress.commit, if_neg hle]
      rfl

theorem define_failsWith {cause : LayoutError} (hnone : defs.layout? c = none)
    (h : (Layout.compute defs r c.kind (defs.progress c).floor spec).FailsWith cause) :
    (defs.define r c spec).FailsWith cause := by
  unfold define
  have hbegin : (defs.progress c).beginDefine c = .ok (defs.progress c).floor := by
    cases hp : defs.progress c with
    | computed l' => simp [layout?, hp, Progress.layout?] at hnone
    | declared => rfl
    | floored n => rfl
  rw [hbegin, ok_bind]
  exact (h.noting _).bind _

/-- Every layout that `defs` has computed is there in `defs'`. -/
def Extends (defs' defs : Definitions) : Prop :=
  ∀ c l, defs.layout? c = some l → defs'.layout? c = some l

theorem Extends.isComplete (h : defs'.Extends defs) {d : Descriptor} (hd : d.IsComplete defs) :
    d.IsComplete defs' := by
  intro c hc
  obtain ⟨l, hl⟩ := hd c hc
  exact ⟨l, h c l hl⟩

private theorem Extends.progress_eq (h : defs'.Extends defs) {d : Descriptor}
    (hd : d.IsComplete defs) (hc : d.composite? = some c) : defs'.progress c = defs.progress c := by
  obtain ⟨l, hl⟩ := hd c hc
  rw [layout?_eq_some.1 hl, layout?_eq_some.1 (h c l hl)]

theorem Extends.sizeOf_eq (h : defs'.Extends defs) {d : Descriptor} (hd : d.IsComplete defs) :
    defs'.sizeOf d = defs.sizeOf d := by
  cases d with
  | prim p => rfl
  | composite c => exact congrArg Progress.size (h.progress_eq hd rfl)
  | byValue c => exact congrArg Progress.size (h.progress_eq hd rfl)
  | callback ps r c => rfl

theorem Extends.alignmentOf_eq (h : defs'.Extends defs) {d : Descriptor}
    (hd : d.IsComplete defs) : defs'.alignmentOf d = defs.alignmentOf d := by
  cases d with
  | prim p => rfl
  | composite c => exact congrArg Progress.alignment (h.progress_eq hd rfl)
  | byValue c => exact congrArg Progress.alignment (h.progress_eq hd rfl)
  | callback ps r c => rfl

theorem Extends.isPlaced (h : defs'.Extends defs) {kind : CompositeKind}
    (hl : l.IsPlaced defs kind) : l.IsPlaced defs' kind := by
  obtain ⟨floor, qs, heq, hfit, hnd, hsound⟩ := hl
  refine ⟨floor, qs, heq, hfit, hnd, ?_⟩
  intro q hq
  obtain ⟨hcomplete, hsize, halignment⟩ := hsound q hq
  refine ⟨h.isComplete hcomplete, ?_, ?_⟩
  · rw [h.sizeOf_eq hcomplete, hsize]
  · rw [h.alignmentOf_eq hcomplete, halignment]

private theorem Extends.set (hnone : defs.layout? c = none) (p : Progress) :
    (defs.set c p).Extends defs := by
  intro d l hl
  by_cases hd : d = c
  · subst d
    simp [hnone] at hl
  · simpa [layout?, hd] using hl

end Definitions

section

variable {defs defs' : Definitions} {r r' : Resolver} {p p' : Placement}

namespace Placement

private theorem extentOf_extends (h : defs'.Extends defs) {d : Descriptor}
    (hd : d.IsComplete defs) (name : String) : extentOf defs' d name = extentOf defs d name := by
  rw [extentOf_of_isComplete hd, extentOf_of_isComplete (h.isComplete hd), h.sizeOf_eq hd,
    h.alignmentOf_eq hd]

private theorem addSpec_extends (h : defs'.Extends defs) {f : FieldSpec}
    (hmeans : ∀ d, r.resolveInline f.type.ref = .ok d → d.IsComplete defs →
      r'.resolveInline f.type.ref = .ok d)
    (hadd : p.addSpec defs r f = .ok p') : p.addSpec defs' r' f = .ok p' := by
  obtain ⟨d, hunder, hplace⟩ := bind_eq_ok.1 hadd
  have hd : r.resolveInline f.type.ref = .ok d := under_eq_ok.1 hunder
  -- Either way a field is placed, the extent of its type comes first.
  have hcomplete : d.IsComplete defs := by
    split at hplace
    all_goals
      obtain ⟨x, hx, -⟩ := bind_eq_ok.1 hplace
      exact isComplete_of_extentOf hx
  refine bind_eq_ok.2 ⟨d, under_eq_ok.2 (hmeans d hd hcomplete), ?_⟩
  rw [← hplace]
  split <;> simp only [addField, addArray, extentOf_extends h hcomplete]

theorem addSpecs_extends (h : defs'.Extends defs) {fs : List FieldSpec}
    (hmeans : ∀ f ∈ fs, ∀ d, r.resolveInline f.type.ref = .ok d → d.IsComplete defs →
      r'.resolveInline f.type.ref = .ok d)
    (hadd : addSpecs defs r p fs = .ok p') : addSpecs defs' r' p fs = .ok p' := by
  induction fs generalizing p with
  | nil => exact hadd
  | cons f fs ih =>
      obtain ⟨hfirst, hrest⟩ := List.forall_mem_cons.1 hmeans
      rw [addSpecs] at hadd ⊢
      split at hadd
      · cases hadd
      · rename_i hnew
        obtain ⟨p₁, hadd₁, hadd⟩ := bind_eq_ok.1 hadd
        rw [if_neg hnew]
        exact bind_eq_ok.2 ⟨p₁, addSpec_extends h hfirst hadd₁, ih hrest hadd⟩

end Placement

/-- A layout stays what it is where more is defined and its types still mean the same. -/
theorem Layout.compute_extends (h : defs'.Extends defs) {kind : CompositeKind} {floor : Nat}
    {spec : LayoutSpec} {l : Layout}
    (hmeans : ∀ f ∈ spec.fields, ∀ d, r.resolveInline f.type.ref = .ok d → d.IsComplete defs →
      r'.resolveInline f.type.ref = .ok d)
    (hl : compute defs r kind floor spec = .ok l) : compute defs' r' kind floor spec = .ok l := by
  obtain ⟨placed, hadd, hbuild⟩ := bind_eq_ok.1 hl
  exact bind_eq_ok.2 ⟨placed, Placement.addSpecs_extends h hmeans hadd, hbuild⟩

end

namespace Definitions

variable {defs defs' : Definitions}

/-- One operation on the definitions; one that fails changes nothing. -/
inductive Step : Definitions → Definitions → Prop
  | declare (defs : Definitions) (kind : CompositeKind) (name : String) :
      Step defs (defs.declare kind name).2
  | setSize {defs defs' : Definitions} {c : Composite} {size : Nat} (known : c.id < defs.count)
      (done : defs.setSize c size = .ok defs') : Step defs defs'
  | define {defs defs' : Definitions} {r : Resolver} {c : Composite} {spec : LayoutSpec}
      {l : Layout} (known : c.id < defs.count) (done : defs.define r c spec = .ok (l, defs')) :
      Step defs defs'

/-- Operations one after the other. -/
abbrev Run : Definitions → Definitions → Prop :=
  Relation.ReflTransGen Step

/-- What operations lead to from the beginning. -/
def Reachable (defs : Definitions) : Prop :=
  Run empty defs

/-- Nothing is known of composites that are not declared yet, and layouts are placed. -/
structure Sound (defs : Definitions) : Prop where
  fresh : ∀ c, defs.count ≤ c.id → defs.progress c = .declared
  placed : ∀ c l, defs.layout? c = some l → l.IsPlaced defs c.kind

theorem Sound.alignmentOf_pos (h : defs.Sound) (d : Descriptor) : 0 < defs.alignmentOf d := by
  have hcomposite : ∀ c, 0 < (defs.progress c).alignment := by
    intro c
    cases hp : defs.progress c with
    | declared => exact Nat.one_pos
    | floored n => exact Nat.one_pos
    | computed l =>
        obtain ⟨floor, qs, rfl, -⟩ := h.placed c l (layout?_eq_some.2 hp)
        exact Unbounded.alignment_pos _
  cases d with
  | prim p => exact p.alignment_pos
  | composite c => exact hcomposite c
  | byValue c => exact hcomposite c
  | callback ps r c => exact Prim.pointer.alignment_pos

theorem Sound.compute_isPlaced (h : defs.Sound) {kind : CompositeKind} {floor : Nat}
    (hl : Layout.compute defs r kind floor spec = .ok l) : l.IsPlaced defs kind := by
  obtain ⟨hnd, qs, hq, heq, hfit⟩ := Layout.compute_eq_ok h.alignmentOf_pos hl
  refine ⟨floor, qs, heq, hfit, ?_, denotes_sound hq⟩
  rw [heq, Layout.members, Unbounded.layout, Unbounded.map_name_fields, denotes_names hq]
  exact hnd

theorem Step.extends (h : Step defs defs') : defs'.Extends defs := by
  cases h with
  | declare kind name => exact fun _ _ hl => hl
  | setSize known done =>
      obtain ⟨hp, rfl⟩ := setSize_eq_ok done
      exact .set (by simp [layout?, hp, Progress.layout?]) _
  | define known done =>
      obtain ⟨hnone, -, rfl⟩ := define_eq_ok done
      exact .set hnone _

theorem Step.count_le (h : defs.Step defs') :
    defs.count ≤ defs'.count := by
  cases h with
  | declare kind name => exact Nat.le_succ _
  | setSize known done =>
      obtain ⟨-, rfl⟩ := setSize_eq_ok done
      exact Nat.le_refl _
  | define known done =>
      obtain ⟨-, -, rfl⟩ := define_eq_ok done
      exact Nat.le_refl _

/-- A layout that is there after a step was there before it, or was computed then. -/
theorem Step.layout?_cases (h : Step defs defs') (hl : defs'.layout? c = some l) :
    defs.layout? c = some l ∨
      ∃ r floor spec, Layout.compute defs r c.kind floor spec = .ok l := by
  cases h with
  | declare kind name => exact .inl hl
  | @setSize _ d size known done =>
      obtain ⟨-, rfl⟩ := setSize_eq_ok done
      have hne : c ≠ d := by
        rintro rfl
        simp [layout?, Progress.layout?] at hl
      exact .inl (by simpa [layout?, hne] using hl)
  | @define _ r d spec computed known done =>
      obtain ⟨-, hcompute, rfl⟩ := define_eq_ok done
      by_cases heq : c = d
      · subst heq
        have hsame : computed = l := by simpa [layout?, Progress.layout?] using hl
        exact .inr ⟨r, _, spec, hsame ▸ hcompute⟩
      · exact .inl (by simpa [layout?, heq] using hl)

/-- A layout that is there after a step was placed over what was there before it. -/
theorem Step.isPlaced (h : Step defs defs') (hs : defs.Sound) (hl : defs'.layout? c = some l) :
    l.IsPlaced defs c.kind := by
  rcases h.layout?_cases hl with hl | ⟨r, floor, spec, hcompute⟩
  · exact hs.placed c l hl
  · exact hs.compute_isPlaced hcompute

theorem Step.sound (h : Step defs defs') (hs : defs.Sound) : defs'.Sound := by
  refine ⟨?_, fun c l hl => h.extends.isPlaced (h.isPlaced hs hl)⟩
  intro d hd
  cases h with
  | declare kind name => exact hs.fresh d (Nat.le_of_succ_le hd)
  | @setSize _ c size known done =>
      obtain ⟨-, rfl⟩ := setSize_eq_ok done
      have hne : d ≠ c := fun heq => absurd known (Nat.not_lt.2 (heq ▸ hd))
      simpa [hne] using hs.fresh d hd
  | @define _ r c spec l known done =>
      obtain ⟨-, -, rfl⟩ := define_eq_ok done
      have hne : d ≠ c := fun heq => absurd known (Nat.not_lt.2 (heq ▸ hd))
      simpa [hne] using hs.fresh d hd

theorem Run.extends (h : Run defs defs') : defs'.Extends defs := by
  induction h with
  | refl => exact fun _ _ hl => hl
  | tail _ hstep ih => exact fun c l hl => hstep.extends c l (ih c l hl)

theorem Run.count_le (h : defs.Run defs') :
    defs.count ≤ defs'.count := by
  induction h with
  | refl => exact Nat.le_refl _
  | tail _ hstep ih => exact ih.trans hstep.count_le

theorem Run.sound (h : Run defs defs') (hs : defs.Sound) : defs'.Sound := by
  induction h with
  | refl => exact hs
  | tail _ hstep ih => exact hstep.sound ih

private theorem sound_empty : empty.Sound :=
  ⟨fun _ _ => rfl, fun c l hl => by simp [layout?, empty, Progress.layout?] at hl⟩

theorem Reachable.sound (h : Reachable defs) : defs.Sound :=
  Run.sound h sound_empty

end Definitions

-- A struct of two numbers, and one with room for 40 bytes that is to hold two of them.
namespace Sample

def resolver : Resolver := ⟨[], .empty⟩

def point : Composite := ⟨0, .struct, "point"⟩

def packet : Composite := ⟨1, .struct, "packet"⟩

def pointSpec : LayoutSpec := .keyed
  [("x", .single (.resolved (.prim .int32))), ("y", .single (.resolved (.prim .int16)))]

def pointLayout : Layout :=
  ⟨.struct, [⟨"x", .scalar (.prim .int32), 0, 4, 4⟩, ⟨"y", .scalar (.prim .int16), 4, 2, 2⟩], 8, 4⟩

def declared : Definitions :=
  ((Definitions.empty.declare .struct "point").2.declare .struct "packet").2

def definitions : Definitions :=
  (declared.set point (.computed pointLayout)).set packet (.floored 40)

theorem definitions_reachable : definitions.Reachable := by
  have hdeclared : declared.Reachable :=
    .tail (.tail .refl (.declare _ .struct "point")) (.declare _ .struct "packet")
  have hpoint : declared.define resolver point pointSpec =
      .ok (pointLayout, declared.set point (.computed pointLayout)) := rfl
  have hpacket : (declared.set point (.computed pointLayout)).setSize packet 40 =
      .ok definitions := rfl
  exact .tail (.tail hdeclared (.define (by decide) hpoint)) (.setSize (by decide) hpacket)

end Sample

end ForeignBinding
