import ForeignBinding.Proofs.Memory.ReadWrite

/-!
# Copying structs

The value of a struct is a view of memory, so writing it copies bytes from one place to another,
which may overlap. A single struct becomes what the view showed before. The elements of an array are
copied one after the other, each from what its view shows once those before it are written.
-/

namespace ForeignBinding

open Attempt

namespace Memory

variable {m m' : Memory} {defs : Definitions} {d : Descriptor} {c : Composite} {a : Address}
  {x : Value}

private theorem writeValue_of_stored (hd : d.stored = .inr c) :
    m.writeValue d a x = .ok m' ↔ ∃ s, x = .view s ∧ s.composite = c ∧
      m' = m.write a (m.read s.address s.layout.size) := by
  simp only [writeValue, bytesOf, hd]
  cases x with
  | view s =>
      by_cases hs : s.composite = c
      · simp [hs, Except.map, eq_comm]
      · simp [hs, Value.mismatch, fail, Except.map]
  | _ => simp [Value.mismatch, fail, Except.map]

private theorem size_of_isMade (hd : d.stored = .inr c) {s : View} (hs : s.composite = c)
    (hmade : (Value.view s).IsMade defs) : s.layout.size = defs.sizeOf d := by
  have hl := (hmade s (.view s)).layout?_eq
  rw [hs] at hl
  exact (sizeOf_of_layout? (composite?_of_stored hd) hl).symm

/-- The bytes are taken before any is written, so it does not matter how the ranges overlap. -/
theorem read_writeValue_of_stored (hd : d.stored = .inr c) {s : View}
    (hmade : (Value.view s).IsMade defs) (hsize : defs.sizeOf d ≤ addressCount)
    (h : m.writeValue d a (.view s) = .ok m') :
    m'.read a (defs.sizeOf d) = m.read s.address (defs.sizeOf d) := by
  obtain ⟨s', heq, hs, rfl⟩ := (writeValue_of_stored hd).1 h
  cases heq
  rw [size_of_isMade hd hs hmade]
  have hlen : (m.read s.address (defs.sizeOf d)).length = defs.sizeOf d := length_read _ _ _
  have hread := read_write (hlen.trans_le hsize) m a
  rwa [hlen] at hread

private theorem writeElements_append {stride i : Nat} {xs ys : List Value}
    (h : (m.writeElements d stride a i (xs ++ ys)).1 = .ok ()) :
    (m.writeElements d stride a i xs).1 = .ok () ∧
      m.writeElements d stride a i (xs ++ ys) =
        (m.writeElements d stride a i xs).2.writeElements d stride a (i + xs.length) ys := by
  induction xs generalizing m i with
  | nil => exact ⟨rfl, rfl⟩
  | cons x xs ih =>
      simp only [List.cons_append, writeElements] at h ⊢
      cases hx : m.writeValue d (a.offset (i * stride)) x with
      | error f => simp [hx] at h
      | ok m' =>
          simp only [hx] at h ⊢
          have hnext : i + (x :: xs).length = i + 1 + xs.length := by
            rw [List.length_cons]
            omega
          rw [hnext]
          exact ih h

/-- What is written before an element, the element itself, and what is written after it. -/
theorem writeElements_split {stride i : Nat} {xs : List Value}
    (h : (m.writeElements d stride a 0 xs).1 = .ok ()) (hx : xs[i]? = some x) :
    ∃ m₁, (m.writeElements d stride a 0 (xs.take i)).2.writeValue d (a.offset (i * stride)) x =
        .ok m₁ ∧
      (m.writeElements d stride a 0 xs).2 =
        (m₁.writeElements d stride a (i + 1) (xs.drop (i + 1))).2 := by
  obtain ⟨hi, hget⟩ := List.getElem?_eq_some_iff.1 hx
  have hxs : xs = xs.take i ++ x :: xs.drop (i + 1) := by
    rw [← hget, ← List.drop_eq_getElem_cons hi, List.take_append_drop]
  have hlen : 0 + (xs.take i).length = i := by
    rw [Nat.zero_add, List.length_take_of_le hi.le]
  have hsplit := writeElements_append (hxs ▸ h)
  rw [← hxs, hlen] at hsplit
  obtain ⟨-, hall⟩ := hsplit
  rw [hall, writeElements] at h ⊢
  cases hwrite : (m.writeElements d stride a 0 (xs.take i)).2.writeValue d
      (a.offset (i * stride)) x with
  | error f => simp [hwrite] at h
  | ok m₁ => exact ⟨m₁, rfl, rfl⟩

/-- Element `i` of the array at `a` after structs were written to it, `s` being the view that the
element was written from and `before` the memory when the elements before it were written. -/
structure ElementCopied (m m' before : Memory) (a : Address) (size count i : Nat) (s : View) :
    Prop where
  /-- It holds what the view showed by then. -/
  copied : m'.read (a.offset (i * size)) size = before.read s.address size
  /-- That is what the view showed at first, if it views none of the elements before. -/
  apart : (∀ k < size, i * size ≤ distance a (s.address.offset k)) →
    m'.read (a.offset (i * size)) size = m.read s.address size
  /-- A view of an element of the same array shows the new one, if that comes before. -/
  own : ∀ j < count, s.address = a.offset (j * size) →
    m'.read (a.offset (i * size)) size =
      if j < i then m'.read (a.offset (j * size)) size else m.read (a.offset (j * size)) size

private theorem elementCopied_of_writeElements (hd : d.stored = .inr c) {xs : List Value}
    {count i : Nat} (hmade : ∀ x ∈ xs, x.IsMade defs) (hcount : xs.length ≤ count)
    (hend : count * defs.sizeOf d ≤ addressCount)
    (h : (m.writeElements d (defs.sizeOf d) a 0 xs).1 = .ok ()) {s : View}
    (hs : xs[i]? = some (.view s)) :
    ElementCopied m (m.writeElements d (defs.sizeOf d) a 0 xs).2
      (m.writeElements d (defs.sizeOf d) a 0 (xs.take i)).2 a (defs.sizeOf d) count i s := by
  obtain ⟨m₁, hwrite, hrest⟩ := writeElements_split h hs
  obtain ⟨hi, -⟩ := List.getElem?_eq_some_iff.1 hs
  have hview : (Value.view s).IsMade defs := hmade _ (List.mem_of_getElem? hs)
  have hbefore : AgreeBeyond (a.offset (0 * defs.sizeOf d)) (i * defs.sizeOf d) m
      (m.writeElements d (defs.sizeOf d) a 0 (xs.take i)).2 := by
    have htake : ∀ x ∈ xs.take i, x.IsMade defs := fun x hx => hmade x (List.mem_of_mem_take hx)
    have hframe := agreeBeyond_writeElements (d := d) a 0 htake m
    rwa [List.length_take_of_le hi.le] at hframe
  have hafter : AgreeBeyond (a.offset ((i + 1) * defs.sizeOf d))
      ((xs.length - (i + 1)) * defs.sizeOf d) m₁
      (m.writeElements d (defs.sizeOf d) a 0 xs).2 := by
    have hdrop : ∀ x ∈ xs.drop (i + 1), x.IsMade defs :=
      fun x hx => hmade x (List.mem_of_mem_drop hx)
    have hframe := agreeBeyond_writeElements (d := d) a (i + 1) hdrop m₁
    rwa [List.length_drop, ← hrest] at hframe
  generalize (m.writeElements d (defs.sizeOf d) a 0 (xs.take i)).2 = before at *
  generalize (m.writeElements d (defs.sizeOf d) a 0 xs).2 = m' at *
  -- No element up to this one is reached by those after it.
  have hkept : ∀ j ≤ i, m'.read (a.offset (j * defs.sizeOf d)) (defs.sizeOf d) =
      m₁.read (a.offset (j * defs.sizeOf d)) (defs.sizeOf d) := by
    intro j hj
    exact hafter.read_element hend (by omega) (by omega) (.inl (by omega))
  have hcopied : m'.read (a.offset (i * defs.sizeOf d)) (defs.sizeOf d) =
      before.read s.address (defs.sizeOf d) := by
    have hsize : defs.sizeOf d ≤ addressCount :=
      (Nat.le_mul_of_pos_left _ (by omega)).trans hend
    rw [hkept i (Nat.le_refl i)]
    exact read_writeValue_of_stored hd hview hsize hwrite
  refine ⟨hcopied, ?_, ?_⟩
  · intro hapart
    rw [hcopied]
    apply List.map_congr_left
    intro k hk
    rw [Nat.zero_mul, Address.offset_zero] at hbefore
    exact hbefore _ (hapart k (List.mem_range.1 hk))
  · intro j hj hsource
    rw [hcopied, hsource]
    split
    · rename_i hji
      have hone : AgreeBeyond (a.offset (i * defs.sizeOf d)) (1 * defs.sizeOf d) before m₁ := by
        rw [Nat.one_mul]
        exact agreeBeyond_writeValue _ hview hwrite
      rw [hkept j hji.le]
      exact (hone.read_element hend (by omega) hj (.inl hji)).symm
    · exact hbefore.read_element hend (by omega) hj (.inr (by omega))

private theorem views_of_writeElements (hd : d.stored = .inr c) {stride i : Nat} {xs : List Value}
    (h : (m.writeElements d stride a i xs).1 = .ok ()) :
    ∃ sources : List View, xs = sources.map .view ∧ ∀ s ∈ sources, s.composite = c := by
  induction xs generalizing m i with
  | nil => exact ⟨[], rfl, List.forall_mem_nil _⟩
  | cons x xs ih =>
      rw [writeElements] at h
      cases hx : m.writeValue d (a.offset (i * stride)) x with
      | error f => simp [hx] at h
      | ok m' =>
          simp only [hx] at h
          obtain ⟨s, rfl, hs, -⟩ := (writeValue_of_stored hd).1 hx
          obtain ⟨sources, rfl, hsources⟩ := ih h
          exact ⟨s :: sources, rfl, List.forall_mem_cons.2 ⟨hs, hsources⟩⟩

private theorem writeField_composite_eq_ok {k : FieldKind} (hk : k = .composite c)
    (hx : x.IsMade defs) (hsize : k.size defs ≤ addressCount)
    (h : (m.writeField defs k a x).1 = .ok ()) :
    ∃ s, x = .view s ∧ s.composite = c ∧
      (m.writeField defs k a x).2.read a (k.size defs) = m.read s.address (k.size defs) := by
  subst hk
  simp only [writeField] at h ⊢
  cases hwrite : m.writeValue (.composite c) a x with
  | error f => simp [hwrite, commit] at h
  | ok m' =>
      obtain ⟨s, rfl, hs, -⟩ := (writeValue_of_stored rfl).1 hwrite
      rw [FieldKind.size_composite] at hsize ⊢
      exact ⟨s, rfl, hs, read_writeValue_of_stored rfl hx hsize hwrite⟩

private theorem writeField_array_eq_ok (hd : d.stored = .inr c) {count : Nat}
    (h : (m.writeField defs (.array d count) a x).1 = .ok ()) :
    ∃ sources : List View, x = .array (sources.map .view) ∧ sources.length ≤ count ∧
      ∀ s ∈ sources, s.composite = c := by
  cases x with
  | array xs =>
      simp only [writeField] at h
      split at h
      · rename_i hcount
        obtain ⟨sources, rfl, hsources⟩ := views_of_writeElements hd h
        exact ⟨sources, rfl, by rwa [List.length_map] at hcount, hsources⟩
      · cases h
  | _ => cases h

private theorem writeField_array {count : Nat} {xs : List Value} (hcount : xs.length ≤ count) :
    m.writeField defs (.array d count) a (.array xs) =
      m.writeElements d (defs.sizeOf d) a 0 xs := by
  simp only [writeField, if_pos hcount]

end Memory

/-- Writing views to an embedded struct makes it what the view showed before, however they overlap.
Writing them to an array of structs makes each element what its view shows once the elements before
it are written. So an element is what its view showed before the call if the view lies beyond the
elements before it; a view of an element of the same array shows the new element if that comes
before. Elements that are given no view keep their bytes. -/
theorem View.set_copies {defs : Definitions} (hdefs : defs.Reachable) {v : View}
    (hv : v.IsMade defs) {name : String} {f : Field} (hf : v.layout.field name = .ok f)
    {m : Memory} {x : Value} (hx : x.IsMade defs) (hset : (v.set defs m name x).1 = .ok ()) :
    let m' := (v.set defs m name x).2
    let a := v.address.offset f.offset
    (∀ c, f.kind = .composite c → ∃ s, x = .view s ∧ s.composite = c ∧
      m'.read a f.size = m.read s.address f.size) ∧
    ∀ d c count, f.kind = .array d count → d.stored = .inr c →
      ∃ sources : List View, x = .array (sources.map .view) ∧ sources.length ≤ count ∧
        (∀ s ∈ sources, s.composite = c) ∧
        (∀ i s, sources[i]? = some s →
          Memory.ElementCopied m m'
            (v.set defs m name (.array ((sources.take i).map .view))).2 a (defs.sizeOf d) count
            i s) ∧
        ∀ i, sources.length ≤ i → i < count →
          m'.read (a.offset (i * defs.sizeOf d)) (defs.sizeOf d) =
            m.read (a.offset (i * defs.sizeOf d)) (defs.sizeOf d) := by
  intro m' a
  have hl := hdefs.sound.placed _ _ hv.layout?_eq
  have hmem := Layout.mem_of_field hf
  have hsize : f.size = f.kind.size defs := hl.size_eq hmem
  have hend : f.kind.size defs ≤ addressCount := by
    have hstop := hl.stop_le_size hmem
    have hlt := hl.size_lt
    unfold Field.stop at hstop
    omega
  have hwritten : ∀ y, (v.set defs m name y).2 = (m.writeField defs f.kind a y).2 := by
    intro y
    rw [View.set, Layout.set_of_field hf]
  have hok : (m.writeField defs f.kind a x).1 = .ok () := by
    rw [View.set, Layout.set_of_field hf] at hset
    exact noting_eq_ok.1 hset
  refine ⟨?_, ?_⟩
  · intro c hc
    rw [show m' = _ from hwritten x, hsize]
    exact Memory.writeField_composite_eq_ok hc hx hend hok
  · intro d c count hk hd
    rw [hk] at hok hend hwritten
    obtain ⟨sources, rfl, hcount, hsources⟩ := Memory.writeField_array_eq_ok hd hok
    have hlen : (sources.map Value.view).length ≤ count := by rwa [List.length_map]
    have hmade : ∀ y ∈ sources.map Value.view, y.IsMade defs := fun y hy => hx.of_mem hy
    rw [Memory.writeField_array hlen] at hok
    rw [FieldKind.size_array, Nat.mul_comm] at hend
    have hm' : m' = (m.writeElements d (defs.sizeOf d) a 0 (sources.map .view)).2 := by
      rw [← Memory.writeField_array hlen]
      exact hwritten _
    rw [hm']
    refine ⟨sources, rfl, hcount, hsources, ?_, ?_⟩
    · intro i s hs
      have hi : (sources.map Value.view)[i]? = some (.view s) := by
        rw [List.getElem?_map, hs, Option.map_some]
      have htake : ((sources.take i).map Value.view).length ≤ count := by
        rw [List.length_map, List.length_take]
        omega
      rw [hwritten, Memory.writeField_array htake, List.map_take]
      exact Memory.elementCopied_of_writeElements hd hmade hlen hend hok hi
    · intro i hi hicount
      have hframe := Memory.agreeBeyond_writeElements (d := d) a 0 hmade m
      exact hframe.read_element hend (by omega) hicount (.inr (by simpa using hi))

-- The views of two cells are written back in the other order. The first cell is written from the
-- second, and then the second from what the first holds by then.
namespace Sample

def cellStruct : Composite := ⟨0, .struct, "cell"⟩

def cellLayout : Layout := ⟨.struct, [⟨"value", .scalar (.prim .uint8), 0, 1, 1⟩], 1, 1⟩

def pair : Composite := ⟨1, .struct, "pair"⟩

def pairLayout : Layout := ⟨.struct, [⟨"cells", .array (.composite cellStruct) 2, 0, 2, 1⟩], 2, 1⟩

def undefined : Definitions :=
  ((Definitions.empty.declare .struct "cell").2.declare .struct "pair").2

def pairs : Definitions :=
  (undefined.set cellStruct (.computed cellLayout)).set pair (.computed pairLayout)

private theorem pairs_reachable : pairs.Reachable := by
  have hundefined : undefined.Reachable :=
    .tail (.tail .refl (.declare _ .struct "cell")) (.declare _ .struct "pair")
  have hcell : undefined.define resolver cellStruct
      (.keyed [("value", .single (.resolved (.prim .uint8)))]) =
        .ok (cellLayout, undefined.set cellStruct (.computed cellLayout)) := rfl
  have hpair : (undefined.set cellStruct (.computed cellLayout)).define resolver pair
      (.keyed [("cells", .array (.composite cellStruct) 2)]) = .ok (pairLayout, pairs) := rfl
  exact .tail (.tail hundefined (.define (by decide) hcell)) (.define (by decide) hpair)

def pairView : View := ⟨pair, pairLayout, ⟨0x200000000⟩⟩

private theorem pairView_isMade : pairView.IsMade pairs := ⟨pairs, .refl, rfl⟩

def cellView (i : Nat) : View := ⟨cellStruct, cellLayout, pairView.address.offset i⟩

def swapped : Value := .array ([cellView 1, cellView 0].map .view)

private theorem swapped_isMade : swapped.IsMade pairs := by
  intro v hv
  rcases hv with _ | ⟨hx, hheld⟩
  obtain ⟨s, hs, rfl⟩ := List.mem_map.1 hx
  cases hheld
  refine ⟨pairs, .refl, ?_⟩
  rcases List.mem_cons.1 hs with rfl | hs
  · rfl
  · rw [List.mem_singleton.1 hs]
    rfl

def oneAndTwo : Memory := Memory.zeroed.write pairView.address [1, 2]

end Sample

theorem View.set_copies_swapped :
    let m' := (Sample.pairView.set Sample.pairs Sample.oneAndTwo "cells" Sample.swapped).2
    Sample.pairs.Reachable ∧ Sample.pairView.IsMade Sample.pairs ∧
      Sample.swapped.IsMade Sample.pairs ∧
      Sample.oneAndTwo.read Sample.pairView.address 2 = [1, 2] ∧
      m'.read (Sample.cellView 0).address 1 =
        Sample.oneAndTwo.read (Sample.cellView 1).address 1 ∧
      m'.read (Sample.cellView 1).address 1 = m'.read (Sample.cellView 0).address 1 := by
  intro m'
  have hfield : Sample.pairView.layout.field "cells" =
      .ok ⟨"cells", .array (.composite Sample.cellStruct) 2, 0, 2, 1⟩ := rfl
  obtain ⟨-, harray⟩ := set_copies Sample.pairs_reachable Sample.pairView_isMade hfield
    (m := Sample.oneAndTwo) Sample.swapped_isMade rfl
  obtain ⟨sources, hsources, -, -, hcopied, -⟩ := harray _ _ _ rfl rfl
  obtain rfl : sources = [Sample.cellView 1, Sample.cellView 0] :=
    (List.map_injective_iff.2 (fun _ _ => Value.view.inj) (Value.array.inj hsources)).symm
  have hfirst := (hcopied 0 (Sample.cellView 1) rfl).apart (fun _ _ => by simp)
  have hsecond := (hcopied 1 (Sample.cellView 0) rfl).own 0 (by decide) rfl
  exact ⟨Sample.pairs_reachable, Sample.pairView_isMade, Sample.swapped_isMade, by decide, hfirst,
    hsecond⟩

/-- Views of an array's elements that are written back in another order need not permute them. -/
theorem View.not_set_copies :
    ¬ ∀ (defs : Definitions) (v : View) (m : Memory) (name : String) (f : Field) (c : Composite)
      (count : Nat) (sources : List View),
      defs.Reachable → v.IsMade defs → v.layout.field name = .ok f →
        f.kind = .array (.composite c) count → (Value.array (sources.map .view)).IsMade defs →
          (v.set defs m name (.array (sources.map .view))).1 = .ok () →
            ∀ i s, sources[i]? = some s →
              (v.set defs m name (.array (sources.map .view))).2.read
                  ((v.address.offset f.offset).offset (i * defs.sizeOf (.composite c)))
                  (defs.sizeOf (.composite c)) =
                m.read s.address (defs.sizeOf (.composite c)) := by
  intro h
  have hsame := h Sample.pairs Sample.pairView Sample.oneAndTwo "cells" _ _ _
    [Sample.cellView 1, Sample.cellView 0] Sample.pairs_reachable Sample.pairView_isMade rfl rfl
    Sample.swapped_isMade rfl 1 (Sample.cellView 0) rfl
  exact absurd hsame (by decide)

end ForeignBinding
