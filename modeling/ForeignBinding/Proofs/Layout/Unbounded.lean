import ForeignBinding.Layout.Define
import Mathlib.Algebra.Order.Floor.Div
import Mathlib.Order.Bounds.Basic

/-!
# Placement over unbounded numbers

The layout that declared fields would have if no number were too large. A field takes the size of
its type, an array that of its element times its count. In a struct a field without an offset goes
to the least multiple of its alignment that is not below the end of the field before it.
-/

namespace ForeignBinding

/-- The least multiple of `alignment` that is not below `n`. -/
def leastMultiple (alignment n : Nat) : Nat :=
  alignment * (n ⌈/⌉ alignment)

theorem isLeast_leastMultiple {alignment : Nat} (h : 0 < alignment) (n : Nat) :
    IsLeast {m | alignment ∣ m ∧ n ≤ m} (leastMultiple alignment n) := by
  refine ⟨⟨Nat.dvd_mul_right _ _, le_smul_ceilDiv h⟩, ?_⟩
  rintro m ⟨⟨k, rfl⟩, hn⟩
  exact Nat.mul_le_mul_left _ ((ceilDiv_le_iff_le_mul h).2 hn)

theorem le_leastMultiple {alignment : Nat} (h : 0 < alignment) (n : Nat) :
    n ≤ leastMultiple alignment n :=
  (isLeast_leastMultiple h n).1.2

theorem roundUp_eq_leastMultiple {alignment : Nat} (h : 0 < alignment) (n : Nat) :
    roundUp n alignment = leastMultiple alignment n := by
  rw [roundUp, leastMultiple, Nat.ceilDiv_eq_add_pred_div, Nat.mul_comm, Nat.add_sub_assoc h]

/-- A field to be placed, whose type is known. -/
structure Request where
  name : String
  kind : FieldKind
  size : Nat
  alignment : Nat
  /-- The offset that the declaration gives. -/
  given : Option Nat

namespace Request

/-- Where the field goes if the field before it ends at `cursor`. -/
def offset (q : Request) (kind : CompositeKind) (cursor : Nat) : Nat :=
  match kind, q.given with
  | .union, _ => 0
  | .struct, some offset => offset
  | .struct, none => leastMultiple q.alignment cursor

/-- The field at its place. -/
def field (q : Request) (kind : CompositeKind) (cursor : Nat) : Field :=
  ⟨q.name, q.kind, q.offset kind cursor, q.size, q.alignment⟩

end Request

/-- A composite that a value of the type takes has its layout. -/
def Descriptor.IsComplete (d : Descriptor) (defs : Definitions) : Prop :=
  ∀ c, d.composite? = some c → ∃ l, defs.layout? c = some l

namespace FieldSpec

/-- The field that is declared, with a type that means `d`. -/
def request (f : FieldSpec) (defs : Definitions) (d : Descriptor) : Request :=
  match f.type with
  | .single _ =>
      ⟨f.name, Placement.fieldKind d, defs.sizeOf d, defs.alignmentOf d, f.offset⟩
  | .array _ count =>
      ⟨f.name, .array d count, defs.sizeOf d * count, defs.alignmentOf d, f.offset⟩

/-- The type of the field resolves and embeds no composite without a layout, and `q` is the field
that it declares. -/
def Denotes (f : FieldSpec) (defs : Definitions) (r : Resolver) (q : Request) : Prop :=
  ∃ d, r.resolveInline f.type.ref = .ok d ∧ d.IsComplete defs ∧ f.request defs d = q

end FieldSpec

/-- The size, the offset and the end of a field are smaller than the number of addresses. -/
def Field.Fits (f : Field) : Prop :=
  f.size < addressCount ∧ f.offset < addressCount ∧ f.stop < addressCount

instance : DecidablePred Field.Fits := fun _ => inferInstanceAs (Decidable (_ ∧ _))

theorem Field.fits_iff {f : Field} : f.Fits ↔ f.stop < addressCount := by
  unfold Fits stop
  omega

/-- All fields fit, and the whole does. -/
def Layout.Fits (l : Layout) : Prop :=
  (∀ f ∈ l.fields, f.Fits) ∧ l.size < addressCount

instance : DecidablePred Layout.Fits := fun _ => inferInstanceAs (Decidable (_ ∧ _))

namespace Unbounded

/-- The fields in their places, where the field before them ends at `cursor`. -/
def fields (kind : CompositeKind) (cursor : Nat) : List Request → List Field
  | [] => []
  | q :: qs => q.field kind cursor :: fields kind (q.field kind cursor).stop qs

theorem map_name_fields (kind : CompositeKind) (cursor : Nat) (qs : List Request) :
    (fields kind cursor qs).map (·.name) = qs.map (·.name) := by
  induction qs generalizing cursor with
  | nil => rfl
  | cons q qs ih => simp only [fields, List.map_cons, ih, Request.field]

theorem mem_fields {kind : CompositeKind} {cursor : Nat} {qs : List Request} {f : Field}
    (hf : f ∈ fields kind cursor qs) : ∃ q ∈ qs, ∃ before, f = q.field kind before := by
  induction qs generalizing cursor with
  | nil => simp [fields] at hf
  | cons q qs ih =>
      rcases List.mem_cons.1 hf with rfl | hf
      · exact ⟨q, List.mem_cons_self, cursor, rfl⟩
      · obtain ⟨q', hq', hbefore⟩ := ih hf
        exact ⟨q', List.mem_cons_of_mem q hq', hbefore⟩

theorem exists_mem_fields {q : Request} {qs : List Request} (hq : q ∈ qs) (kind : CompositeKind)
    (cursor : Nat) : ∃ before, q.field kind before ∈ fields kind cursor qs := by
  induction qs generalizing cursor with
  | nil => cases hq
  | cons q' qs ih =>
      rcases List.mem_cons.1 hq with rfl | hq
      · exact ⟨cursor, List.mem_cons_self⟩
      · obtain ⟨before, hmem⟩ := ih hq (q'.field kind cursor).stop
        exact ⟨before, List.mem_cons_of_mem _ hmem⟩

/-- The largest alignment of a field, at least 1. -/
def alignment (fs : List Field) : Nat :=
  (fs.map (·.alignment)).foldl max 1

/-- The largest end of a field. -/
def extent (fs : List Field) : Nat :=
  (fs.map Field.stop).foldl max 0

/-- The layout of the requested fields. Its size is the least multiple of its alignment that is
neither below the least size given nor below the end of a field. -/
def layout (kind : CompositeKind) (floor : Nat) (qs : List Request) : Layout :=
  let placed := fields kind 0 qs
  { kind
    fields := placed
    size := leastMultiple (alignment placed) (max floor (extent placed))
    alignment := alignment placed }

private theorem le_foldl_max (ns : List Nat) (n : Nat) :
    n ≤ ns.foldl max n ∧ ∀ m ∈ ns, m ≤ ns.foldl max n := by
  induction ns generalizing n with
  | nil => simp
  | cons m ns ih =>
      have hrest := ih (max n m)
      refine ⟨(Nat.le_max_left n m).trans hrest.1, ?_⟩
      intro k hk
      rcases List.mem_cons.1 hk with rfl | hk
      · exact (Nat.le_max_right n k).trans hrest.1
      · exact hrest.2 k hk

theorem alignment_pos (fs : List Field) : 0 < alignment fs :=
  (le_foldl_max _ 1).1

private theorem stop_le_extent {fs : List Field} {f : Field} (hf : f ∈ fs) : f.stop ≤ extent fs :=
  (le_foldl_max _ 0).2 _ (List.mem_map_of_mem hf)

theorem stop_le_size (kind : CompositeKind) (floor : Nat) (qs : List Request) {f : Field}
    (hf : f ∈ (layout kind floor qs).fields) : f.stop ≤ (layout kind floor qs).size :=
  calc
    f.stop ≤ extent (fields kind 0 qs) := stop_le_extent hf
    _ ≤ max floor (extent (fields kind 0 qs)) := Nat.le_max_right _ _
    _ ≤ (layout kind floor qs).size := le_leastMultiple (alignment_pos _) _

/-- The first field of a layout that does not fit; if all do, the last one. -/
def culprit (l : Layout) : String :=
  (((l.fields.find? fun f => !decide f.Fits).or l.fields.getLast?).map (·.name)).getD ""

end Unbounded

end ForeignBinding
