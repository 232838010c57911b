import ForeignBinding.Proofs.Definitions
import ForeignBinding.Declaration.Apply

/-!
# Building up specifications

Fields that are added to a specification come behind those that are there, in order and as they are
given, whichever of its two forms it has; only a field with an offset changes the form. What is
defined depends on the fields alone.
-/

namespace ForeignBinding

namespace LayoutSpec

/-- One field more. -/
inductive Addition where
  | field (name : String) (type : FieldType)
  | fieldAt (name : String) (type : FieldType) (offset : Nat)
  | array (name : String) (element : TypeRef) (count : Nat)

/-- The field that is added. -/
def Addition.spec : Addition → FieldSpec
  | field name type => ⟨name, type, none⟩
  | fieldAt name type offset => ⟨name, type, some offset⟩
  | array name element count => ⟨name, .array element count, none⟩

def add (s : LayoutSpec) : Addition → LayoutSpec
  | .field name type => s.field name type
  | .fieldAt name type offset => s.fieldAt name type offset
  | .array name element count => s.array name element count

/-- The specification after one field after the other was added. -/
def addAll (s : LayoutSpec) (adds : List Addition) : LayoutSpec :=
  adds.foldl add s

def isKeyed : LayoutSpec → Bool
  | ordered _ => false
  | keyed _ => true

private theorem add_eq_push (s : LayoutSpec) (a : Addition) :
    s.add a = s.push a.spec.name a.spec.type a.spec.offset := by
  cases a <;> rfl

private theorem isKeyed_push (s : LayoutSpec) (name : String) (type : FieldType)
    (offset : Option Nat) : (s.push name type offset).isKeyed = (s.isKeyed && offset.isNone) := by
  cases s <;> cases offset <;> rfl

variable (s : LayoutSpec) (adds : List Addition)

private theorem fields_addAll : (s.addAll adds).fields = s.fields ++ adds.map Addition.spec := by
  induction adds generalizing s with
  | nil => simp [addAll]
  | cons a adds ih =>
      change ((s.add a).addAll adds).fields = _
      rw [ih, add_eq_push, fields_push, List.map_cons, List.append_assoc, List.singleton_append]

private theorem isKeyed_addAll_iff :
    (s.addAll adds).isKeyed ↔ s.isKeyed ∧ ∀ a ∈ adds, a.spec.offset = none := by
  induction adds generalizing s with
  | nil => simp [addAll]
  | cons a adds ih =>
      change ((s.add a).addAll adds).isKeyed ↔ _
      rw [ih, add_eq_push, isKeyed_push, Bool.and_eq_true, Option.isNone_iff_eq_none,
        List.forall_mem_cons, and_assoc]

end LayoutSpec

variable {spec other : LayoutSpec}

private theorem Layout.compute_congr (h : other.fields = spec.fields) (defs : Definitions)
    (r : Resolver) (kind : CompositeKind) (floor : Nat) :
    compute defs r kind floor other = compute defs r kind floor spec := by
  rw [compute, compute, h]

private theorem Definitions.define_congr (h : other.fields = spec.fields) (defs : Definitions)
    (r : Resolver) (c : Composite) : defs.define r c other = defs.define r c spec := by
  simp only [define, Layout.compute_congr h]

private theorem Workspace.declare_composite_congr (h : other.fields = spec.fields) (w : Workspace)
    (kind : CompositeKind) (name : String) :
    w.declare (.composite kind name (some other)) =
      w.declare (.composite kind name (some spec)) := by
  have hdefine : Workspace.define (some other) = Workspace.define (some spec) := by
    funext w c
    simp only [Workspace.define, Definitions.define_congr h]
  change conclude _ (w.withComposite kind name _) = conclude _ (w.withComposite kind name _)
  rw [hdefine]
  rfl

namespace LayoutSpec

/-- A specification has the fields that it had at first and those that were added, in order, and its
size is their number. It is keyed if and only if it was so at first and no field with an offset was
added. To give it to a definition or a declaration is to give any other specification of the same
fields, keyed or ordered: the outcome is the same, layout or failure. -/
theorem addAll_exchangeable (start : LayoutSpec) (adds : List Addition) :
    let spec := start.addAll adds
    spec.fields = start.fields ++ adds.map Addition.spec ∧
      spec.size = start.size + adds.length ∧ spec.size = spec.fields.length ∧
      (spec.isKeyed ↔ start.isKeyed ∧ ∀ a ∈ adds, a.spec.offset = none) ∧
      ∀ other : LayoutSpec, other.fields = spec.fields →
        (∀ (defs : Definitions) r c, defs.define r c other = defs.define r c spec) ∧
          ∀ (w : Workspace) kind name, w.declare (.composite kind name (some other)) =
            w.declare (.composite kind name (some spec)) := by
  intro spec
  have hfields : spec.fields = start.fields ++ adds.map Addition.spec := start.fields_addAll adds
  refine ⟨hfields, ?_, spec.length_fields.symm, start.isKeyed_addAll_iff adds,
    fun other h => ⟨fun defs r c => ?_, fun w kind name => ?_⟩⟩
  · rw [← length_fields, hfields, List.length_append, List.length_map, length_fields]
  · exact defs.define_congr h r c
  · exact w.declare_composite_congr h kind name

end LayoutSpec

-- The second number is added to the first, or an array in its place and an address that overlaps
-- it.
namespace Sample

def number (p : Prim) : FieldType := .single (.resolved (.prim p))

def numbers : LayoutSpec := (LayoutSpec.keyed [("x", number .int32)]).addAll
  [.field "y" (number .int16)]

def listed : LayoutSpec := .ordered [⟨"x", number .int32, none⟩, ⟨"y", number .int16, none⟩]

def pinned : LayoutSpec := (LayoutSpec.keyed [("x", number .int32)]).addAll
  [.array "y" (.resolved (.prim .int16)) 3, .fieldAt "next" (number .pointer) 6]

private theorem define_listed :
    declared.define resolver point listed =
      .ok (pointLayout, declared.set point (.computed pointLayout)) := rfl

end Sample

namespace LayoutSpec

/-- Keyed by their names, the two numbers are placed as they are where they are listed. -/
theorem addAll_exchangeable_numbers :
    Sample.numbers.isKeyed ∧ Sample.listed.fields = Sample.numbers.fields ∧
      Sample.declared.define Sample.resolver Sample.point Sample.numbers =
        .ok (Sample.pointLayout, Sample.declared.set Sample.point (.computed Sample.pointLayout)) ∧
      ¬ Sample.pinned.isKeyed ∧ Sample.pinned.size = 3 ∧
      Sample.pinned.fields = [⟨"x", Sample.number .int32, none⟩,
        ⟨"y", .array (.resolved (.prim .int16)) 3, none⟩,
        ⟨"next", Sample.number .pointer, some 6⟩] := by
  have hkeyed := addAll_exchangeable (.keyed [("x", Sample.number .int32)])
    [.field "y" (Sample.number .int16)]
  have hpinned := addAll_exchangeable (.keyed [("x", Sample.number .int32)])
    [.array "y" (.resolved (.prim .int16)) 3, .fieldAt "next" (Sample.number .pointer) 6]
  obtain ⟨-, -, -, hform, hsame⟩ := hkeyed
  obtain ⟨hfields, hsize, -, hswitched, -⟩ := hpinned
  have hlisted : Sample.listed.fields = Sample.numbers.fields := rfl
  refine ⟨hform.2 ⟨rfl, by simp [Addition.spec]⟩, hlisted, ?_, ?_, hsize, hfields⟩
  · exact ((hsame _ hlisted).1 _ _ _).symm.trans Sample.define_listed
  · intro h
    have hnext := (hswitched.1 h).2 (.fieldAt "next" (Sample.number .pointer) 6) (by simp)
    cases hnext

end LayoutSpec

end ForeignBinding
