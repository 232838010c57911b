import ForeignBinding.Type.Composite
import ForeignBinding.Type.Convention
import ForeignBinding.Type.Prim

/-!
# Resolved types

A descriptor holds no more names: it is a primitive, a composite (embedded or passed by value) or
a callback with its signature. Equality of descriptors is decidable and tells composites apart by
their identity.
-/

namespace ForeignBinding

inductive Descriptor where
  | prim (p : Prim)
  /-- A composite embedded in place. -/
  | composite (c : Composite)
  /-- A composite passed and returned by value. -/
  | byValue (c : Composite)
  /-- The address of a function that native code may call. -/
  | callback (params : List Descriptor) (ret : Descriptor) (convention : Convention)
  deriving Repr, Inhabited

structure Signature where
  params : List Descriptor
  ret : Descriptor
  convention : Convention
  deriving Repr, Inhabited

namespace Descriptor

/-- The type of an address of which nothing more is known. -/
abbrev pointer : Descriptor := .prim .pointer

mutual

/-- Equality of descriptors, component by component. -/
def decEq : (a b : Descriptor) → Decidable (a = b)
  | prim p, prim q =>
      if h : p = q then isTrue (by rw [h]) else isFalse (by simp [h])
  | composite c, composite d =>
      if h : c = d then isTrue (by rw [h]) else isFalse (by simp [h])
  | byValue c, byValue d =>
      if h : c = d then isTrue (by rw [h]) else isFalse (by simp [h])
  | callback ps r c, callback qs s d =>
      match decEqList ps qs, decEq r s with
      | isTrue hp, isTrue hr =>
          if h : c = d then isTrue (by rw [hp, hr, h]) else isFalse (by simp [h])
      | isFalse hp, _ => isFalse (by simp [hp])
      | _, isFalse hr => isFalse (by simp [hr])
  | prim _, composite _ | prim _, byValue _ | prim _, callback .. => isFalse nofun
  | composite _, prim _ | composite _, byValue _ | composite _, callback .. => isFalse nofun
  | byValue _, prim _ | byValue _, composite _ | byValue _, callback .. => isFalse nofun
  | callback .., prim _ | callback .., composite _ | callback .., byValue _ => isFalse nofun

def decEqList : (as bs : List Descriptor) → Decidable (as = bs)
  | [], [] => isTrue rfl
  | a :: as, b :: bs =>
      match decEq a b, decEqList as bs with
      | isTrue h, isTrue hs => isTrue (by rw [h, hs])
      | isFalse h, _ => isFalse (by simp [h])
      | _, isFalse hs => isFalse (by simp [hs])
  | [], _ :: _ | _ :: _, [] => isFalse nofun

end

instance : DecidableEq Descriptor := decEq

def prim? : Descriptor → Option Prim
  | prim p => some p
  | _ => none

/-- The composite that a descriptor embeds. -/
def composite? : Descriptor → Option Composite
  | composite c | byValue c => some c
  | _ => none

mutual

/-- A descriptor as it is shown. A callback shows its signature, and its calling convention where
that is not the default. -/
def display : Descriptor → String
  | prim p => p.display
  | composite c => c.display
  | byValue c => c.display ++ " (by value)"
  | callback ps r c =>
      "callback(" ++ ", ".intercalate (displayAll ps) ++ "): " ++ display r ++ c.mark

/-- Each descriptor as it is shown. -/
def displayAll : List Descriptor → List String
  | [] => []
  | d :: ds => display d :: displayAll ds

end

theorem displayAll_eq_map (ds : List Descriptor) : displayAll ds = ds.map display := by
  induction ds with
  | nil => rfl
  | cons d ds ih => simp [displayAll, ih]

end Descriptor

namespace Signature

def toDescriptor (s : Signature) : Descriptor :=
  .callback s.params s.ret s.convention

/-- A function's signature as it is shown. -/
def display (s : Signature) : String :=
  "(" ++ ", ".intercalate (s.params.map Descriptor.display) ++ ") -> " ++ s.ret.display ++
    s.convention.mark

end Signature

end ForeignBinding
