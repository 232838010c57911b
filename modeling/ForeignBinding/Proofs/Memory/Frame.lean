import ForeignBinding.Memory.Access
import ForeignBinding.Proofs.Definitions

/-!
# What a write leaves alone

Whatever becomes of it, writing a field changes at most the bytes that the field takes, counted
from its address on. The views among the values must be ones that the definitions have given.
-/

namespace ForeignBinding

open Attempt

/-- A view is the value, or is in it. -/
inductive Value.Holds : Value → View → Prop
  | view (v : View) : Holds (.view v) v
  | array {xs : List Value} {x : Value} {v : View} (mem : x ∈ xs) (held : Holds x v) :
      Holds (.array xs) v

/-- The view was made at some point of the run that has led to the definitions. -/
def View.IsMade (v : View) (defs : Definitions) : Prop :=
  ∃ before, Definitions.Run before defs ∧ View.at? before v.composite v.address = .ok v

/-- Every view in the value was made. -/
def Value.IsMade (x : Value) (defs : Definitions) : Prop :=
  ∀ v, x.Holds v → v.IsMade defs

theorem at?_eq_ok {defs : Definitions} {c : Composite} {a : Address} {v : View} :
    View.at? defs c a = .ok v ↔ ∃ l, defs.layout? c = some l ∧ v = ⟨c, l, a⟩ := by
  unfold View.at?
  cases defs.layout? c <;> simp [fail, eq_comm]

theorem View.IsMade.layout?_eq {v : View} {defs : Definitions} (h : v.IsMade defs) :
    defs.layout? v.composite = some v.layout := by
  obtain ⟨before, hrun, hv⟩ := h
  obtain ⟨l, hl, heq⟩ := at?_eq_ok.1 hv
  rw [heq]
  exact hrun.extends _ l hl

theorem Value.IsMade.of_mem {xs : List Value} {x : Value} {defs : Definitions}
    (h : (Value.array xs).IsMade defs) (hx : x ∈ xs) : x.IsMade defs :=
  fun v hv => h v (.array hx hv)

namespace Layout

variable {l : Layout} {defs : Definitions} {name : String} {f : Field}

theorem field_eq_ok : l.field name = .ok f ↔ l.field? name = some f := by
  unfold field
  cases l.field? name <;> simp [fail]

theorem field_of_mem (hnd : l.members.Nodup) (hf : f ∈ l.fields) : l.field f.name = .ok f := by
  have hsome : (l.field? f.name).isSome := by
    rw [field?, List.find?_isSome]
    exact ⟨f, hf, beq_self_eq_true _⟩
  obtain ⟨g, hg⟩ := Option.isSome_iff_exists.1 hsome
  have hname : g.name = f.name := by simpa using List.find?_some hg
  have heq : g = f := List.inj_on_of_nodup_map hnd (List.mem_of_find?_eq_some hg) hf hname
  simp [field, hg, heq]

theorem mem_of_field (h : l.field name = .ok f) : f ∈ l.fields :=
  List.mem_of_find?_eq_some (field_eq_ok.1 h)

theorem get_of_field (h : l.field name = .ok f) (m : Memory) (a : Address) :
    l.get defs m a name = (m.readField defs f.kind (a.offset f.offset)).noting
      s!"While reading field `{name}`" := by
  rw [get, h]
  rfl

theorem set_of_field (h : l.field name = .ok f) (m : Memory) (a : Address) (x : Value) :
    l.set defs m a name x =
      ((m.writeField defs f.kind (a.offset f.offset) x).1.noting
        s!"While writing field `{name}`", (m.writeField defs f.kind (a.offset f.offset) x).2) := by
  simp only [set, h]

end Layout

namespace Address

@[simp]
theorem offset_zero (a : Address) : a.offset 0 = a := by
  simp [offset]

theorem offset_offset (a : Address) (i j : Nat) : (a.offset i).offset j = a.offset (i + j) := by
  simp only [offset, UInt64.ofNat_add, UInt64.add_assoc]

theorem toNat_offset {a : Address} {n : Nat} (h : a.val.toNat + n < addressCount) :
    (a.offset n).val.toNat = a.val.toNat + n := by
  have hn : n < 2 ^ 64 := Nat.lt_of_le_of_lt (Nat.le_add_left _ _) h
  simp only [offset]
  rw [UInt64.toNat_add, UInt64.toNat_ofNat_of_lt' hn]
  exact Nat.mod_eq_of_lt h

end Address

namespace Memory

theorem toNat_distance (a b : Address) :
    distance a b = (addressCount - a.val.toNat + b.val.toNat) % addressCount :=
  UInt64.toNat_sub b.val a.val

theorem distance_offset {a b : Address} {n : Nat} (h : n ≤ distance a b) :
    distance (a.offset n) b = distance a b - n := by
  have hn : n < 2 ^ 64 := Nat.lt_of_le_of_lt h (UInt64.toNat_lt _)
  have hval : (UInt64.ofNat n).toNat = n := UInt64.toNat_ofNat_of_lt' hn
  have hle : UInt64.ofNat n ≤ b.val - a.val := by rwa [UInt64.le_iff_toNat_le, hval]
  have hsub : b.val - (a.val + UInt64.ofNat n) = b.val - a.val - UInt64.ofNat n :=
    by grind
  simp only [distance, Address.offset]
  rw [hsub, UInt64.toNat_sub_of_le _ _ hle, hval]

/-- The memories differ at most in the `n` bytes from an address on. -/
def AgreeBeyond (a : Address) (n : Nat) (m m' : Memory) : Prop :=
  ∀ b, n ≤ distance a b → m' b = m b

variable {a : Address} {n : Nat} {m m' m'' : Memory}

theorem AgreeBeyond.refl (a : Address) (n : Nat) (m : Memory) : AgreeBeyond a n m m :=
  fun _ _ => rfl

theorem AgreeBeyond.trans (h : AgreeBeyond a n m m') (h' : AgreeBeyond a n m' m'') :
    AgreeBeyond a n m m'' :=
  fun b hb => (h' b hb).trans (h b hb)

theorem AgreeBeyond.mono {k : Nat} (h : AgreeBeyond a k m m') (hk : k ≤ n) :
    AgreeBeyond a n m m' :=
  fun b hb => h b (hk.trans hb)

theorem AgreeBeyond.of_offset {i k : Nat} (h : AgreeBeyond (a.offset i) k m m') (hk : i + k ≤ n) :
    AgreeBeyond a n m m' := by
  intro b hb
  have hi : i ≤ distance a b := by omega
  apply h b
  rw [distance_offset hi]
  omega

private theorem agreeBeyond_write (m : Memory) (a : Address) (bytes : List UInt8) :
    AgreeBeyond a bytes.length m (m.write a bytes) :=
  fun _ hb => write_of_le_distance hb

variable {defs : Definitions} {d : Descriptor} {x : Value}

theorem sizeOf_of_stored {p : Prim} (h : d.stored = .inl p) : defs.sizeOf d = p.size := by
  cases d <;> cases h <;> rfl

theorem composite?_of_stored {c : Composite} (h : d.stored = .inr c) :
    d.composite? = some c := by
  cases d <;> cases h <;> rfl

theorem sizeOf_of_layout? {c : Composite} {l : Layout} (hc : d.composite? = some c)
    (hl : defs.layout? c = some l) : defs.sizeOf d = l.size := by
  have hp : defs.progress c = .computed l := layout?_eq_some.1 hl
  cases d <;> cases hc <;> simp [Definitions.sizeOf, hp, Progress.size]

private theorem length_bytesOf {bytes : List UInt8} (hx : x.IsMade defs)
    (h : m.bytesOf d x = .ok bytes) : bytes.length = defs.sizeOf d := by
  cases hs : d.stored with
  | inl p =>
      simp only [bytesOf, hs] at h
      cases hw : p.word? x with
      | none =>
          simp only [hw, Value.mismatch, fail] at h
          split at h <;> cases h
      | some w =>
          simp only [hw] at h
          cases h
          rw [Bytes.length_encode, sizeOf_of_stored hs]
  | inr c =>
      simp only [bytesOf, hs] at h
      cases x with
      | view s =>
          simp only at h
          split at h
          · rename_i hsame
            cases h
            have hl := (hx s (.view s)).layout?_eq
            rw [hsame] at hl
            rw [length_read, sizeOf_of_layout? (composite?_of_stored hs) hl]
          · cases h
      | _ => cases h

theorem agreeBeyond_writeValue (a : Address) (hx : x.IsMade defs)
    (h : m.writeValue d a x = .ok m') : AgreeBeyond a (defs.sizeOf d) m m' := by
  unfold writeValue at h
  cases hbytes : m.bytesOf d x with
  | error f =>
      rw [hbytes] at h
      cases h
  | ok bytes =>
      rw [hbytes] at h
      cases h
      exact length_bytesOf hx hbytes ▸ agreeBeyond_write m a bytes

private theorem agreeBeyond_commit (a : Address) (hx : x.IsMade defs) :
    AgreeBeyond a (defs.sizeOf d) m (m.commit (m.writeValue d a x)).2 := by
  cases h : m.writeValue d a x with
  | error f => exact .refl a _ m
  | ok m' => exact agreeBeyond_writeValue a hx h

theorem agreeBeyond_writeElements (a : Address) (i : Nat) {xs : List Value}
    (hxs : ∀ x ∈ xs, x.IsMade defs) (m : Memory) :
    AgreeBeyond (a.offset (i * defs.sizeOf d)) (xs.length * defs.sizeOf d) m
      (m.writeElements d (defs.sizeOf d) a i xs).2 := by
  induction xs generalizing i m with
  | nil => exact .refl _ _ m
  | cons x xs ih =>
      unfold writeElements
      cases h : m.writeValue d (a.offset (i * defs.sizeOf d)) x with
      | error f => exact .refl _ _ m
      | ok m' =>
          -- The first element comes first in the range, the rest one stride further on.
          have hfirst := agreeBeyond_writeValue _ (hxs x List.mem_cons_self) h
          have hrest := ih (i + 1) (fun y hy => hxs y (List.mem_cons_of_mem x hy)) m'
          have hlen : (x :: xs).length * defs.sizeOf d =
              defs.sizeOf d + xs.length * defs.sizeOf d := by
            rw [List.length_cons, Nat.succ_mul, Nat.add_comm]
          rw [Nat.succ_mul, ← Address.offset_offset] at hrest
          rw [hlen]
          exact (hfirst.mono (Nat.le_add_right _ _)).trans (hrest.of_offset (le_refl _))

/-- Writing a field changes at most the bytes that it takes. -/
theorem agreeBeyond_writeField (k : FieldKind) (a : Address) (hx : x.IsMade defs) (m : Memory) :
    AgreeBeyond a (defs.sizeOf k.element * k.count) m (m.writeField defs k a x).2 := by
  cases k with
  | scalar d => exact (agreeBeyond_commit a hx).mono (Nat.mul_one _).ge
  | composite c => exact (agreeBeyond_commit (d := .composite c) a hx).mono (Nat.mul_one _).ge
  | array d count =>
      cases x with
      | array xs =>
          simp only [writeField]
          split
          · rename_i hlen
            have h := agreeBeyond_writeElements (d := d) a 0 (fun y hy => hx.of_mem hy) m
            rw [Nat.zero_mul, Address.offset_zero] at h
            refine h.mono ?_
            rw [Nat.mul_comm]
            exact Nat.mul_le_mul_left _ hlen
          · exact .refl a _ m
      | _ => exact .refl a _ m

end Memory

end ForeignBinding
