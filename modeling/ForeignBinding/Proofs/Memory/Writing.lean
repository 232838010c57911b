import ForeignBinding.Proofs.Memory.Reading

/-!
# Writes that fail

Whether a value can be stored depends on its type alone. A single value that cannot be stored leaves
the memory as it was. A list for an array is written up to its first element that cannot be stored.
-/

namespace ForeignBinding

open Attempt

namespace Descriptor

/-- The value can be stored as one of the type. -/
def accepts (d : Descriptor) (x : Value) : Bool :=
  match d.stored, x with
  | .inl p, x => (p.word? x).isSome
  | .inr c, .view v => v.composite = c
  | .inr _, _ => false

/-- Of values to be stored one after the other, those before the first that cannot be. -/
def storable (d : Descriptor) (xs : List Value) : List Value :=
  xs.takeWhile d.accepts

end Descriptor

namespace Memory

variable {m m' : Memory} {defs : Definitions} {d : Descriptor} {a : Address} {x : Value}

private theorem isOk_bytesOf (m : Memory) : (m.bytesOf d x).isOk = d.accepts x := by
  unfold bytesOf Descriptor.accepts
  cases d.stored with
  | inl p =>
      cases hw : p.word? x with
      | some w => simp only [hw, Option.isSome_some, Except.isOk, Except.toBool]
      | none =>
          simp only [hw, Option.isSome_none]
          cases p.isStored <;> rfl
  | inr c =>
      cases x with
      | view v =>
          by_cases hsame : v.composite = c
          · simp [hsame, Except.isOk, Except.toBool]
          · simp [hsame, Value.mismatch, fail, Except.isOk, Except.toBool]
      | _ => rfl

theorem writeValue_of_accepts (h : d.accepts x = true) (m : Memory) (a : Address) :
    ∃ m', m.writeValue d a x = .ok m' := by
  rw [← isOk_bytesOf m] at h
  unfold writeValue
  cases hbytes : m.bytesOf d x with
  | ok bytes => exact ⟨m.write a bytes, rfl⟩
  | error f =>
      rw [hbytes] at h
      cases h

private theorem writeValue_of_not_accepts (h : d.accepts x = false) (m : Memory) (a : Address) :
    ∃ f, m.writeValue d a x = .error f := by
  rw [← isOk_bytesOf m] at h
  unfold writeValue
  cases hbytes : m.bytesOf d x with
  | ok bytes =>
      rw [hbytes] at h
      cases h
  | error f => exact ⟨f, rfl⟩

/-- What is written of the elements are those before the first that cannot be stored. -/
theorem writeElements_storable (m : Memory) (stride i : Nat) (xs : List Value) :
    m.writeElements d stride a i (d.storable xs) =
      (.ok (), (m.writeElements d stride a i xs).2) := by
  induction xs generalizing m i with
  | nil => rfl
  | cons x xs ih =>
      cases hx : d.accepts x with
      | true =>
          obtain ⟨m', hm'⟩ := writeValue_of_accepts hx m (a.offset (i * stride))
          have hcons : d.storable (x :: xs) = x :: d.storable xs := List.takeWhile_cons_of_pos hx
          simp only [hcons, writeElements, hm']
          exact ih m' (i + 1)
      | false =>
          obtain ⟨f, hf⟩ := writeValue_of_not_accepts hx m (a.offset (i * stride))
          have hnil : d.storable (x :: xs) = [] :=
            List.takeWhile_cons_of_neg (by rw [hx]; decide)
          simp only [hnil, writeElements, hf]

/-- A field that cannot be written keeps its bytes, unless it is an array given a list that begins
with elements that can be stored: these are then written. -/
theorem writeField_of_error {k : FieldKind} {f : Failure MemoryError}
    (h : (m.writeField defs k a x).1 = .error f) :
    (m.writeField defs k a x).2 = m ∨
      ∃ d n xs, k = .array d n ∧ x = .array xs ∧ xs.length ≤ n ∧
        d.storable xs ≠ [] ∧ (d.storable xs).length < xs.length ∧
        m.writeField defs k a (.array (d.storable xs)) =
          (.ok (), (m.writeField defs k a x).2) := by
  have hcommit : ∀ w : Attempt MemoryError Memory, (m.commit w).1 = .error f →
      (m.commit w).2 = m := by
    rintro (g | m') hw
    · rfl
    · cases hw
  cases k with
  | scalar d => exact .inl (hcommit _ h)
  | composite c => exact .inl (hcommit _ h)
  | array d n =>
      cases x with
      | array xs =>
          by_cases hlen : xs.length ≤ n
          · simp only [writeField, if_pos hlen] at h ⊢
            have hstorable := writeElements_storable (d := d) (a := a) m (defs.sizeOf d) 0 xs
            by_cases hnil : d.storable xs = []
            · rw [hnil] at hstorable
              exact .inl (congrArg Prod.snd hstorable).symm
            · have hstart : d.storable xs <+: xs := List.takeWhile_prefix _
              have hlt : (d.storable xs).length < xs.length := by
                refine hstart.length_le.lt_of_ne fun heq => ?_
                rw [hstart.eq_of_length heq] at hstorable
                rw [hstorable] at h
                cases h
              refine .inr ⟨d, n, xs, rfl, rfl, hlen, hnil, hlt, ?_⟩
              rw [if_pos (hlt.le.trans hlen)]
              exact hstorable
          · exact .inl (by simp only [writeField, if_neg hlen])
      | _ => exact .inl rfl

end Memory

namespace Layout

private theorem set_of_error {l : Layout} {defs : Definitions} {m : Memory} {a : Address}
    {name : String} {x : Value} {e : Failure MemoryError}
    (h : (l.set defs m a name x).1 = .error e) : (l.set defs m a name x).2 = m ∨
      ∃ f d n xs, l.field name = .ok f ∧ f.kind = .array d n ∧ x = .array xs ∧
        xs.length ≤ n ∧ d.storable xs ≠ [] ∧ (d.storable xs).length < xs.length ∧
        l.set defs m a name (.array (d.storable xs)) =
          (.ok (), (l.set defs m a name x).2) := by
  cases hf : l.field name with
  | error g => exact .inl (by simp only [set, hf])
  | ok f =>
      rw [set_of_field hf] at h ⊢
      have hwrite : ∃ g, (m.writeField defs f.kind (a.offset f.offset) x).1 = .error g := by
        cases hr : (m.writeField defs f.kind (a.offset f.offset) x).1 with
        | error g => exact ⟨g, rfl⟩
        | ok y => simp [hr] at h
      obtain ⟨g, hg⟩ := hwrite
      rcases Memory.writeField_of_error hg with hsame | ⟨d, n, xs, hk, hx, hlen, hnil, hlt, hstored⟩
      · exact .inl hsame
      · refine .inr ⟨f, d, n, xs, rfl, hk, hx, hlen, hnil, hlt, ?_⟩
        rw [set_of_field hf, hstored]
        rfl

end Layout

/-- Where a field of a view cannot be written, the memory stays as it was, or the field is an array
and the value a list that is not too long: then those elements are written that come before the
first that cannot be stored, if there are any, as if the list had ended there. A variable that
cannot be written always stays as it was. -/
theorem Memory.set_failed {defs : Definitions} {m : Memory} {x : Value} :
    (∀ (v : View) name e, (v.set defs m name x).1 = .error e →
      (v.set defs m name x).2 = m ∨
        ∃ f d n xs, v.layout.field name = .ok f ∧ f.kind = .array d n ∧ x = .array xs ∧
          xs.length ≤ n ∧ d.storable xs ≠ [] ∧ (d.storable xs).length < xs.length ∧
          v.set defs m name (.array (d.storable xs)) = (.ok (), (v.set defs m name x).2)) ∧
    ∀ (b : VariableBinding) e, b.IsAttached defs → (b.set defs m x).1 = .error e →
      (b.set defs m x).2 = m := by
  refine ⟨fun v name e h => Layout.set_of_error h, fun b e hb h => ?_⟩
  unfold VariableBinding.set at h ⊢
  cases haccess : b.access with
  | view v => rfl
  | wrapped l =>
      simp only [haccess] at h ⊢
      rcases Layout.set_of_error h with hsame | ⟨f, d, n, xs, hf, hk, -⟩
      · exact hsame
      · -- The variable is not an array.
        obtain ⟨f', hf', hk'⟩ := hb.field_eq haccess
        cases hf.symm.trans hf'
        rw [hk] at hk'
        cases ht : b.type <;> rw [ht] at hk' <;> cases hk'

-- A header whose tag has four bytes is given a number and a fraction.
namespace Sample

def header : Composite := ⟨0, .struct, "header"⟩

def headerLayout : Layout := ⟨.struct, [⟨"tag", .array (.prim .uint8) 4, 0, 4, 1⟩], 4, 1⟩

def headers : Definitions :=
  (Definitions.empty.declare .struct "header").2.set header (.computed headerLayout)

theorem headers_reachable : headers.Reachable :=
  .tail (.single (.declare _ .struct "header")) (.define (by decide)
    (show (Definitions.empty.declare .struct "header").2.define resolver header
        (.ordered [⟨"tag", .array (.resolved (.prim .uint8)) 4, none⟩]) =
      .ok (headerLayout, headers) from rfl))

def headerView : View := ⟨header, headerLayout, ⟨0x200000000⟩⟩

theorem headerView_isMade : headerView.IsMade headers := ⟨headers, .refl, rfl⟩

def sevenAndOne : Value := .array [.int 7, .float 0x3ff0000000000000]

end Sample

/-- The number is written, and the fraction refused. A variable refuses it and keeps its value. -/
theorem Memory.set_failed_sevenAndOne :
    let write := fun x => Sample.headerView.set Sample.headers Memory.zeroed "tag" x
    Sample.headers.Reachable ∧ Sample.headerView.IsMade Sample.headers ∧
      (∃ e, (write Sample.sevenAndOne).1 = .error e) ∧
      (Descriptor.prim .uint8).storable [.int 7, .float 0x3ff0000000000000] = [.int 7] ∧
      write (.array [.int 7]) = (.ok (), (write Sample.sevenAndOne).2) ∧
      Sample.counter.IsAttached Sample.definitions ∧
      ∀ m, (Sample.counter.set Sample.definitions m (.float 0x3ff0000000000000)).2 = m := by
  intro write
  have hfails : ∃ e, (write Sample.sevenAndOne).1 = .error e := ⟨_, rfl⟩
  obtain ⟨e, he⟩ := hfails
  refine ⟨Sample.headers_reachable, Sample.headerView_isMade, ⟨e, he⟩, rfl, ?_,
    Sample.counter_isAttached,
    fun m => set_failed.2 Sample.counter _ Sample.counter_isAttached rfl⟩
  rcases set_failed.1 Sample.headerView "tag" e he with
    hsame | ⟨f, d, n, xs, hf, hk, hx, -, -, -, hstored⟩
  · exact absurd (congrFun hsame Sample.headerView.address) (by decide)
  · cases hf
    cases hk
    cases hx
    exact hstored

/-- A write that fails may change the memory. -/
theorem Memory.not_set_failed_unchanged :
    ¬ ∀ (defs : Definitions) (v : View) (m : Memory) (name : String) (x : Value) e,
      defs.Reachable → v.IsMade defs → (v.set defs m name x).1 = .error e →
        (v.set defs m name x).2 = m := by
  intro h
  have hsame := h Sample.headers Sample.headerView Memory.zeroed "tag" Sample.sevenAndOne _
    Sample.headers_reachable Sample.headerView_isMade rfl
  exact absurd (congrFun hsame Sample.headerView.address) (by decide)

end ForeignBinding
