import ForeignBinding.Proofs.Memory.Path
import ForeignBinding.Proofs.Memory.Words
import ForeignBinding.Proofs.Memory.Writing

/-!
# Reading and writing words

A word that was written is read as what it was converted to, and writing what was read changes
nothing. Both hold of single words and of arrays of them.
-/

namespace ForeignBinding

open Attempt

/-- The type is in memory a word of this kind. -/
def Descriptor.IsWord (d : Descriptor) (p : Prim) : Prop :=
  d.stored = .inl p ∧ p.IsWord

/-- Given `x`, a field of words that held `old` comes to hold `y`. An array keeps the elements after
those that it is given. -/
inductive FieldKind.Becomes (p : Prim) : FieldKind → (x old y : Value) → Prop
  | scalar {d : Descriptor} {x old y : Value} (converts : p.Converts x y) :
      Becomes p (.scalar d) x old y
  | array {d : Descriptor} {n : Nat} {xs olds ys : List Value}
      (converts : List.Forall₂ p.Converts xs ys) (length : olds.length = n)
      (fits : xs.length ≤ n) :
      Becomes p (.array d n) (.array xs) (.array olds) (.array (ys ++ olds.drop xs.length))

/-- The laws of reading and writing a field of words. -/
structure FieldKind.Lawful (k : FieldKind) (p : Prim) (get : Memory → Attempt MemoryError Value)
    (set : Memory → Value → Attempt MemoryError Unit × Memory) : Prop where
  exists_get : ∀ m, ∃ x, get m = .ok x
  get_of_set : ∀ m x, (set m x).1 = .ok () →
    ∃ old y, get m = .ok old ∧ get (set m x).2 = .ok y ∧ k.Becomes p x old y
  set_of_get : ∀ m x, get m = .ok x → set m x = (.ok (), m)

private theorem Prim.isMade_of_converts {p : Prim} {xs ys : List Value}
    (h : List.Forall₂ p.Converts xs ys) (defs : Definitions) : ∀ x ∈ xs, x.IsMade defs := by
  have hmade : ∀ x y, p.Converts x y → x.IsMade defs := by
    rintro x y hconverts v hv
    cases hconverts with
    | integer _ given _ => cases hv <;> cases given
    | address a _ => cases hv
  exact ((List.forall₂_and_left xs ys).1 (h.imp fun x y hxy => ⟨hmade x y hxy, hxy⟩)).1

namespace Memory

theorem distance_offset_offset {i j : Nat} (hi : i < addressCount) (a : Address) :
    distance (a.offset i) (a.offset j) = (addressCount - i + j) % addressCount := by
  have hsub : (a.offset j).val - (a.offset i).val = UInt64.ofNat j - UInt64.ofNat i := by
    simp only [Address.offset]
    grind
  rw [distance, hsub, UInt64.toNat_sub, UInt64.toNat_ofNat_of_lt' hi, UInt64.toNat_ofNat']
  exact Nat.add_mod_mod _ _ _

private theorem distance_offset_self {i : Nat} (hi : i < addressCount) (a : Address) :
    distance a (a.offset i) = i := by
  have h := distance_offset_offset (i := 0) (j := i) (by decide) a
  rwa [Address.offset_zero, Nat.sub_zero, Nat.add_mod_left, Nat.mod_eq_of_lt hi] at h

theorem offset_distance (a b : Address) : a.offset (distance a b) = b := by
  simp only [Address.offset, distance, UInt64.ofNat_toNat]
  rw [UInt64.add_comm, UInt64.sub_add_cancel]

theorem read_write_append {bytes : List UInt8} {n : Nat} (hlen : bytes.length ≤ n)
    (hn : n ≤ addressCount) (m : Memory) (a : Address) :
    (m.write a bytes).read a n = bytes ++ (m.read a n).drop bytes.length := by
  apply List.ext_getElem
  · simp only [length_read, List.length_append, List.length_drop]
    omega
  · intro i hi _
    rw [length_read] at hi
    have hdistance := distance_offset_self (hi.trans_le hn) a
    rcases Nat.lt_or_ge i bytes.length with hlt | hge
    · simp [read, write, hdistance, List.getElem_append_left hlt, List.getElem?_eq_getElem hlt]
    · simp [read, write, hdistance, List.getElem_append_right hge, List.getElem?_eq_none hge,
        Nat.add_sub_cancel' hge]

theorem read_write {bytes : List UInt8} (h : bytes.length ≤ addressCount) (m : Memory)
    (a : Address) : (m.write a bytes).read a bytes.length = bytes := by
  rw [read_write_append (Nat.le_refl _) h, List.drop_of_length_le (length_read _ _ _).le,
    List.append_nil]

private theorem write_read (m : Memory) (a : Address) (n : Nat) : m.write a (m.read a n) = m := by
  funext b
  rcases Nat.lt_or_ge (distance a b) n with hlt | hge
  · simp [write, read, List.getElem?_range hlt, offset_distance]
  · exact write_of_le_distance (by rwa [length_read])

variable {m m' : Memory} {defs : Definitions} {d : Descriptor} {p : Prim} {a : Address}
  {x y : Value}

private theorem AgreeBeyond.read_eq {i n j k : Nat} (h : AgreeBeyond (a.offset i) n m m')
    (hi : i + n ≤ addressCount) (hj : j + k ≤ addressCount) (hapart : i + n ≤ j ∨ j + k ≤ i) :
    m'.read (a.offset j) k = m.read (a.offset j) k := by
  apply List.map_congr_left
  intro t ht
  have htk : t < k := List.mem_range.1 ht
  rw [Address.offset_offset]
  apply h
  rcases Nat.lt_or_ge i addressCount with hlt | hge
  · rw [distance_offset_offset hlt]
    rcases hapart with hbefore | hafter
    · have hsum : addressCount - i + (j + t) = addressCount + (j + t - i) := by omega
      rw [hsum, Nat.add_mod_left, Nat.mod_eq_of_lt (by omega)]
      omega
    · rw [Nat.mod_eq_of_lt (by omega)]
      omega
  · omega

theorem AgreeBeyond.read_element {first n i count size : Nat}
    (h : AgreeBeyond (a.offset (first * size)) (n * size) m m')
    (hend : count * size ≤ addressCount) (hlast : first + n ≤ count) (hi : i < count)
    (hapart : i < first ∨ first + n ≤ i) :
    m'.read (a.offset (i * size)) size = m.read (a.offset (i * size)) size := by
  apply h.read_eq
  · rw [← Nat.add_mul]
    exact (Nat.mul_le_mul_right _ hlast).trans hend
  · rw [← Nat.succ_mul]
    exact (Nat.mul_le_mul_right _ hi).trans hend
  · rcases hapart with hbefore | hafter
    · right
      rw [← Nat.succ_mul]
      exact Nat.mul_le_mul_right _ hbefore
    · left
      rw [← Nat.add_mul]
      exact Nat.mul_le_mul_right _ hafter

private theorem readValue_of_isWord (hd : d.IsWord p) (m : Memory) (a : Address) :
    m.readValue defs d a = .ok x ↔ p.decode? (m.read a p.size) = some x := by
  simp only [readValue, hd.1]
  cases p.decode? (m.read a p.size) <;> simp [fail]

private theorem writeValue_of_isWord (hd : d.IsWord p) :
    m.writeValue d a x = .ok m' ↔
      ∃ w, p.word? x = some w ∧ m' = m.write a (Bytes.encode p.size w) := by
  simp only [writeValue, bytesOf, hd.1]
  cases p.word? x with
  | none => cases p.isStored <;> simp [Value.mismatch, fail, Except.map]
  | some w => simp [Except.map, eq_comm]

private theorem readValue_of_writeValue (hd : d.IsWord p) (defs : Definitions)
    (h : m.writeValue d a x = .ok m') :
    ∃ y, m'.readValue defs d a = .ok y ∧ p.Converts x y := by
  obtain ⟨w, hw, rfl⟩ := (writeValue_of_isWord hd).1 h
  obtain ⟨y, hy, hconverts⟩ := Prim.decode?_encode hd.2 hw
  have hread : (m.write a (Bytes.encode p.size w)).read a p.size = Bytes.encode p.size w := by
    have hle : (Bytes.encode p.size w).length ≤ addressCount := by
      rw [Bytes.length_encode]
      exact hd.2.size_le.trans (by decide)
    simpa only [Bytes.length_encode] using read_write hle m a
  exact ⟨y, (readValue_of_isWord hd _ _).2 (by rw [hread, hy]), hconverts⟩

private theorem writeValue_of_readValue (hd : d.IsWord p) (h : m.readValue defs d a = .ok x) :
    m.writeValue d a x = .ok m := by
  have hdecode := (readValue_of_isWord hd m a).1 h
  obtain ⟨w, hw, hbytes⟩ := Prim.encode_word? hd.2 (length_read m a p.size) hdecode
  exact (writeValue_of_isWord hd).2 ⟨w, hw, by rw [hbytes, write_read]⟩

private theorem writeElements_of_readElements (hd : d.IsWord p) {i n : Nat} {xs : List Value}
    (h : m.readElements defs d a i n = .ok xs) :
    m.writeElements d (defs.sizeOf d) a i xs = (.ok (), m) := by
  induction n generalizing i xs with
  | zero =>
      cases h
      rfl
  | succ n ih =>
      obtain ⟨x, hx, h⟩ := bind_eq_ok.1 h
      obtain ⟨rest, hrest, h⟩ := bind_eq_ok.1 h
      cases h
      rw [writeElements, writeValue_of_readValue hd hx]
      exact ih hrest

/-- Elements that were written one after the other are read as what they were converted to: none is
overwritten by those after it. -/
theorem readValue_of_writeElements (hd : d.IsWord p) {i : Nat} {xs : List Value}
    (h : (m.writeElements d (defs.sizeOf d) a i xs).1 = .ok ())
    (hend : (i + xs.length) * defs.sizeOf d ≤ addressCount) :
    ∃ ys, List.Forall₂ p.Converts xs ys ∧ ∀ j y, ys[j]? = some y →
      (m.writeElements d (defs.sizeOf d) a i xs).2.readValue defs d
        (a.offset ((i + j) * defs.sizeOf d)) = .ok y := by
  induction xs generalizing m i with
  | nil => exact ⟨[], .nil, by simp⟩
  | cons x xs ih =>
      rw [writeElements] at h ⊢
      cases hwrite : m.writeValue d (a.offset (i * defs.sizeOf d)) x with
      | error f => simp [hwrite] at h
      | ok m' =>
          simp only [hwrite] at h ⊢
          have hnext : ∀ j, i + 1 + j = i + (j + 1) := by omega
          have hlast : (i + 1 + xs.length) * defs.sizeOf d ≤ addressCount := by
            rwa [hnext]
          obtain ⟨ys, hys, hread⟩ := ih h hlast
          obtain ⟨y, hy, hconverts⟩ := readValue_of_writeValue hd defs hwrite
          refine ⟨y :: ys, .cons hconverts hys, fun j z hz => ?_⟩
          cases j with
          | succ j => exact hnext j ▸ hread j z hz
          | zero =>
              cases hz
              have hrest :=
                agreeBeyond_writeElements (d := d) a (i + 1) (Prim.isMade_of_converts hys defs) m'
              rw [Nat.add_zero, ← hy]
              apply readValue_congr
              exact hrest.read_element hlast (Nat.le_refl _) (by omega) (.inl (Nat.lt_succ_self i))

/-- The elements of an array that was written, followed by those it keeps. -/
theorem readElements_of_writeElements (hd : d.IsWord p) {n : Nat} {xs olds : List Value}
    (holds : m.readElements defs d a 0 n = .ok olds)
    (h : (m.writeElements d (defs.sizeOf d) a 0 xs).1 = .ok ()) (hlen : xs.length ≤ n)
    (hend : n * defs.sizeOf d ≤ addressCount) :
    ∃ ys, List.Forall₂ p.Converts xs ys ∧
      (m.writeElements d (defs.sizeOf d) a 0 xs).2.readElements defs d a 0 n =
        .ok (ys ++ olds.drop xs.length) := by
  have hwritten : (0 + xs.length) * defs.sizeOf d ≤ addressCount := by
    rw [Nat.zero_add]
    exact (Nat.mul_le_mul_right _ hlen).trans hend
  obtain ⟨ys, hys, hread⟩ := readValue_of_writeElements hd h hwritten
  obtain ⟨hcount, hbefore⟩ := readElements_eq_ok.1 holds
  have hylen : ys.length = xs.length := hys.length_eq.symm
  refine ⟨ys, hys, readElements_eq_ok.2 ⟨?_, fun j y hj => ?_⟩⟩
  · rw [List.length_append, List.length_drop]
    omega
  · rcases Nat.lt_or_ge j ys.length with hlt | hge
    · rw [List.getElem?_append_left hlt] at hj
      exact hread j y hj
    · rw [List.getElem?_append_right hge, List.getElem?_drop, ← hylen,
        Nat.add_sub_cancel' hge] at hj
      have hjn : j < n := hcount ▸ (List.getElem?_eq_some_iff.1 hj).1
      rw [← hbefore j y hj]
      -- The element lies behind those that were written.
      have hframe := agreeBeyond_writeElements (d := d) a 0 (Prim.isMade_of_converts hys defs) m
      apply readValue_congr
      rw [Nat.zero_add]
      exact hframe.read_element hend (by omega) hjn (.inr (by omega))

private theorem isComplete_of_isWord (hd : d.IsWord p) (defs : Definitions) :
    d.IsComplete defs := by
  have hstored := hd.1
  intro c hc
  cases d <;> cases hc <;> cases hstored

private theorem hasValues_of_isWord (hd : d.IsWord p) : d.HasValues := by
  rintro q rfl
  cases hd.1
  rcases hd.2 with h | h <;> cases p <;> first | rfl | cases h

private theorem fieldKind_of_isWord (hd : d.IsWord p) : Placement.fieldKind d = .scalar d := by
  have hstored := hd.1
  cases d <;> first | rfl | cases hstored

/-- Fields of words obey the laws, if there are as many addresses as they have bytes. -/
theorem field_lawful {k : FieldKind} (hk : k.element.IsWord p) (hsize : k.size defs ≤ addressCount)
    (a : Address) :
    k.Lawful p (fun m => m.readField defs k a) (fun m x => m.writeField defs k a x) where
  exists_get m :=
    exists_readField (isComplete_of_isWord hk defs) (.inl (hasValues_of_isWord hk)) m a
  get_of_set m x h := by
    obtain ⟨old, hold⟩ :=
      exists_readField (isComplete_of_isWord hk defs) (.inl (hasValues_of_isWord hk)) m a
    cases k with
    | scalar d =>
        simp only [writeField] at h ⊢
        cases hwrite : m.writeValue d a x with
        | error f => simp [hwrite, commit] at h
        | ok m' =>
            obtain ⟨y, hy, hconverts⟩ := readValue_of_writeValue hk defs hwrite
            exact ⟨old, y, hold, hy, .scalar hconverts⟩
    | composite c => cases hk.1
    | array d n =>
        cases x with
        | array xs =>
            by_cases hlen : xs.length ≤ n
            · simp only [writeField, if_pos hlen] at h ⊢
              obtain ⟨olds, holds, rfl⟩ := map_eq_ok.1 hold
              have hend : n * defs.sizeOf d ≤ addressCount := by rwa [Nat.mul_comm]
              obtain ⟨ys, hys, hread⟩ := readElements_of_writeElements (d := d) hk holds h hlen hend
              refine ⟨_, _, hold, by rw [readField, hread]; rfl, .array hys ?_ hlen⟩
              exact (readElements_eq_ok.1 holds).1
            · simp [writeField, if_neg hlen, Value.mismatch, fail] at h
        | _ => simp [writeField, Value.mismatch, fail] at h
  set_of_get m x h := by
    cases k with
    | scalar d =>
        simp only [writeField]
        rw [writeValue_of_readValue (d := d) hk h]
        rfl
    | composite c => cases hk.1
    | array d n =>
        obtain ⟨xs, hxs, rfl⟩ := map_eq_ok.1 h
        simp only [writeField, if_pos (readElements_eq_ok.1 hxs).1.le]
        exact writeElements_of_readElements hk hxs

end Memory

theorem Layout.IsPlaced.fieldSize_le {l : Layout} {defs : Definitions} {kind : CompositeKind}
    (hl : l.IsPlaced defs kind) {f : Field} (hf : f ∈ l.fields) :
    f.kind.size defs ≤ addressCount := by
  have hstop := hl.stop_le_size hf
  have hlt := hl.size_lt
  rw [FieldKind.size, ← hl.size_eq hf]
  unfold Field.stop at hstop
  omega

theorem Layout.IsPlaced.lawful {l : Layout} {defs : Definitions} {kind : CompositeKind}
    (hl : l.IsPlaced defs kind) {name : String} {f : Field} (hf : l.field name = .ok f) {p : Prim}
    (hword : f.kind.element.IsWord p) (a : Address) :
    f.kind.Lawful p (fun m => l.get defs m a name) (fun m x => l.set defs m a name x) := by
  have hsize := hl.fieldSize_le (mem_of_field hf)
  have hlawful := Memory.field_lawful hword hsize (a.offset f.offset)
  constructor
  · intro m
    obtain ⟨x, hx⟩ := hlawful.exists_get m
    exact ⟨x, by rw [get_of_field hf, noting_eq_ok, hx]⟩
  · intro m x h
    simp only [set_of_field hf, noting_eq_ok] at h
    obtain ⟨old, y, hold, hy, hbecomes⟩ := hlawful.get_of_set m x h
    refine ⟨old, y, ?_, ?_, hbecomes⟩
    · rw [get_of_field hf, noting_eq_ok, hold]
    · rw [get_of_field hf, set_of_field hf, noting_eq_ok, hy]
  · intro m x h
    rw [get_of_field hf, noting_eq_ok] at h
    rw [set_of_field hf, hlawful.set_of_get m x h]
    rfl

private theorem VariableBinding.IsAttached.lawful {b : VariableBinding} {defs : Definitions}
    (h : b.IsAttached defs) {p : Prim} (hword : b.type.IsWord p) :
    (FieldKind.scalar b.type).Lawful p (b.get defs) (b.set defs) := by
  unfold VariableBinding.get VariableBinding.set
  cases haccess : b.access with
  | view v =>
      obtain ⟨c, hc⟩ := h.type_eq haccess
      rw [hc] at hword
      cases hword.1
  | wrapped l =>
      obtain ⟨f, hf, hk⟩ := h.field_eq haccess
      have hscalar : f.kind = .scalar b.type := hk.trans (Memory.fieldKind_of_isWord hword)
      have hlawful := (h.isPlaced haccess).lawful hf (p := p) (hscalar ▸ hword) b.address
      rwa [hscalar] at hlawful

/-- Fields of views, and attached variables, whose values are words obey the laws. They can always
be read. What was written is read as what it was converted to: an integer as the number in the range
of the type that is congruent to it, an address as it is, and a list for an array as its converted
elements, followed by those the array keeps. To write what was read succeeds and leaves the whole
memory as it was. -/
theorem Memory.words_lawful {defs : Definitions} (hdefs : defs.Reachable) :
    (∀ (v : View) (f : Field) (p : Prim), v.IsMade defs → f ∈ v.layout.fields →
      f.kind.element.IsWord p →
        f.kind.Lawful p (fun m => v.get defs m f.name) (fun m x => v.set defs m f.name x)) ∧
    ∀ (b : VariableBinding) (p : Prim), b.IsAttached defs → b.type.IsWord p →
      (FieldKind.scalar b.type).Lawful p (b.get defs) (b.set defs) := by
  refine ⟨fun v f p hv hf hword => ?_, fun b p hb hword => hb.lawful hword⟩
  have hplaced := hdefs.sound.placed _ _ hv.layout?_eq
  exact hplaced.lawful (Layout.field_of_mem hplaced.nodup hf) hword v.address

/-- The first two bytes of the tag are written, of 300 and of a truth value, and the others kept.
The counter becomes negative. -/
theorem Memory.words_lawful_tag :
    let tagged := fun m =>
      Sample.headerView.set Sample.headers m "tag" (.array [.uint 300, .bool true])
    let counted := fun m => Sample.counter.set Sample.definitions m (.uint 40000)
    Sample.headers.Reachable ∧ Sample.headerView.IsMade Sample.headers ∧
      (∀ m, (tagged m).1 = .ok ()) ∧
      (∀ m, ∃ olds, Sample.headerView.get Sample.headers m "tag" = .ok (.array olds) ∧
        Sample.headerView.get Sample.headers (tagged m).2 "tag" =
          .ok (.array (.uint 44 :: .uint 1 :: olds.drop 2))) ∧
      Sample.definitions.Reachable ∧ Sample.counter.IsAttached Sample.definitions ∧
      (∀ m, (counted m).1 = .ok ()) ∧
      ∀ m, Sample.counter.get Sample.definitions (counted m).2 = .ok (.int (-25536)) := by
  intro tagged counted
  have hwords := (words_lawful Sample.headers_reachable).1 Sample.headerView
    ⟨"tag", .array (.prim .uint8) 4, 0, 4, 1⟩ .uint8 Sample.headerView_isMade (by decide)
    ⟨rfl, .inl rfl⟩
  have hcounter := (words_lawful Sample.definitions_reachable).2 Sample.counter .int16
    Sample.counter_isAttached ⟨rfl, .inl rfl⟩
  refine ⟨Sample.headers_reachable, Sample.headerView_isMade, fun m => rfl, fun m => ?_,
    Sample.definitions_reachable, Sample.counter_isAttached, fun m => rfl, fun m => ?_⟩
  · have h300 : Prim.uint8.Converts (.uint 300) (.uint 44) :=
      .integer rfl rfl (.unsigned rfl (by decide) (by decide))
    have htrue : Prim.uint8.Converts (.bool true) (.uint 1) :=
      .integer rfl rfl (.unsigned rfl (by decide) (by decide))
    obtain ⟨old, y, hold, hy, hbecomes⟩ := hwords.get_of_set m (.array [.uint 300, .bool true]) rfl
    rcases hbecomes with _ | ⟨hconverts, -, -⟩
    rcases hconverts with _ | ⟨hfirst, _ | ⟨hsecond, _ | _⟩⟩
    cases hfirst.unique h300
    cases hsecond.unique htrue
    exact ⟨_, hold, hy⟩
  · have hnegative : Prim.int16.Converts (.uint 40000) (.int (-25536)) :=
      .integer rfl rfl (.signed rfl (by decide) (by decide) (by decide))
    obtain ⟨old, y, -, hy, hbecomes⟩ := hcounter.get_of_set m (.uint 40000) rfl
    rcases hbecomes with hconverts | _
    cases hconverts.unique hnegative
    exact hy

end ForeignBinding
