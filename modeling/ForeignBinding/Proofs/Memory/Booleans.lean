import ForeignBinding.Proofs.Memory.ReadWrite

/-!
# Truth values in memory

A truth value takes a byte. An integer that is written for one leaves its lowest byte there, and
every byte but zero is read as true. So an integer other than zero may be read as false, and bytes
come about that are neither 0 nor 1.
-/

namespace ForeignBinding

open Attempt

/-- The numbers that a value gives for a field of truth values: one, or for an array one for each
element that it is given. -/
inductive FieldKind.Given : FieldKind → Value → List Int → Prop
  | scalar {d : Descriptor} {x : Value} {n : Int} (given : x.integer? = some n) :
      Given (.scalar d) x [n]
  | array {d : Descriptor} {count : Nat} {xs : List Value} {ns : List Int}
      (given : List.Forall₂ (fun x n => x.integer? = some n) xs ns) (fits : xs.length ≤ count) :
      Given (.array d count) (.array xs) ns

/-- The value of a field of truth values. -/
def FieldKind.shown : FieldKind → List Bool → Value
  | .array _ _, bs => .array (bs.map .bool)
  | _, bs => .bool (bs.headD false)

/-- The bytes from an address on as truth values. -/
def Memory.truths (m : Memory) (a : Address) (n : Nat) : List Bool :=
  (m.read a n).map (· != 0)

/-- What reading and writing does to a field of truth values at an address: every byte is read as
whether it is other than zero, only numbers can be written, and their lowest bytes are stored. -/
structure FieldKind.StoresBytes (k : FieldKind) (a : Address)
    (get : Memory → Attempt MemoryError Value)
    (set : Memory → Value → Attempt MemoryError Unit × Memory) : Prop where
  get_eq : ∀ m, get m = .ok (k.shown (m.truths a k.count))
  given_of_set : ∀ m x, (set m x).1 = .ok () → ∃ ns, k.Given x ns
  set_eq : ∀ m x ns, k.Given x ns →
    set m x = (.ok (), m.write a (ns.map UInt8.ofInt))

/-- Numbers that were written are C truth values: their bytes are 0 or 1, and they are read as true
where they are other than zero. An array keeps the elements after those that it is given. -/
def FieldKind.AreCanonical (k : FieldKind) (a : Address) (get : Memory → Attempt MemoryError Value)
    (ns : List Int) (m m' : Memory) : Prop :=
  (∀ b ∈ m'.read a ns.length, b = 0 ∨ b = 1) ∧
    get m' = .ok (k.shown (ns.map (· != 0) ++ (m.truths a k.count).drop ns.length))

private theorem ofInt_eq_iff (n : Int) (b : UInt8) : UInt8.ofInt n = b ↔ n % 256 = b.toNat := by
  have hb : b.toNat < 256 := b.toNat_lt
  rw [← UInt8.toNat_inj, UInt8.ofInt, UInt8.toNat_ofNat']
  omega

private theorem canonical_byte_iff (n : Int) :
    (UInt8.ofInt n = 0 ∨ UInt8.ofInt n = 1) ∧ (UInt8.ofInt n != 0) = (n != 0) ↔
      n = 0 ∨ n % 256 = 1 := by
  have hzero : UInt8.ofInt n = 0 ↔ n % 256 = 0 := ofInt_eq_iff n 0
  have hone : UInt8.ofInt n = 1 ↔ n % 256 = 1 := ofInt_eq_iff n 1
  have hsame : (UInt8.ofInt n != 0) = (n != 0) ↔ (UInt8.ofInt n = 0 ↔ n = 0) := by
    rw [Bool.eq_iff_iff, bne_iff_ne, bne_iff_ne, not_iff_not]
  rw [hsame, hzero, hone]
  omega

private theorem word?_bool (x : Value) :
    Prim.bool.word? x = x.integer?.map fun n => (n % 2 ^ 64).toNat :=
  x.toInt64?_toNat

private theorem decode?_bool (b : UInt8) : Prim.bool.decode? [b] = some (.bool (b != 0)) := by
  have hdecode : Bytes.decode [b] = b.toNat := rfl
  have hsame : (b.toNat != 0) = (b != 0) := by
    rw [Bool.eq_iff_iff, bne_iff_ne, bne_iff_ne, ne_eq, ne_eq, ← UInt8.toNat_inj]
    rfl
  simp only [Prim.decode?, hdecode, hsame]

private theorem encode_one (n : Int) : Bytes.encode 1 (n % 2 ^ 64).toNat = [UInt8.ofInt n] := by
  have hbyte : UInt8.ofNat (n % 2 ^ 64).toNat = UInt8.ofInt n := by
    rw [← UInt8.toNat_inj, UInt8.ofInt, UInt8.toNat_ofNat', UInt8.toNat_ofNat']
    omega
  simp only [Bytes.encode, hbyte]

namespace Memory

variable {m m' : Memory} {defs : Definitions} {a : Address} {x : Value} {n : Int} {ns : List Int}

private theorem readValue_bool (m : Memory) (defs : Definitions) (a : Address) :
    m.readValue defs (.prim .bool) a = .ok (.bool (m a != 0)) := by
  have hread : m.read a Prim.bool.size = [m a] := by
    simp [read, Prim.size, List.range_succ]
  simp only [readValue, Descriptor.stored, hread, decode?_bool]

private theorem writeValue_bool (h : x.integer? = some n) (m : Memory) (a : Address) :
    m.writeValue (.prim .bool) a x = .ok (m.write a [UInt8.ofInt n]) := by
  have hbytes : m.bytesOf (.prim .bool) x = .ok [UInt8.ofInt n] := by
    simp only [bytesOf, Descriptor.stored, word?_bool, h, Option.map_some]
    exact congrArg Except.ok (encode_one n)
  rw [writeValue, hbytes]
  rfl

private theorem integer?_of_writeValue (h : m.writeValue (.prim .bool) a x = .ok m') :
    ∃ n, x.integer? = some n := by
  cases hx : x.integer? with
  | some n => exact ⟨n, rfl⟩
  | none =>
      simp only [writeValue, bytesOf, Descriptor.stored, word?_bool, hx] at h
      cases h

private theorem readElements_bool (m : Memory) (defs : Definitions) (a : Address) (n : Nat) :
    m.readElements defs (.prim .bool) a 0 n = .ok ((m.truths a n).map .bool) := by
  refine readElements_eq_ok.2 ⟨by simp [truths], fun j x hj => ?_⟩
  have hone : defs.sizeOf (.prim .bool) = 1 := rfl
  obtain ⟨hlt, hx⟩ := List.getElem?_eq_some_iff.1 hj
  rw [readValue_bool, hone, Nat.zero_add, Nat.mul_one, ← hx]
  simp [truths, read]

private theorem write_cons {b : UInt8} {bytes : List UInt8} (h : bytes.length < addressCount)
    (m : Memory) (a : Address) :
    (m.write a [b]).write (a.offset 1) bytes = m.write a (b :: bytes) := by
  funext c
  rcases Nat.eq_zero_or_pos (distance a c) with hzero | hpos
  · -- The rest ends before the first byte is reached again.
    obtain rfl : a = c := by rw [← offset_distance a c, hzero, Address.offset_zero]
    have hlast : distance (a.offset 1) (a.offset 0) = addressCount - 1 :=
      distance_offset_offset (by decide) a
    rw [Address.offset_zero] at hlast
    rw [write_of_le_distance (by omega)]
    simp [write, hzero]
  · obtain ⟨k, hk⟩ := Nat.exists_eq_add_of_lt hpos
    have hrest : distance (a.offset 1) c = k := by
      rw [distance_offset hpos]
      omega
    simp [write, hrest, hk]

private theorem writeElements_bool {xs : List Value}
    (h : List.Forall₂ (fun x n => x.integer? = some n) xs ns) (hend : xs.length ≤ addressCount)
    (i : Nat) (m : Memory) (a : Address) :
    m.writeElements (.prim .bool) 1 a i xs =
      (.ok (), m.write (a.offset i) (ns.map UInt8.ofInt)) := by
  induction h generalizing m i with
  | nil => rfl
  | @cons x n xs ns hn hrest ih =>
      have hlen : (ns.map UInt8.ofInt).length < addressCount := by
        rw [List.length_map, ← hrest.length_eq]
        exact hend
      rw [writeElements, Nat.mul_one, writeValue_bool hn]
      simp only [ih (Nat.le_of_succ_le hend), ← Address.offset_offset, List.map_cons]
      rw [write_cons hlen]

private theorem given_of_writeElements {xs : List Value} {i : Nat}
    (h : (m.writeElements (.prim .bool) 1 a i xs).1 = .ok ()) :
    ∃ ns, List.Forall₂ (fun x n => x.integer? = some n) xs ns := by
  induction xs generalizing m i with
  | nil => exact ⟨[], .nil⟩
  | cons x xs ih =>
      rw [writeElements] at h
      cases hwrite : m.writeValue (.prim .bool) (a.offset (i * 1)) x with
      | error f => simp only [hwrite, reduceCtorEq] at h
      | ok m' =>
          obtain ⟨n, hn⟩ := integer?_of_writeValue hwrite
          simp only [hwrite] at h
          obtain ⟨ns, hns⟩ := ih h
          exact ⟨n :: ns, .cons hn hns⟩

private theorem field_storesBytes {k : FieldKind} (hk : k.element = .prim .bool)
    (hcount : k.count ≤ addressCount) (defs : Definitions) (a : Address) :
    k.StoresBytes a (fun m => m.readField defs k a) (fun m x => m.writeField defs k a x) where
  get_eq m := by
    cases k with
    | scalar d =>
        cases hk
        simp [readField, readValue_bool, FieldKind.shown, truths, read, FieldKind.count]
    | composite c => cases hk
    | array d n =>
        cases hk
        rw [readField, readElements_bool]
        rfl
  given_of_set m x h := by
    cases k with
    | scalar d =>
        cases hk
        cases hwrite : m.writeValue (.prim .bool) a x with
        | error f => simp [writeField, hwrite, commit] at h
        | ok m' =>
            obtain ⟨n, hn⟩ := integer?_of_writeValue hwrite
            exact ⟨[n], .scalar hn⟩
    | composite c => cases hk
    | array d n =>
        cases hk
        cases x with
        | array xs =>
            by_cases hlen : xs.length ≤ n
            · simp only [writeField, if_pos hlen] at h
              obtain ⟨ns, hns⟩ := given_of_writeElements h
              exact ⟨ns, .array hns hlen⟩
            · simp [writeField, if_neg hlen, Value.mismatch, fail] at h
        | _ => simp [writeField, Value.mismatch, fail] at h
  set_eq m x ns h := by
    cases h with
    | scalar hn =>
        cases hk
        rw [writeField, writeValue_bool hn]
        rfl
    | array hns hlen =>
        cases hk
        have hwritten := writeElements_bool hns (hlen.trans hcount) 0 m a
        rw [Address.offset_zero] at hwritten
        rwa [writeField, if_pos hlen]

end Memory

namespace FieldKind

variable {k : FieldKind} {a : Address} {get : Memory → Attempt MemoryError Value}
  {set : Memory → Value → Attempt MemoryError Unit × Memory} {x : Value} {ns : List Int}

private theorem Given.length_le (h : k.Given x ns) : ns.length ≤ k.count := by
  cases h with
  | scalar _ => exact Nat.le_refl 1
  | array given fits => exact given.length_eq ▸ fits

private theorem shown_inj {bs bs' : List Bool} (h : bs.length = k.count)
    (h' : bs'.length = k.count) : k.shown bs = k.shown bs' ↔ bs = bs' := by
  cases k with
  | array d n =>
      have hbool : Function.Injective Value.bool := fun _ _ => Value.bool.inj
      simp only [shown, Value.array.injEq, hbool.list_map.eq_iff]
  | _ =>
      obtain ⟨b, rfl⟩ := List.length_eq_one_iff.1 h
      obtain ⟨b', rfl⟩ := List.length_eq_one_iff.1 h'
      simp [shown]

private theorem StoresBytes.get_of_set (h : k.StoresBytes a get set)
    (hcount : k.count ≤ addressCount) (hgiven : k.Given x ns) (m : Memory) :
    get (set m x).2 = .ok (k.shown (ns.map (UInt8.ofInt · != 0) ++
      (m.truths a k.count).drop ns.length)) := by
  have hlen : (ns.map UInt8.ofInt).length ≤ k.count := by
    rw [List.length_map]
    exact hgiven.length_le
  rw [h.get_eq, h.set_eq m x ns hgiven, Memory.truths, Memory.read_write_append hlen hcount]
  simp [Memory.truths, Function.comp_def]

/-- Numbers become C truth values if each is zero or leaves one modulo 256, and only then. -/
theorem StoresBytes.areCanonical_iff (h : k.StoresBytes a get set)
    (hcount : k.count ≤ addressCount) (hgiven : k.Given x ns) (m : Memory) :
    k.AreCanonical a get ns m (set m x).2 ↔ ∀ n ∈ ns, n = 0 ∨ n % 256 = 1 := by
  have hlen := hgiven.length_le
  have hread : (set m x).2.read a ns.length = ns.map UInt8.ofInt := by
    have hbytes : (ns.map UInt8.ofInt).length = ns.length := List.length_map _
    rw [h.set_eq m x ns hgiven, ← hbytes]
    exact Memory.read_write (hbytes.trans_le (hlen.trans hcount)) m a
  have hcounted : ∀ bs : List Bool, bs.length = ns.length →
      (bs ++ (m.truths a k.count).drop ns.length).length = k.count := by
    intro bs hbs
    simp only [List.length_append, List.length_drop, Memory.truths, List.length_map,
      Memory.length_read]
    omega
  have hshown : get (set m x).2 =
        .ok (k.shown (ns.map (· != 0) ++ (m.truths a k.count).drop ns.length)) ↔
      ∀ n ∈ ns, (UInt8.ofInt n != 0) = (n != 0) := by
    rw [h.get_of_set hcount hgiven, Except.ok.injEq,
      shown_inj (hcounted _ (List.length_map _)) (hcounted _ (List.length_map _)),
      List.append_cancel_right_eq, List.map_inj_left]
  rw [AreCanonical, hread, hshown, List.forall_mem_map, ← forall₂_and]
  exact forall₂_congr fun n _ => canonical_byte_iff n

end FieldKind

private theorem Layout.storesBytes {l : Layout} {name : String} {f : Field}
    (hf : l.field name = .ok f) (hk : f.kind.element = .prim .bool)
    (hcount : f.kind.count ≤ addressCount) (defs : Definitions) (a : Address) :
    f.kind.StoresBytes (a.offset f.offset) (fun m => l.get defs m a name)
      (fun m x => l.set defs m a name x) := by
  have hfield := Memory.field_storesBytes hk hcount defs (a.offset f.offset)
  constructor
  · intro m
    rw [get_of_field hf, noting_eq_ok]
    exact hfield.get_eq m
  · intro m x h
    simp only [set_of_field hf, noting_eq_ok] at h
    exact hfield.given_of_set m x h
  · intro m x ns h
    rw [set_of_field hf, hfield.set_eq m x ns h]
    rfl

private theorem VariableBinding.IsAttached.storesBytes {b : VariableBinding} {defs : Definitions}
    (h : b.IsAttached defs) (ht : b.type = .prim .bool) :
    (FieldKind.scalar b.type).StoresBytes b.address (b.get defs) (b.set defs) := by
  obtain ⟨l, f, haccess, -, hf, hk, hoffset⟩ := h.exists_scalar ht
  have hcount : f.kind.count ≤ addressCount := by
    rw [hk]
    exact show 1 ≤ addressCount by decide
  have hstores := Layout.storesBytes hf (by rw [hk]; rfl) hcount defs b.address
  rw [hk, hoffset, Address.offset_zero, ← ht] at hstores
  unfold VariableBinding.get VariableBinding.set
  rwa [haccess]

/-- In fields of views that are truth values or arrays of them, and in attached variables, numbers
are stored as their lowest bytes, and every byte but zero is read as true. They become C truth
values, bytes that are 0 or 1 and are read as whether the number is other than zero, if each number
is zero or leaves one modulo 256, and only then. -/
theorem Memory.booleans_stored {defs : Definitions} (hdefs : defs.Reachable) :
    (∀ (v : View) (f : Field), v.IsMade defs → f ∈ v.layout.fields →
      f.kind.element = .prim .bool →
        let a := v.address.offset f.offset
        let get := fun m => v.get defs m f.name
        let set := fun m x => v.set defs m f.name x
        f.kind.StoresBytes a get set ∧ ∀ m x ns, f.kind.Given x ns →
          get (set m x).2 = .ok (f.kind.shown (ns.map (UInt8.ofInt · != 0) ++
            (m.truths a f.kind.count).drop ns.length)) ∧
          (f.kind.AreCanonical a get ns m (set m x).2 ↔ ∀ n ∈ ns, n = 0 ∨ n % 256 = 1)) ∧
    ∀ b : VariableBinding, b.IsAttached defs → b.type = .prim .bool →
      let k := FieldKind.scalar b.type
      k.StoresBytes b.address (b.get defs) (b.set defs) ∧ ∀ m x n, x.integer? = some n →
        b.get defs (b.set defs m x).2 = .ok (.bool (UInt8.ofInt n != 0)) ∧
        (k.AreCanonical b.address (b.get defs) [n] m (b.set defs m x).2 ↔
          n = 0 ∨ n % 256 = 1) := by
  refine ⟨fun v f hv hf hk => ?_, fun b hb ht => ?_⟩
  · have hplaced := hdefs.sound.placed _ _ hv.layout?_eq
    have hcount : f.kind.count ≤ addressCount := by
      have hsize := hplaced.fieldSize_le hf
      rwa [FieldKind.size, hk, show defs.sizeOf (.prim .bool) = 1 from rfl, Nat.one_mul] at hsize
    have hstores :=
      Layout.storesBytes (Layout.field_of_mem hplaced.nodup hf) hk hcount defs v.address
    exact ⟨hstores, fun m x ns h =>
      ⟨hstores.get_of_set hcount h m, hstores.areCanonical_iff hcount h m⟩⟩
  · have hstores := hb.storesBytes ht
    have hcount : (FieldKind.scalar b.type).count ≤ addressCount :=
      show 1 ≤ addressCount by decide
    refine ⟨hstores, fun m x n h => ⟨?_, ?_⟩⟩
    · exact hstores.get_of_set hcount (.scalar h) m
    · rw [hstores.areCanonical_iff hcount (.scalar h) m, List.forall_mem_singleton]

-- A flag is a truth value, with three more in an array.
namespace Sample

def flag : Composite := ⟨0, .struct, "flag"⟩

def flagLayout : Layout :=
  ⟨.struct, [⟨"on", .scalar (.prim .bool), 0, 1, 1⟩, ⟨"seen", .array (.prim .bool) 3, 1, 3, 1⟩],
    4, 1⟩

def flags : Definitions :=
  (Definitions.empty.declare .struct "flag").2.set flag (.computed flagLayout)

private theorem flags_reachable : flags.Reachable :=
  .tail (.single (.declare _ .struct "flag")) (.define (by decide)
    (show (Definitions.empty.declare .struct "flag").2.define resolver flag
        (.ordered [⟨"on", .single (.resolved (.prim .bool)), none⟩,
          ⟨"seen", .array (.resolved (.prim .bool)) 3, none⟩]) =
      .ok (flagLayout, flags) from rfl))

def flagView : View := ⟨flag, flagLayout, ⟨0x200000000⟩⟩

private theorem flagView_isMade : flagView.IsMade flags := ⟨flags, .refl, rfl⟩

def ready : VariableBinding where
  name := "ready"
  symbol := "counter"
  address := ⟨0x3000⟩
  type := .prim .bool
  library := counterLibrary
  access := .wrapped ⟨.struct, [⟨"gvar", .scalar (.prim .bool), 0, 1, 1⟩], 1, 1⟩

private theorem ready_isAttached : ready.IsAttached definitions :=
  ⟨definitions, ⟨"ready", some "counter", .resolved (.prim .bool)⟩, resolver,
    ⟨[counterLibrary], []⟩, definitions_reachable, .refl, rfl⟩

end Sample

/-- The flag is given 256, which is stored as 0 and read as false, and then 2, which is stored as
it is. Of what was seen, the first two become C truth values, of a truth value and of 257. So does
every truth value that the variable is given. -/
theorem Memory.booleans_stored_flag :
    let get := fun name m => Sample.flagView.get Sample.flags m name
    let set := fun name m x => Sample.flagView.set Sample.flags m name x
    let seen := FieldKind.array (.prim .bool) 3
    Sample.flags.Reachable ∧ Sample.flagView.IsMade Sample.flags ∧
      (∀ m, get "on" (set "on" m (.int 256)).2 = .ok (.bool false)) ∧
      (∀ m, (set "on" m (.int 2)).2 Sample.flagView.address = 2) ∧
      (∀ m, seen.AreCanonical (Sample.flagView.address.offset 1) (get "seen") [1, 257] m
        (set "seen" m (.array [.bool true, .uint 257])).2) ∧
      Sample.definitions.Reachable ∧ Sample.ready.IsAttached Sample.definitions ∧
      ∀ m b, (FieldKind.scalar (.prim .bool)).AreCanonical ⟨0x3000⟩
        (Sample.ready.get Sample.definitions) [if b then 1 else 0] m
        (Sample.ready.set Sample.definitions m (.bool b)).2 := by
  intro get set seen
  obtain ⟨hon, hread⟩ := (booleans_stored Sample.flags_reachable).1 Sample.flagView
    ⟨"on", .scalar (.prim .bool), 0, 1, 1⟩ Sample.flagView_isMade (by decide) rfl
  obtain ⟨-, hseen⟩ := (booleans_stored Sample.flags_reachable).1 Sample.flagView
    ⟨"seen", .array (.prim .bool) 3, 1, 3, 1⟩ Sample.flagView_isMade (by decide) rfl
  obtain ⟨-, hready⟩ := (booleans_stored Sample.definitions_reachable).2 Sample.ready
    Sample.ready_isAttached rfl
  refine ⟨Sample.flags_reachable, Sample.flagView_isMade, fun m => ?_, fun m => ?_, fun m => ?_,
    Sample.definitions_reachable, Sample.ready_isAttached, fun m b => ?_⟩
  · exact (hread m (.int 256) [256] (.scalar rfl)).1
  · exact congrArg (fun r => r.2 Sample.flagView.address) (hon.set_eq m (.int 2) [2] (.scalar rfl))
  · have hgiven : seen.Given (.array [.bool true, .uint 257]) [1, 257] :=
      .array (.cons rfl (.cons rfl .nil)) (by decide)
    exact (hseen m _ _ hgiven).2.2 (by decide)
  · refine (hready m (.bool b) _ rfl).2.2 ?_
    cases b <;> decide

/-- A number other than zero may be read as false. -/
theorem Memory.not_booleans_canonical :
    ¬ ∀ (defs : Definitions) (v : View) (f : Field) (m : Memory) (n : Int64), defs.Reachable →
      v.IsMade defs → f ∈ v.layout.fields → f.kind = .scalar (.prim .bool) →
        (v.set defs m f.name (.int n)).1 = .ok () →
          let m' := (v.set defs m f.name (.int n)).2
          let b := m' (v.address.offset f.offset)
          (b = 0 ∨ b = 1) ∧ v.get defs m' f.name = .ok (.bool (n != 0)) := by
  intro h
  have hflag := h Sample.flags Sample.flagView ⟨"on", .scalar (.prim .bool), 0, 1, 1⟩
    Memory.zeroed 256 Sample.flags_reachable Sample.flagView_isMade (by decide) rfl rfl
  have hread : Sample.flagView.get Sample.flags
      (Sample.flagView.set Sample.flags Memory.zeroed "on" (.int 256)).2 "on" =
        .ok (.bool false) := rfl
  cases hread.symm.trans hflag.2

end ForeignBinding
