import ForeignBinding.Memory.Access
import Mathlib.Data.Int.ModEq
import Mathlib.Tactic.Positivity

/-!
# Words in memory

Integers are stored in the width of their type, and read as the number of the type that is congruent
to what was stored. Addresses are stored and read as they are.
-/

namespace ForeignBinding

namespace Bytes

private theorem encode_decode (bytes : List UInt8) :
    encode bytes.length (decode bytes) = bytes := by
  induction bytes with
  | nil => rfl
  | cons b bs ih =>
      have hb : b.toNat < 256 := b.toNat_lt
      have hmod : UInt8.ofNat (b.toNat + 256 * decode bs) = b := by
        apply UInt8.toNat_inj.1
        simp only [UInt8.toNat_ofNat']
        omega
      have hdiv : (b.toNat + 256 * decode bs) / 256 = decode bs := by omega
      rw [List.length_cons, decode, encode, hmod, hdiv, ih]

private theorem decode_lt (bytes : List UInt8) : decode bytes < 256 ^ bytes.length := by
  have h := decode_encode bytes.length (decode bytes)
  rw [encode_decode, Nat.pow_eq] at h
  exact h ▸ Nat.mod_lt _ (by positivity)

private theorem encode_congr {width n n' : Nat} (h : n % 256 ^ width = n' % 256 ^ width) :
    encode width n = encode width n' := by
  have hdecode : decode (encode width n) = decode (encode width n') := by
    rw [decode_encode, decode_encode]
    exact h
  have hencode := encode_decode (encode width n)
  rw [hdecode, length_encode] at hencode
  have hencode' := encode_decode (encode width n')
  rw [length_encode] at hencode'
  exact hencode.symm.trans hencode'

end Bytes

/-- The integer that a value stands for. -/
def Value.integer? : Value → Option Int
  | int n => some n.toInt
  | uint n => some n.toNat
  | bool b => some (if b then 1 else 0)
  | _ => none

theorem Value.toInt64?_toNat (x : Value) :
    x.toInt64?.map (·.toUInt64.toNat) = x.integer?.map fun n => (n % 2 ^ 64).toNat := by
  have hint : ∀ z : Int64, z.toUInt64.toNat = (z.toInt % 2 ^ 64).toNat := by
    intro z
    have hz : z.toInt = Int.bmod z.toUInt64.toNat (2 ^ 64) := z.toBitVec.toInt_eq_toNat_bmod
    have hmod : z.toInt % 2 ^ 64 = z.toUInt64.toNat % 2 ^ 64 := by
      rw [hz]
      exact Int.bmod_emod
    have hlt : z.toUInt64.toNat < 2 ^ 64 := z.toUInt64.toNat_lt
    omega
  cases x with
  | int z => exact congrArg some (hint z)
  | uint z =>
      have hlt : z.toNat < 2 ^ 64 := z.toNat_lt
      simp only [toInt64?, integer?, Option.map_some, UInt64.toUInt64_toInt64]
      congr 1
      omega
  | bool b => cases b <;> rfl
  | _ => rfl

/-- The value is the number of the integer type that is congruent to `n`, signed or unsigned. -/
inductive Prim.Reduces (p : Prim) (n : Int) : Value → Prop
  | signed {z : Int64} (signed : p.isSigned = true)
      (low : -2 ^ (8 * p.size - 1) ≤ z.toInt) (high : z.toInt < 2 ^ (8 * p.size - 1))
      (congr : z.toInt ≡ n [ZMOD 2 ^ (8 * p.size)]) : Reduces p n (.int z)
  | unsigned {z : UInt64} (unsigned : p.isSigned = false) (high : z.toNat < 2 ^ (8 * p.size))
      (congr : (z.toNat : Int) ≡ n [ZMOD 2 ^ (8 * p.size)]) : Reduces p n (.uint z)

/-- The type is one whose values are words: integers of its width, or addresses. -/
def Prim.IsWord (p : Prim) : Prop := p.isInteger = true ∨ p.isPointer = true

/-- What is read of a value after it was stored: of an integer the number of the type, of an
address the address. -/
inductive Prim.Converts (p : Prim) : Value → Value → Prop
  | integer {x y : Value} {n : Int} (isInteger : p.isInteger = true)
      (given : x.integer? = some n) (reduces : p.Reduces n y) : Converts p x y
  | address (a : Address) (isPointer : p.isPointer = true) :
      Converts p (.pointer a) (.pointer a)

namespace Prim

variable {p : Prim} {n n' : Int} {x y : Value} {bytes : List UInt8} {w : Nat}

private theorem size_of_isInteger (h : p.isInteger = true) : 0 < p.size ∧ p.size ≤ 8 := by
  cases p <;> simp_all [isInteger, size]

private theorem size_of_isPointer (h : p.isPointer = true) : p.size = 8 := by
  cases p <;> simp_all [isPointer, size]

theorem IsWord.size_le (h : p.IsWord) : p.size ≤ 8 := by
  rcases h with h | h
  · exact (size_of_isInteger h).2
  · exact (size_of_isPointer h).le

private theorem pow_size (p : Prim) : 256 ^ p.size = 2 ^ (8 * p.size) := by
  rw [show 256 = 2 ^ 8 from rfl, ← pow_mul]

private theorem Reduces.congr (h : p.Reduces n y) (hn : n ≡ n' [ZMOD 2 ^ (8 * p.size)]) :
    p.Reduces n' y := by
  cases h with
  | signed hp low high congr => exact .signed hp low high (congr.trans hn)
  | unsigned hp high congr => exact .unsigned hp high (congr.trans hn)

private theorem isInteger_of_isSigned (h : p.isSigned = true) : p.isInteger = true := by
  cases p <;> first | rfl | cases h

private theorem Reduces.unique (h : p.Reduces n x) (h' : p.Reduces n y) : x = y := by
  cases h with
  | signed hp low high congr =>
      cases h' with
      | unsigned hp' _ _ => cases hp.symm.trans hp'
      | signed _ low' high' congr' =>
          have hpos := (size_of_isInteger (isInteger_of_isSigned hp)).1
          have hhalf : (2 : Int) * 2 ^ (8 * p.size - 1) = 2 ^ (8 * p.size) :=
            mul_pow_sub_one (by omega) 2
          have hdvd := (congr'.trans congr.symm).dvd
          have hzero := Int.eq_zero_of_abs_lt_dvd hdvd (by rw [abs_lt]; omega)
          rw [Int64.toInt_inj.1 (Int.eq_of_sub_eq_zero hzero)]
  | unsigned hp high congr =>
      cases h' with
      | signed hp' _ _ _ => cases hp.symm.trans hp'
      | unsigned _ high' congr' =>
          have hsame := Int.natCast_modEq_iff.1 (by exact_mod_cast congr.trans congr'.symm)
          rw [UInt64.toNat_inj.1 (hsame.eq_of_lt_of_lt high high')]

theorem Converts.unique {z : Value} (h : p.Converts x y) (h' : p.Converts x z) : y = z := by
  cases h with
  | integer _ given reduces =>
      cases h' with
      | integer _ given' reduces' =>
          cases given.symm.trans given'
          exact reduces.unique reduces'
      | address a _ => cases given
  | address a _ =>
      cases h' with
      | integer _ given' _ => cases given'
      | address _ _ => rfl

private theorem Reduces.integer?_eq (h : p.Reduces n y) :
    ∃ k, y.integer? = some k ∧ k ≡ n [ZMOD 2 ^ (8 * p.size)] := by
  cases h with
  | signed _ _ _ congr => exact ⟨_, rfl, congr⟩
  | unsigned _ _ congr => exact ⟨_, rfl, congr⟩

private theorem word?_eq (h : p.isInteger = true) (x : Value) :
    p.word? x = x.integer?.map fun n => (n % 2 ^ 64).toNat := by
  rw [← x.toInt64?_toNat]
  simp [word?, h]

private theorem word?_of_isPointer (h : p.isPointer = true) (x : Value) :
    p.word? x = match x with
      | .pointer a => some a.val.toNat
      | _ => none := by
  cases p <;> first | rfl | cases h

private theorem decode?_of_isPointer (h : p.isPointer = true) (bytes : List UInt8) :
    p.decode? bytes = some (.pointer ⟨UInt64.ofNat (Bytes.decode bytes)⟩) := by
  cases p <;> first | rfl | cases h

private theorem decode?_of_isInteger (h : p.isInteger = true) (bytes : List UInt8) :
    p.decode? bytes = some (if p.isSigned then .int (signExtend p.size (Bytes.decode bytes))
      else .uint (UInt64.ofNat (Bytes.decode bytes))) := by
  cases p <;> first | rfl | cases h

private theorem toInt_signExtend {width half : Nat} (hwidth : Nat.pow 256 width = 2 * half)
    (hpos : 0 < half) (hhalf : half ≤ 2 ^ 63) (n : Nat) :
    (signExtend width n).toInt ≡ n [ZMOD 2 * half] ∧ -half ≤ (signExtend width n).toInt ∧
      (signExtend width n).toInt < half := by
  have hlow := Int.le_bmod (x := n) (m := 2 * half) (by omega)
  have hhigh := Int.bmod_lt (x := n) (m := 2 * half) (by omega)
  have hval : (signExtend width n).toInt = Int.bmod n (2 * half) := by
    rw [signExtend, hwidth]
    exact Int64.toInt_ofInt_of_le (by omega) (by omega)
  refine ⟨?_, by omega, by omega⟩
  rw [hval]
  exact Int.bmod_emod

private theorem decode?_reduces (h : p.isInteger = true)
    (hlen : bytes.length = p.size) :
    ∃ y, p.decode? bytes = some y ∧ p.Reduces (Bytes.decode bytes) y := by
  obtain ⟨hpos, hle⟩ := size_of_isInteger h
  rw [decode?_of_isInteger h]
  cases hsigned : p.isSigned with
  | false =>
      have hlt : Bytes.decode bytes < 2 ^ (8 * p.size) := p.pow_size ▸ hlen ▸ Bytes.decode_lt bytes
      have hword : 2 ^ (8 * p.size) ≤ 2 ^ 64 := Nat.pow_le_pow_right (by decide) (by omega)
      have hval : (UInt64.ofNat (Bytes.decode bytes)).toNat = Bytes.decode bytes :=
        UInt64.toNat_ofNat_of_lt' (hlt.trans_le hword)
      exact ⟨_, rfl, .unsigned hsigned (hval.symm ▸ hlt) (by rw [hval])⟩
  | true =>
      have hhalf : 2 * 2 ^ (8 * p.size - 1) = 2 ^ (8 * p.size) := mul_pow_sub_one (by omega) 2
      have hmax : 2 ^ (8 * p.size - 1) ≤ 2 ^ 63 := Nat.pow_le_pow_right (by decide) (by omega)
      obtain ⟨hcongr, hlow, hhigh⟩ :=
        toInt_signExtend (p.pow_size.trans hhalf.symm) (by positivity) hmax (Bytes.decode bytes)
      refine ⟨_, rfl, .signed hsigned (by exact_mod_cast hlow) (by exact_mod_cast hhigh) ?_⟩
      have hmodulus : 2 * ((2 ^ (8 * p.size - 1) : Nat) : Int) = 2 ^ (8 * p.size) := by
        exact_mod_cast hhalf
      rwa [← hmodulus]

private theorem toNat_emod_congr (h : p.isInteger = true) (n : Int) :
    ((n % 2 ^ 64).toNat : Int) ≡ n [ZMOD 2 ^ (8 * p.size)] := by
  obtain ⟨-, hle⟩ := size_of_isInteger h
  have hdvd : (2 : Int) ^ (8 * p.size) ∣ 2 ^ 64 := pow_dvd_pow 2 (by omega)
  rw [Int.toNat_of_nonneg (Int.emod_nonneg n (by decide))]
  exact (Int.mod_modEq n (2 ^ 64)).of_dvd hdvd

private theorem modEq_size {k k' : Nat} :
    (k : Int) ≡ k' [ZMOD 2 ^ (8 * p.size)] ↔ k % 256 ^ p.size = k' % 256 ^ p.size := by
  rw [pow_size]
  exact_mod_cast Int.natCast_modEq_iff

/-- A word that was stored is read as the value it was converted to. -/
theorem decode?_encode (hp : p.IsWord) (h : p.word? x = some w) :
    ∃ y, p.decode? (Bytes.encode p.size w) = some y ∧ p.Converts x y := by
  rcases hp with hinteger | hpointer
  · rw [word?_eq hinteger, Option.map_eq_some_iff] at h
    obtain ⟨n, hn, rfl⟩ := h
    obtain ⟨y, hy, hreduces⟩ := decode?_reduces hinteger (Bytes.length_encode p.size _)
    refine ⟨y, hy, .integer hinteger hn (hreduces.congr (.trans ?_ (toNat_emod_congr hinteger n)))⟩
    rw [modEq_size, Bytes.decode_encode]
    exact Nat.mod_mod _ _
  · rw [word?_of_isPointer hpointer] at h
    cases x with
    | pointer a =>
        cases h
        have hval : Bytes.decode (Bytes.encode p.size a.val.toNat) = a.val.toNat := by
          rw [Bytes.decode_encode, size_of_isPointer hpointer]
          exact Nat.mod_eq_of_lt a.val.toNat_lt
        refine ⟨.pointer a, ?_, .address a hpointer⟩
        rw [decode?_of_isPointer hpointer, hval, UInt64.ofNat_toNat]
    | _ => cases h

/-- A value that was read is stored as the bytes that it was read from. -/
theorem encode_word? (hp : p.IsWord) (hlen : bytes.length = p.size)
    (h : p.decode? bytes = some y) :
    ∃ w, p.word? y = some w ∧ Bytes.encode p.size w = bytes := by
  have hbytes : Bytes.encode p.size (Bytes.decode bytes) = bytes :=
    hlen ▸ Bytes.encode_decode bytes
  rcases hp with hinteger | hpointer
  · obtain ⟨y', hy', hreduces⟩ := decode?_reduces hinteger hlen
    cases hy'.symm.trans h
    obtain ⟨n, hn, hcongr⟩ := hreduces.integer?_eq
    refine ⟨(n % 2 ^ 64).toNat, by rw [word?_eq hinteger, hn]; rfl, ?_⟩
    have hsame := modEq_size.1 ((toNat_emod_congr hinteger n).trans hcongr)
    exact (Bytes.encode_congr hsame).trans hbytes
  · rw [decode?_of_isPointer hpointer] at h
    cases h
    have hlt : Bytes.decode bytes < 2 ^ 64 := by
      have hdecode := Bytes.decode_lt bytes
      rwa [hlen, size_of_isPointer hpointer] at hdecode
    refine ⟨_, word?_of_isPointer hpointer _, ?_⟩
    rwa [UInt64.toNat_ofNat_of_lt' hlt]

end Prim

end ForeignBinding
