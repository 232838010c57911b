import ForeignBinding.Proofs.Lists
import ForeignBinding.Proofs.Scope.EnumValues

/-!
# Counting in enumerations

The value of an item is the last value that was given up to it, plus the number of items since, as
a signed number of 64 bits; before the first value that was given the items are numbered from 0.
Symbols and values are then found from opposite ends.
-/

namespace ForeignBinding

namespace EnumItem

/-- The value that the item at a position is declared with. -/
def valueAt? (items : List EnumItem) (i : Nat) : Option Int64 :=
  match items[i]? with
  | some (.explicit _ v) => some v
  | _ => none

/-- Of the positions up to `i`, `j` is the last whose item is declared with a value, namely `v`. -/
structure LastValued (items : List EnumItem) (i j : Nat) (v : Int64) : Prop where
  le : j ≤ i
  valued : valueAt? items j = some v
  unvalued : ∀ k, j < k → k ≤ i → valueAt? items k = none

variable {item first : EnumItem} {items rest : List EnumItem} {i j : Nat} {v : Int64}

private theorem value_of_valueAt? (h : valueAt? (first :: rest) 0 = some v) (next : Int64) :
    first.value next = v := by
  cases first with
  | implicit s => cases h
  | explicit s w => exact Option.some.inj h

private theorem value_of_valueAt?_eq_none (h : valueAt? (first :: rest) 0 = none) (next : Int64) :
    first.value next = next := by
  cases first with
  | implicit s => rfl
  | explicit s w => cases h

private theorem LastValued.tail (h : LastValued (first :: rest) (i + 1) (j + 1) v) :
    LastValued rest i j v where
  le := Nat.le_of_succ_le_succ h.le
  valued := h.valued
  unvalued k hj hi := h.unvalued (k + 1) (Nat.succ_lt_succ hj) (Nat.succ_le_succ hi)

private theorem map_enumerate (next : Int64) (items : List EnumItem) :
    (enumerate next items).map (·.1) = items.map symbol := by
  induction items generalizing next with
  | nil => rfl
  | cons first rest ih => rw [enumerate, List.map_cons, ih, List.map_cons]

private theorem exists_enumerate (next : Int64) (hi : items[i]? = some item) :
    ∃ value, (enumerate next items)[i]? = some (item.symbol, value) := by
  have hsymbol : ((enumerate next items).map (·.1))[i]? = some item.symbol := by
    rw [map_enumerate, List.getElem?_map, hi]
    rfl
  rw [List.getElem?_map] at hsymbol
  obtain ⟨p, hp, hname⟩ := Option.map_eq_some_iff.1 hsymbol
  exact ⟨p.2, by rw [hp, ← hname]⟩

private theorem count_succ (next : Int64) (i : Nat) :
    next + 1 + Int64.ofNat i = next + Int64.ofNat (i + 1) := by
  rw [Nat.add_comm i 1, Int64.ofNat_add, Int64.add_assoc]
  rfl

private theorem enumerate_of_unvalued (next : Int64) (hi : items[i]? = some item)
    (h : ∀ k ≤ i, valueAt? items k = none) :
    (enumerate next items)[i]? = some (item.symbol, next + Int64.ofNat i) := by
  induction items generalizing next i with
  | nil => simp at hi
  | cons first rest ih =>
      have hfirst := value_of_valueAt?_eq_none (h 0 (Nat.zero_le i)) next
      rw [enumerate, hfirst]
      cases i with
      | zero =>
          cases hi
          simp
      | succ i =>
          have hrest : ∀ k ≤ i, valueAt? rest k = none := fun k hk => h (k + 1) (by omega)
          rw [List.getElem?_cons_succ, ih (next + 1) hi hrest, count_succ]

/-- Where a value was given, nothing that was counted before matters. -/
theorem enumerate_of_lastValued (next : Int64) (hi : items[i]? = some item)
    (h : LastValued items i j v) :
    (enumerate next items)[i]? = some (item.symbol, v + Int64.ofNat (i - j)) := by
  -- the count is arbitrary until the induction reaches position `j`, where it starts anew
  induction items generalizing next i j with
  | nil => simp at hi
  | cons first rest ih =>
      cases j with
      | zero =>
          rw [enumerate, value_of_valueAt? h.valued next]
          cases i with
          | zero =>
              cases hi
              simp
          | succ i =>
              have hrest : ∀ k ≤ i, valueAt? rest k = none := fun k hk =>
                h.unvalued (k + 1) (by omega) (by omega)
              have hi' : rest[i]? = some item := hi
              rw [List.getElem?_cons_succ, enumerate_of_unvalued (v + 1) hi' hrest, count_succ]
              rfl
      | succ j =>
          cases i with
          | zero => exact absurd h.le (by omega)
          | succ i =>
              rw [enumerate, List.getElem?_cons_succ, ih _ hi h.tail, Nat.succ_sub_succ]

private theorem toInt_count (next : Int64) (n : Nat) :
    (next + Int64.ofNat n).toInt = (next.toInt + n).bmod (2 ^ 64) := by
  rw [Int64.toInt_add, Int64.toInt_ofNat']
  exact Int.add_bmod_bmod

end EnumItem

namespace Enumeration

variable {e : Enumeration} {symbol : String} {value : Int64}

/-- The values in declaration order. -/
def values (e : Enumeration) : List Int64 :=
  e.enumerators.map (·.2)

private theorem find?_iff_last : e.find? symbol = some value ↔
    ∃ i, e.enumerators[i]? = some (symbol, value) ∧ symbol ∉ e.symbols.drop (i + 1) := by
  rw [find?_eq_some_iff, exists_split_iff]
  simp only [symbols, ← List.map_drop, List.mem_map, not_exists, not_and, ne_comm, ne_eq]

private theorem symbolOf?_iff_split : e.symbolOf? value = some symbol ↔
    ∃ earlier later, e.enumerators = earlier ++ (symbol, value) :: later ∧
      ∀ p ∈ earlier, p.2 ≠ value := by
  rw [symbolOf?, Option.map_eq_some_iff]
  constructor
  · rintro ⟨p, hp, rfl⟩
    obtain ⟨hvalue, earlier, later, heq, hearlier⟩ := List.find?_eq_some_iff_append.1 hp
    have hsnd : p.2 = value := by simpa using hvalue
    refine ⟨earlier, later, by rw [heq, ← hsnd], ?_⟩
    intro q hq
    simpa using hearlier q hq
  · rintro ⟨earlier, later, heq, hearlier⟩
    have hbefore : ∀ p ∈ earlier, !(p.2 == value) := fun q hq => by simpa using hearlier q hq
    exact ⟨(symbol, value),
      List.find?_eq_some_iff_append.2 ⟨by simp, earlier, later, heq, hbefore⟩, rfl⟩

private theorem symbolOf?_iff_first : e.symbolOf? value = some symbol ↔
    ∃ i, e.enumerators[i]? = some (symbol, value) ∧ value ∉ e.values.take i := by
  rw [symbolOf?_iff_split, exists_split_iff]
  simp only [values, ← List.map_take, List.mem_map, not_exists, not_and, ne_eq]

private theorem find?_of_symbolOf? (hsymbols : e.symbols.Nodup)
    (h : e.symbolOf? value = some symbol) : e.find? symbol = some value := by
  obtain ⟨earlier, later, heq, -⟩ := symbolOf?_iff_split.1 h
  refine find?_eq_some_iff.2 ⟨earlier, later, heq, ?_⟩
  rw [symbols, heq, List.map_append, List.map_cons] at hsymbols
  have hlater : symbol ∉ later.map (·.1) :=
    (List.nodup_cons.1 (List.nodup_append.1 hsymbols).2.1).1
  rintro p hp rfl
  exact hlater (List.mem_map_of_mem hp)

/-- The items keep their symbols and order. An item's value is congruent to the last value that was
given up to it plus the items since, or to its position if none was given. A symbol is looked up
from the end and a value from the start, and these are inverse where no symbol is repeated. -/
theorem ofItems_counted (name? : Option String) (items : List EnumItem) :
    let e := ofItems name? items
    e.symbols = items.map EnumItem.symbol ∧
    (∀ i item, items[i]? = some item →
      ∃ value, e.enumerators[i]? = some (item.symbol, value) ∧
        (∀ j v, EnumItem.LastValued items i j v →
          value.toInt = (v.toInt + ((i : Int) - j)).bmod (2 ^ 64)) ∧
        ((∀ k ≤ i, EnumItem.valueAt? items k = none) → value.toInt = (i : Int).bmod (2 ^ 64))) ∧
    (∀ symbol value, e.find? symbol = some value ↔
      ∃ i, e.enumerators[i]? = some (symbol, value) ∧ symbol ∉ e.symbols.drop (i + 1)) ∧
    (∀ value symbol, e.symbolOf? value = some symbol ↔
      ∃ i, e.enumerators[i]? = some (symbol, value) ∧ value ∉ e.values.take i) ∧
    (e.symbols.Nodup →
      ∀ value symbol, e.symbolOf? value = some symbol → e.find? symbol = some value) := by
  intro e
  refine ⟨EnumItem.map_enumerate 0 items, ?_, fun _ _ => find?_iff_last,
    fun _ _ => symbolOf?_iff_first, fun hsymbols _ _ => find?_of_symbolOf? hsymbols⟩
  intro i item hi
  obtain ⟨value, hvalue⟩ := EnumItem.exists_enumerate 0 hi
  refine ⟨value, hvalue, fun j v hlast => ?_, fun hnone => ?_⟩
  · have hcount := EnumItem.enumerate_of_lastValued 0 hi hlast
    rw [hvalue, Option.some.injEq, Prod.mk.injEq] at hcount
    rw [hcount.2, EnumItem.toInt_count, Int.ofNat_sub hlast.le]
  · have hcount := EnumItem.enumerate_of_unvalued 0 hi hnone
    rw [hvalue, Option.some.injEq, Prod.mk.injEq] at hcount
    rw [hcount.2, EnumItem.toInt_count, Int64.toInt_zero, Int.zero_add]

end Enumeration

-- After the largest value the count goes on from the least.
namespace Sample

/-- Items around the end of the range. -/
def extremes : List EnumItem :=
  [.implicit "zero", .explicit "most" Int64.maxValue, .implicit "least", .implicit "next",
    .explicit "again" 0]

private theorem extremes_lastValued : EnumItem.LastValued extremes 3 1 Int64.maxValue where
  le := by decide
  valued := rfl
  unvalued k hj hi := by
    obtain rfl | rfl : k = 2 ∨ k = 3 := by omega
    · rfl
    · rfl

end Sample

/-- The second item after the largest value is next to the least one, and of two symbols with the
value 0 the first is shown. -/
theorem Enumeration.ofItems_counted_extremes :
    EnumItem.LastValued Sample.extremes 3 1 Int64.maxValue ∧
    (∃ value, (ofItems none Sample.extremes).enumerators[3]? = some ("next", value) ∧
      value.toInt = -2 ^ 63 + 1) ∧
    (∃ value, (ofItems none Sample.extremes).enumerators[0]? = some ("zero", value) ∧
      value.toInt = 0) ∧
    (ofItems none Sample.extremes).symbols.Nodup ∧
    (ofItems none Sample.extremes).symbolOf? 0 = some "zero" ∧
    (ofItems none Sample.extremes).find? "zero" = some 0 := by
  obtain ⟨hsymbols, hcounted, -, -, hinverse⟩ := ofItems_counted none Sample.extremes
  have hnodup : (ofItems none Sample.extremes).symbols.Nodup := by
    rw [hsymbols]
    decide
  have hshown : (ofItems none Sample.extremes).symbolOf? 0 = some "zero" := rfl
  refine ⟨Sample.extremes_lastValued, ?_, ?_, hnodup, hshown, hinverse hnodup 0 "zero" hshown⟩
  · obtain ⟨value, hvalue, hlast, -⟩ := hcounted 3 (.implicit "next") rfl
    exact ⟨value, hvalue, hlast 1 _ Sample.extremes_lastValued⟩
  · obtain ⟨value, hvalue, -, hnone⟩ := hcounted 0 (.implicit "zero") rfl
    refine ⟨value, hvalue, hnone fun k hk => ?_⟩
    obtain rfl : k = 0 := by omega
    rfl

end ForeignBinding
