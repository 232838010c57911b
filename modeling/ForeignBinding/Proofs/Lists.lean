import ForeignBinding.Library.Platform

/-!
# Places and repetitions in lists

A list that is split at an element is a list with a place in it, and what is numbered from a number
on is the first or numbered from the next on. Where only what is new is added to a list, repetitions
are left out, and they still are when every element is expanded.
-/

namespace ForeignBinding

theorem exists_split_iff {α : Type} {l : List α} {x : α} {P : List α → List α → Prop} :
    (∃ before after, l = before ++ x :: after ∧ P before after) ↔
      ∃ i, l[i]? = some x ∧ P (l.take i) (l.drop (i + 1)) := by
  constructor
  · rintro ⟨before, after, rfl, h⟩
    refine ⟨before.length, by simp, ?_⟩
    simpa using h
  · rintro ⟨i, hi, h⟩
    obtain ⟨hlt, rfl⟩ := List.getElem?_eq_some_iff.1 hi
    exact ⟨l.take i, l.drop (i + 1), by simp, h⟩

theorem exists_numbered_iff {α : Type} {x : α} {numbered : Nat → α} {p : Nat → Prop} {index : Nat} :
    (∃ i, x = numbered (index + i) ∧ p i) ↔
      x = numbered index ∧ p 0 ∨ ∃ i, x = numbered (index + 1 + i) ∧ p (i + 1) := by
  rw [← Nat.or_exists_add_one]
  simp only [Nat.add_zero, Nat.add_assoc, Nat.add_comm 1]

namespace Platform

variable {xs ys : List String} {x : String}

theorem addNew_of_mem (h : x ∈ xs) : addNew xs x = xs :=
  if_pos (List.contains_iff_mem.2 h)

theorem addNew_of_not_mem (h : x ∉ xs) : addNew xs x = xs ++ [x] :=
  if_neg (mt List.contains_iff_mem.1 h)

theorem mem_foldl_addNew : x ∈ ys.foldl addNew xs ↔ x ∈ xs ∨ x ∈ ys := by
  induction ys generalizing xs with
  | nil => simp
  | cons y ys ih =>
      rw [List.foldl_cons, ih]
      by_cases hy : y ∈ xs
      · rw [addNew_of_mem hy, List.mem_cons]
        constructor
        · exact fun h => h.imp_right .inr
        · rintro (h | rfl | h)
          · exact .inl h
          · exact .inl hy
          · exact .inr h
      · rw [addNew_of_not_mem hy]
        simp [or_assoc]

theorem foldl_addNew_of_subset (h : ys ⊆ xs) : ys.foldl addNew xs = xs := by
  induction ys with
  | nil => rfl
  | cons y ys ih =>
      rw [List.cons_subset] at h
      rw [List.foldl_cons, addNew_of_mem h.1, ih h.2]

theorem nodup_foldl_addNew (h : xs.Nodup) : (ys.foldl addNew xs).Nodup := by
  induction ys generalizing xs with
  | nil => exact h
  | cons y ys ih =>
      apply ih
      by_cases hy : y ∈ xs
      · rwa [addNew_of_mem hy]
      · rw [addNew_of_not_mem hy, List.nodup_append]
        refine ⟨h, by simp, ?_⟩
        rintro a ha b hb rfl
        exact hy (List.mem_singleton.1 hb ▸ ha)

/-- Names that are left out as repetitions would only add repetitions when expanded. -/
theorem foldl_addNew_flatMap (expand : String → List String) :
    ((ys.foldl addNew xs).flatMap expand).foldl addNew [] =
      (ys.flatMap expand).foldl addNew ((xs.flatMap expand).foldl addNew []) := by
  induction ys generalizing xs with
  | nil => rfl
  | cons y ys ih =>
      have hstep : ((addNew xs y).flatMap expand).foldl addNew [] =
          (expand y).foldl addNew ((xs.flatMap expand).foldl addNew []) := by
        by_cases hy : y ∈ xs
        · have hold : expand y ⊆ (xs.flatMap expand).foldl addNew [] := by
            intro z hz
            exact mem_foldl_addNew.2 (.inr (List.mem_flatMap.2 ⟨y, hy, hz⟩))
          rw [addNew_of_mem hy, foldl_addNew_of_subset hold]
        · rw [addNew_of_not_mem hy, List.flatMap_append, List.foldl_append, List.flatMap_singleton]
      rw [List.foldl_cons, ih, hstep, List.flatMap_cons, List.foldl_append]

private theorem eraseDups_loop (names kept : List String) :
    List.eraseDupsBy.loop (· == ·) names kept = names.foldl addNew kept.reverse := by
  induction names generalizing kept with
  | nil => rfl
  | cons n names ih =>
      have hany : kept.any (n == ·) = kept.reverse.contains n := by
        rw [List.any_beq, List.contains_reverse]
      rw [List.foldl_cons, addNew, ← hany, List.eraseDupsBy.loop]
      cases kept.any (n == ·) with
      | true => exact ih kept
      | false => simpa using ih (n :: kept)

theorem foldl_addNew_eq_eraseDups (xs : List String) : xs.foldl addNew [] = xs.eraseDups :=
  (eraseDups_loop xs []).symm

end Platform

end ForeignBinding
