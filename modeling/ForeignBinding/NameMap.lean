/-!
# Maps from names

A finite map whose keys are names, kept in increasing order of code points. Looking up after an
insertion gives the inserted value at its name and what was there before at every other name.
-/

namespace ForeignBinding

/-- Puts `value` under `name`, in order, replacing what stood there. -/
def insertSorted {α : Type} (name : String) (value : α) :
    List (String × α) → List (String × α)
  | [] => [(name, value)]
  | (k, v) :: rest =>
      if name < k then (name, value) :: (k, v) :: rest
      else if name = k then (name, value) :: rest
      else (k, v) :: insertSorted name value rest

theorem mem_keys_insertSorted {α : Type} {name : String} {value : α} {entries : List (String × α)}
    {e : String × α} (h : e ∈ insertSorted name value entries) :
    e.1 = name ∨ e ∈ entries := by
  induction entries with
  | nil => simp_all [insertSorted]
  | cons kv rest ih =>
      obtain ⟨k, v⟩ := kv
      simp only [insertSorted] at h
      split at h
      · simp only [List.mem_cons] at h
        rcases h with rfl | h | h <;> simp_all
      · split at h
        · simp only [List.mem_cons] at h
          rcases h with rfl | h <;> simp_all
        · simp only [List.mem_cons] at h
          rcases h with rfl | h
          · simp
          · rcases ih h with h | h <;> simp_all

theorem pairwise_insertSorted {α : Type} (name : String) (value : α)
    {entries : List (String × α)} (h : entries.Pairwise (·.1 < ·.1)) :
    (insertSorted name value entries).Pairwise (·.1 < ·.1) := by
  induction entries with
  | nil => simp [insertSorted]
  | cons kv rest ih =>
      obtain ⟨k, v⟩ := kv
      rw [List.pairwise_cons] at h
      simp only [insertSorted]
      split
      · rename_i hlt
        refine List.pairwise_cons.2 ⟨?_, List.pairwise_cons.2 h⟩
        intro e he
        rcases List.mem_cons.1 he with rfl | he
        · exact hlt
        · exact String.lt_trans hlt (h.1 e he)
      · split
        · rename_i heq
          subst heq
          exact List.pairwise_cons.2 h
        · rename_i hlt hne
          refine List.pairwise_cons.2 ⟨?_, ih h.2⟩
          intro e he
          rcases mem_keys_insertSorted he with he | he
          · rw [he]
            exact Std.lt_of_le_of_ne (Std.not_lt.1 hlt) (fun hk => hne hk.symm)
          · exact h.1 e he

/-- A finite map from names, its entries in increasing order of their names. -/
structure NameMap (α : Type) where
  entries : List (String × α)
  sorted : entries.Pairwise (·.1 < ·.1)

namespace NameMap

variable {α : Type}

def empty : NameMap α := ⟨[], .nil⟩

instance : Inhabited (NameMap α) := ⟨empty⟩

def get? (m : NameMap α) (name : String) : Option α :=
  m.entries.lookup name

/-- The map with `value` under `name`, whatever stood there. -/
def insert (m : NameMap α) (name : String) (value : α) : NameMap α :=
  ⟨insertSorted name value m.entries, pairwise_insertSorted name value m.sorted⟩

/-- Inserts the pairs one after the other, so that of two with one name the last stays. -/
def insertAll (m : NameMap α) (pairs : List (String × α)) : NameMap α :=
  pairs.foldl (fun m p => m.insert p.1 p.2) m

/-- The map of the given pairs; of two with one name the last stays. -/
def ofList (pairs : List (String × α)) : NameMap α :=
  empty.insertAll pairs

/-- The names, in increasing order. -/
def names (m : NameMap α) : List String :=
  m.entries.map (·.1)

theorem lookup_insertSorted (name other : String) (value : α) (entries : List (String × α)) :
    (insertSorted name value entries).lookup other =
      if other = name then some value else entries.lookup other := by
  induction entries with
  | nil =>
      by_cases h : other = name
      · simp [insertSorted, h]
      · have h' : (other == name) = false := by simp [h]
        simp [insertSorted, List.lookup_cons, h, h']
  | cons kv rest ih =>
      obtain ⟨k, v⟩ := kv
      simp only [insertSorted]
      split
      · by_cases h : other = name
        · simp [h]
        · have h' : (other == name) = false := by simp [h]
          simp [List.lookup_cons, h, h']
      · split
        · rename_i heq
          subst heq
          by_cases h : other = name
          · simp [h]
          · have h' : (other == name) = false := by simp [h]
            simp [List.lookup_cons, h, h']
        · rename_i hne
          by_cases hk : other = k
          · subst hk
            have : ¬ other = name := fun h => hne h.symm
            simp [this]
          · have hk' : (other == k) = false := by simp [hk]
            simp [List.lookup_cons, hk', ih]

@[simp]
theorem get?_insert (m : NameMap α) (name other : String) (value : α) :
    (m.insert name value).get? other = if other = name then some value else m.get? other :=
  lookup_insertSorted name other value m.entries

/-- What holds of an inserted value and of all before it holds of all values. -/
theorem forall_insert {m : NameMap α} {P : α → Prop} {name : String} {value : α} (hvalue : P value)
    (h : ∀ n v, m.get? n = some v → P v) : ∀ n v, (m.insert name value).get? n = some v → P v := by
  intro n v hv
  rw [get?_insert] at hv
  split at hv
  · cases hv
    exact hvalue
  · exact h n v hv

@[simp]
theorem get?_empty (name : String) : (empty : NameMap α).get? name = none := rfl

/-- Where no key is repeated, the pair of a key is found. -/
theorem lookup_eq_some_iff_mem {entries : List (String × α)} (h : entries.Pairwise (·.1 ≠ ·.1))
    {name : String} {value : α} :
    entries.lookup name = some value ↔ (name, value) ∈ entries := by
  induction entries with
  | nil => simp
  | cons e rest ih =>
      obtain ⟨k, v⟩ := e
      obtain ⟨hfirst, hrest⟩ := List.pairwise_cons.1 h
      by_cases hname : name = k
      · have hnot : (name, value) ∉ rest := fun hmem => hfirst _ hmem hname.symm
        subst hname
        simp [hnot, eq_comm]
      · have hbeq : (name == k) = false := by simp [hname]
        simp [List.lookup_cons, hbeq, hname, ih hrest]

theorem pairwise_ne (m : NameMap α) : m.entries.Pairwise (·.1 ≠ ·.1) := by
  apply m.sorted.imp
  intro e e' hlt heq
  rw [heq] at hlt
  exact String.lt_irrefl _ hlt

theorem get?_eq_some_iff (m : NameMap α) {name : String} {value : α} :
    m.get? name = some value ↔ (name, value) ∈ m.entries :=
  lookup_eq_some_iff_mem m.pairwise_ne

theorem lookup_eq_none_of_lt {name : String} {entries : List (String × α)}
    (h : ∀ e ∈ entries, name < e.1) : entries.lookup name = none := by
  rw [List.lookup_eq_none_iff]
  intro e he
  have hne : name ≠ e.1 := fun heq => String.lt_irrefl _ (heq ▸ h e he)
  simp [hne]

/-- Maps that have corresponding values under all names have corresponding entries. -/
theorem map_entries_eq {β γ : Type} {m : NameMap α} {m' : NameMap β} {f : String × α → γ}
    {g : String × β → γ}
    (h : ∀ name, (m.get? name).map (fun x => f (name, x)) =
      (m'.get? name).map fun y => g (name, y)) :
    m.entries.map f = m'.entries.map g := by
  obtain ⟨es, hes⟩ := m
  obtain ⟨es', hes'⟩ := m'
  simp only [get?] at h ⊢
  induction es generalizing es' with
  | nil =>
      cases es' with
      | nil => rfl
      | cons e' rest' =>
          obtain ⟨k', y⟩ := e'
          simpa using h k'
  | cons e rest ih =>
      obtain ⟨k, x⟩ := e
      cases es' with
      | nil => simpa using h k
      | cons e' rest' =>
          obtain ⟨k', y⟩ := e'
          obtain ⟨hfirst, hrest⟩ := List.pairwise_cons.1 hes
          obtain ⟨hfirst', hrest'⟩ := List.pairwise_cons.1 hes'
          -- The smaller of two first names would be missing on the other side.
          have hk : k = k' := by
            by_cases hlt : k < k'
            · have hnone : List.lookup k ((k', y) :: rest') = none :=
                lookup_eq_none_of_lt <| List.forall_mem_cons.2
                  ⟨hlt, fun e he => String.lt_trans hlt (hfirst' e he)⟩
              simpa [hnone] using h k
            · by_cases heq : k = k'
              · exact heq
              · have hgt : k' < k := Std.lt_of_le_of_ne (Std.not_lt.1 hlt) (Ne.symm heq)
                have hnone : List.lookup k' ((k, x) :: rest) = none :=
                  lookup_eq_none_of_lt <| List.forall_mem_cons.2
                    ⟨hgt, fun e he => String.lt_trans hgt (hfirst e he)⟩
                simpa [hnone] using h k'
          subst hk
          have hhead : f (k, x) = g (k, y) := by simpa using h k
          rw [List.map_cons, List.map_cons, hhead, ih hrest rest' hrest']
          intro name
          by_cases hname : name = k
          · subst hname
            rw [lookup_eq_none_of_lt hfirst, lookup_eq_none_of_lt hfirst']
            rfl
          · have hbeq : (name == k) = false := by simp [hname]
            simpa [List.lookup_cons, hbeq] using h name

theorem eq_of_get? {m m' : NameMap α} (h : ∀ name, m.get? name = m'.get? name) : m = m' := by
  have hentries : m.entries.map id = m'.entries.map id :=
    map_entries_eq fun name => by rw [h name]
  obtain ⟨es, hes⟩ := m
  obtain ⟨es', hes'⟩ := m'
  obtain rfl : es = es' := by simpa using hentries
  rfl

/-- As no name is repeated, it does not matter from which end a map is searched. -/
theorem lookup_reverse (m : NameMap α) (name : String) :
    m.entries.reverse.lookup name = m.get? name := by
  apply Option.ext
  intro value
  have hreverse : m.entries.reverse.Pairwise (·.1 ≠ ·.1) :=
    List.pairwise_reverse.2 (m.pairwise_ne.imp Ne.symm)
  rw [lookup_eq_some_iff_mem hreverse, List.mem_reverse, get?_eq_some_iff]

/-- The last of the pairs with a name is found, else what was there before. -/
theorem get?_insertAll (m : NameMap α) (pairs : List (String × α)) (name : String) :
    (m.insertAll pairs).get? name = (pairs.reverse.lookup name).or (m.get? name) := by
  induction pairs generalizing m with
  | nil => rfl
  | cons p pairs ih =>
      obtain ⟨k, v⟩ := p
      have hrest : m.insertAll ((k, v) :: pairs) = (m.insert k v).insertAll pairs := rfl
      have hfirst : ((m.insert k v).get? name) = (List.lookup name [(k, v)]).or (m.get? name) := by
        by_cases hname : name = k
        · simp [hname]
        · have hbeq : (name == k) = false := by simp [hname]
          simp [List.lookup_cons, hname, hbeq]
      rw [hrest, ih, hfirst, List.reverse_cons, List.lookup_append, Option.or_assoc]

end NameMap

end ForeignBinding
