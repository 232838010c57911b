import ForeignBinding.Proofs.Library.Resolution

/-!
# File names are kept

Decorating the name of a library twice is decorating it once, and so is expanding alternatives into
the names to try. A name with a directory is left alone; any other has the platform's lead and
ending around it afterwards.
-/

namespace ForeignBinding.Platform

private theorem eq_append_of_mem_behindMatches {pattern rest : List Char} {skipped : Nat}
    {text : List Char} (h : rest ∈ behindMatches pattern skipped text) :
    ∃ before, text = before ++ pattern ++ rest := by
  induction text generalizing skipped with
  | nil => cases skipped <;> cases h
  | cons c text ih =>
      have hlater : ∀ {skipped}, rest ∈ behindMatches pattern skipped text →
          ∃ before, c :: text = before ++ pattern ++ rest := by
        intro skipped h
        obtain ⟨before, rfl⟩ := ih h
        exact ⟨c :: before, rfl⟩
      cases skipped with
      | succ skipped => exact hlater h
      | zero =>
          rw [behindMatches] at h
          split at h
          · rename_i hmatch
            obtain ⟨behind, hbehind⟩ := List.isPrefixOf_iff_prefix.1 hmatch
            rcases List.mem_cons.1 h with rfl | h
            · exact ⟨[], by rw [← hbehind, List.drop_left, List.nil_append]⟩
            · exact hlater h
          · exact hlater h

/-- A pattern whose first character does not come again in it cannot overlap itself. So it is matched
wherever it stands, if nothing is skipped at which a match could start. -/
theorem mem_behindMatches {first : Char} {pattern : List Char} (hfirst : first ∉ pattern)
    {before rest : List Char} {skipped : Nat}
    (hskipped : first ∉ (before ++ (first :: pattern) ++ rest).take skipped) :
    rest ∈ behindMatches (first :: pattern) skipped (before ++ (first :: pattern) ++ rest) := by
  induction before generalizing skipped with
  | nil =>
      cases skipped with
      | succ skipped => exact absurd List.mem_cons_self hskipped
      | zero =>
          have hmatch : (first :: pattern).isPrefixOf (first :: pattern ++ rest) :=
            List.isPrefixOf_iff_prefix.2 (List.prefix_append ..)
          rw [List.nil_append, List.cons_append, behindMatches, ← List.cons_append, if_pos hmatch,
            List.drop_left]
          exact List.mem_cons_self
  | cons c before ih =>
      rw [List.cons_append, List.cons_append] at hskipped ⊢
      cases skipped with
      | succ skipped => exact ih fun h => hskipped (List.mem_cons_of_mem _ h)
      | zero =>
          rw [behindMatches]
          split
          · rename_i hmatch
            obtain ⟨behind, hbehind⟩ := List.isPrefixOf_iff_prefix.1 hmatch
            have hrest : pattern ++ behind = before ++ first :: pattern ++ rest :=
              (List.cons.inj hbehind).2
            apply List.mem_cons_of_mem
            apply ih
            rwa [← hrest, List.length_cons, Nat.add_sub_cancel, List.take_left]
          · exact ih (by simp)

private theorem exists_of_hasEnding {p : Platform} {name : List Char} (h : p.hasEnding name) :
    ∃ before rest, name = before ++ '.' :: p.ending ++ rest ∧
      (rest = [] ∨ p.versioned ∧ isVersion rest) := by
  unfold hasEnding at h
  split at h
  · rename_i hversioned
    obtain ⟨rest, hrest, hversion⟩ := List.any_eq_true.1 h
    obtain ⟨before, hname⟩ := eq_append_of_mem_behindMatches hrest
    exact ⟨before, rest, hname, .inr ⟨hversioned, hversion⟩⟩
  · obtain ⟨before, hname⟩ := List.isSuffixOf_iff_suffix.1 h
    exact ⟨before, [], by rw [List.append_nil, hname], .inl rfl⟩

/-- Where no dot stands in the ending itself, no match can hide another. -/
theorem hasEnding_iff {p : Platform} (hdot : '.' ∉ p.ending) {name : List Char} :
    p.hasEnding name ↔
      ∃ before rest, name = before ++ '.' :: p.ending ++ rest ∧
        (rest = [] ∨ p.versioned ∧ isVersion rest) := by
  refine ⟨exists_of_hasEnding, ?_⟩
  rintro ⟨before, rest, rfl, hrest⟩
  unfold hasEnding
  split
  · have hversion : isVersion rest := by
      rcases hrest with rfl | hrest
      · rfl
      · exact hrest.2
    exact List.any_eq_true.2 ⟨rest, mem_behindMatches hdot (by simp), hversion⟩
  · rename_i hversioned
    have hend : rest = [] := hrest.resolve_right fun h => hversioned h.1
    rw [hend, List.append_nil]
    exact List.isSuffixOf_iff_suffix.2 (List.suffix_append ..)

-- With a dot in the ending a match can: here the first of two hides the second, which is at the end.
example : ¬ hasEnding ⟨[], "a.a".toList, [], true⟩ ".a.a.a".toList := by
  decide

private theorem hasEnding_append {p : Platform} (hdot : '.' ∉ p.ending) (name : List Char) :
    p.hasEnding (name ++ '.' :: p.ending) :=
  (hasEnding_iff hdot).2 ⟨name, [], (List.append_nil _).symm, .inl rfl⟩

private theorem length_lt_of_hasEnding {p : Platform} {name : List Char} (h : p.hasEnding name) :
    p.ending.length < name.length := by
  obtain ⟨before, rest, rfl, -⟩ := exists_of_hasEnding h
  simp only [List.length_append, List.length_cons]
  omega

/-- The name with the platform's lead in front. -/
private def led (p : Platform) (name : List Char) : List Char :=
  if p.lead.isPrefixOf name then name else p.lead ++ name

section

variable (p : Platform) (name : List Char)

private theorem decorate_eq :
    p.decorate name =
      if p.hasEnding (p.led name) then p.led name else p.led name ++ '.' :: p.ending := rfl

private theorem lead_isPrefix_led : p.lead <+: p.led name := by
  unfold led
  split
  · rename_i h
    exact List.isPrefixOf_iff_prefix.1 h
  · exact List.prefix_append ..

private theorem isSuffix_led : name <:+ p.led name := by
  unfold led
  split
  · exact List.suffix_rfl
  · exact List.suffix_append ..

private theorem led_isPrefix_decorate : p.led name <+: p.decorate name := by
  rw [decorate_eq]
  split
  · exact List.prefix_rfl
  · exact List.prefix_append ..

private theorem lead_isPrefix_decorate : p.lead <+: p.decorate name :=
  (p.lead_isPrefix_led name).trans (p.led_isPrefix_decorate name)

private theorem isInfix_decorate : name <:+: p.decorate name :=
  (p.isSuffix_led name).isInfix.trans (p.led_isPrefix_decorate name).isInfix

variable {p} in
private theorem hasEnding_decorate (hdot : '.' ∉ p.ending) : p.hasEnding (p.decorate name) := by
  rw [decorate_eq]
  split
  · assumption
  · exact hasEnding_append hdot _

variable {p name}

private theorem decorate_of_decorated (hlead : p.lead <+: name) (hending : p.hasEnding name) :
    p.decorate name = name := by
  have hled : p.led name = name := if_pos (List.isPrefixOf_iff_prefix.2 hlead)
  rw [decorate_eq, hled, if_pos hending]

private theorem decorate_decorate (hdot : '.' ∉ p.ending) :
    p.decorate (p.decorate name) = p.decorate name :=
  decorate_of_decorated (p.lead_isPrefix_decorate name) (hasEnding_decorate name hdot)

private theorem mem_decorate {c : Char} (h : c ∈ p.decorate name) :
    c ∈ p.lead ∨ c ∈ name ∨ c = '.' ∨ c ∈ p.ending := by
  have hled : ∀ c, c ∈ p.led name → c ∈ p.lead ∨ c ∈ name := by
    intro c hc
    unfold led at hc
    split at hc
    · exact .inr hc
    · exact List.mem_append.1 hc
  rw [decorate_eq] at h
  split at h
  · rcases hled c h with h | h <;> simp [h]
  · rw [List.mem_append, List.mem_cons] at h
    rcases h with h | h | h
    · rcases hled c h with h | h <;> simp [h]
    · simp [h]
    · simp [h]

end

private theorem isBare_iff {name : List Char} :
    isBare name ↔ '/' ∉ name ∧ name ≠ [] ∧ name ≠ ['.'] ∧ name ≠ ['.', '.'] := by
  simp [isBare, and_assoc]

/-- What the naming of files relies on: neither lead nor ending leads into a directory, the only dot
of an ending is the one in front of it, and the file of the C library is named like any other. -/
structure IsRegular (p : Platform) : Prop where
  lead : '/' ∉ p.lead
  ending : '/' ∉ p.ending
  dot : '.' ∉ p.ending
  length_ending : 2 ≤ p.ending.length
  libc_isBare : isBare p.libc
  decorate_libc : p.decorate p.libc = p.libc

private theorem isRegular {p : Platform} (hp : p ∈ [linux, macos, windows]) : p.IsRegular := by
  simp only [List.mem_cons, List.not_mem_nil, or_false] at hp
  rcases hp with rfl | rfl | rfl
  all_goals exact ⟨by decide, by decide, by decide, by decide, by decide, by decide⟩

variable {p : Platform}

private theorem decorate_ne (hp : p.IsRegular) (name : List Char) {short : List Char}
    (h : short.length ≤ 2) : p.decorate name ≠ short := by
  rintro rfl
  have hending := hp.length_ending
  have hlength := length_lt_of_hasEnding (hasEnding_decorate name hp.dot)
  omega

private theorem isBare_decorate (hp : p.IsRegular) {name : List Char} (h : '/' ∉ name) :
    isBare (p.decorate name) := by
  rw [isBare_iff]
  refine ⟨?_, decorate_ne hp name (by simp), decorate_ne hp name (by simp),
    decorate_ne hp name (by simp)⟩
  intro hslash
  rcases mem_decorate hslash with hlead | hname | hdot | hending
  · exact hp.lead hlead
  · exact h hname
  · exact absurd hdot (by decide)
  · exact hp.ending hending

private theorem mapName_of_isBare {name : List Char} (h : isBare name) (hc : name ≠ ['c']) :
    p.mapName name = p.decorate name := by
  simp only [mapName, if_neg hc, if_pos h]

private theorem mapName_of_not_isBare {name : List Char} (h : ¬ isBare name) :
    p.mapName name = name := by
  have hc : name ≠ ['c'] := by
    rintro rfl
    exact h rfl
  simp only [mapName, if_neg hc, if_neg h]

private theorem mapName_libc (hp : p.IsRegular) : p.mapName ['c'] = p.libc := by
  simp only [mapName, if_true, if_pos hp.libc_isBare, hp.decorate_libc]

private theorem mapName_decorate (hp : p.IsRegular) {name : List Char} (h : '/' ∉ name) :
    p.mapName (p.decorate name) = p.decorate name := by
  have hc : p.decorate name ≠ ['c'] := decorate_ne hp name (by simp)
  rw [mapName_of_isBare (isBare_decorate hp h) hc, decorate_decorate hp.dot]

private theorem mapName_mapName (hp : p.IsRegular) (name : List Char) :
    p.mapName (p.mapName name) = p.mapName name := by
  by_cases hc : name = ['c']
  · have hslash := (isBare_iff.1 hp.libc_isBare).1
    rw [hc, mapName_libc hp, ← hp.decorate_libc, mapName_decorate hp hslash]
  · by_cases h : isBare name
    · rw [mapName_of_isBare h hc, mapName_decorate hp (isBare_iff.1 h).1]
    · rw [mapName_of_not_isBare h, mapName_of_not_isBare h]

private theorem toList_fileName (p : Platform) (name : String) :
    (p.fileName name).toList = p.mapName name.toList := by
  simp [fileName]

private theorem fileName_fileName (hp : p.IsRegular) (name : String) :
    p.fileName (p.fileName name) = p.fileName name := by
  rw [fileName, toList_fileName, mapName_mapName hp, fileName]

private theorem nodup_candidates (p : Platform) (names : List String) :
    (p.candidates names).Nodup :=
  nodup_foldl_addNew List.nodup_nil

/-- The names to try for the names to try are those themselves. -/
theorem candidates_candidates (hp : p.IsRegular) (names : List String) :
    p.candidates (p.candidates names) = p.candidates names := by
  let expand := fun n => [n, p.fileName n]
  -- A file name expands to itself alone, so behind a name it adds nothing.
  have hname : ∀ n kept, ((expand n).flatMap expand).foldl addNew kept =
      (expand n).foldl addNew kept := by
    intro n kept
    have hagain : [p.fileName n, p.fileName n] ⊆ (expand n).foldl addNew kept := by
      intro m hm
      exact mem_foldl_addNew.2 (.inr (by simp_all [expand]))
    have hexpand : (expand n).flatMap expand = expand n ++ [p.fileName n, p.fileName n] := by
      simp [expand, fileName_fileName hp]
    rw [hexpand, List.foldl_append, foldl_addNew_of_subset hagain]
  have hnames : ∀ kept, ((names.flatMap expand).flatMap expand).foldl addNew kept =
      (names.flatMap expand).foldl addNew kept := by
    induction names with
    | nil => exact fun _ => rfl
    | cons n names ih =>
        intro kept
        rw [List.flatMap_cons, List.flatMap_append, List.foldl_append, hname, ih,
          List.foldl_append]
  calc p.candidates (p.candidates names)
      = ((names.flatMap expand).flatMap expand).foldl addNew [] := foldl_addNew_flatMap expand
    _ = p.candidates names := hnames []

/-- A library has one file name, that of its file name too. It is the name itself where that has a
directory or is no name of a file, and else has the platform's lead and ending around the name. The
names to try are each name and its file name, without repetition; to try these again adds none. -/
theorem fileNames_closed {p : Platform} (hp : p ∈ [linux, macos, windows]) :
    (∀ name, p.fileName (p.fileName name) = p.fileName name) ∧
      (∀ name : String, '/' ∈ name.toList ∨ name ∈ ["", ".", ".."] → p.fileName name = name) ∧
      (∀ name : String, '/' ∉ name.toList → name ∉ ["", ".", "..", "c"] →
        p.lead <+: (p.fileName name).toList ∧ name.toList <:+: (p.fileName name).toList ∧
          p.hasEnding (p.fileName name).toList) ∧
      ∀ names, (p.candidates names).Nodup ∧
        p.candidates names = (names.flatMap fun n => [n, p.fileName n]).eraseDups ∧
        p.candidates (p.candidates names) = p.candidates names := by
  have hregular := isRegular hp
  refine ⟨fileName_fileName hregular, ?_, ?_, fun names => ⟨p.nodup_candidates names,
    p.candidates_eq_eraseDups names, candidates_candidates hregular names⟩⟩
  · intro name h
    have hbare : ¬ isBare name.toList := by
      rw [isBare_iff]
      rintro ⟨hslash, hempty, hdot, hdots⟩
      rcases h with h | h
      · exact hslash h
      · simp only [List.mem_cons, List.not_mem_nil, or_false] at h
        rcases h with rfl | rfl | rfl
        · exact hempty rfl
        · exact hdot rfl
        · exact hdots rfl
    rw [fileName, mapName_of_not_isBare hbare, String.ofList_toList]
  · intro name hslash hname
    have hne : ∀ other : String, other ∈ ["", ".", "..", "c"] → name.toList ≠ other.toList := by
      intro other hother h
      exact hname (String.toList_inj.1 h ▸ hother)
    have hbare : isBare name.toList :=
      isBare_iff.2 ⟨hslash, hne "" (by simp), hne "." (by simp), hne ".." (by simp)⟩
    rw [toList_fileName, mapName_of_isBare hbare (hne "c" (by simp))]
    exact ⟨p.lead_isPrefix_decorate _, p.isInfix_decorate _,
      hasEnding_decorate _ hregular.dot⟩

/-- The ending in the middle of a name is none, but in front of a version it is. -/
theorem fileNames_closed_versions :
    linux ∈ [linux, macos, windows] ∧ linux.fileName "a.so.b" = "liba.so.b.so" ∧
      linux.fileName "liba.so.b.so" = "liba.so.b.so" ∧
      linux.fileName "./a" = "./a" ∧
      linux.hasEnding (linux.fileName "a.so.1").toList ∧
      linux.fileName "a.so.1" = "liba.so.1" ∧
      linux.candidates ["a.so.b", "c"] = ["a.so.b", "liba.so.b.so", "c", "libc.so.6"] ∧
      linux.candidates ["a.so.b", "liba.so.b.so", "c", "libc.so.6"] =
        ["a.so.b", "liba.so.b.so", "c", "libc.so.6"] := by
  have hlinux : linux ∈ [linux, macos, windows] := by simp
  obtain ⟨htwice, hkept, hdecorated, hcandidates⟩ := fileNames_closed hlinux
  have hname : linux.fileName "a.so.b" = "liba.so.b.so" := by decide +kernel
  have htried : linux.candidates ["a.so.b", "c"] =
      ["a.so.b", "liba.so.b.so", "c", "libc.so.6"] := by decide +kernel
  have hfile := htwice "a.so.b"
  have hagain := (hcandidates ["a.so.b", "c"]).2.2
  rw [hname] at hfile
  rw [htried] at hagain
  exact ⟨hlinux, hname, hfile, hkept "./a" (.inl (by decide)),
    (hdecorated "a.so.1" (by decide) (by decide)).2.2, by decide +kernel, htried, hagain⟩

end ForeignBinding.Platform
