import ForeignBinding.Proofs.Lists
import ForeignBinding.Proofs.Manifest.Types

/-!
# Numbers of declarations that fail

An entry that is no declaration is reported by its place among the entries. One that cannot be
carried out is reported by its place among all declarations of the manifest, where libraries and
calling convention, if they are given, come first.
-/

namespace ForeignBinding

open Attempt

namespace Argument

private theorem unexpected_failsOnlyWith (v : Yaml.Value) :
    (unexpected v : Attempt ManifestError Argument).FailsOnlyWith .parse :=
  failsOnlyWith_fail.noting _

private theorem notInteger_failsOnlyWith (shown : String) :
    (notInteger shown : Attempt ManifestError Argument).FailsOnlyWith .parse :=
  failsOnlyWith_fail.noting _

private theorem key_failsOnlyWith (v : Yaml.Value) : (key v).FailsOnlyWith .parse := by
  unfold key
  split
  · exact failsOnlyWith_ok _
  · exact failsOnlyWith_fail.noting _

mutual

private theorem ofValue_failsOnlyWith : ∀ v : Yaml.Value, (ofValue v).FailsOnlyWith .parse
  | .string s => by
      rw [ofValue]
      exact failsOnlyWith_ok _
  | .int n => by
      rw [ofValue]
      split
      · exact failsOnlyWith_ok _
      · exact notInteger_failsOnlyWith _
  | .float bits => by
      rw [ofValue]
      exact notInteger_failsOnlyWith _
  | .sequence vs => by
      rw [ofValue]
      exact (ofValues_failsOnlyWith vs).bind fun _ => failsOnlyWith_ok _
  | .mapping es => by
      rw [ofValue]
      exact (ofEntries_failsOnlyWith es).bind fun _ => failsOnlyWith_ok _
  | .null => by
      rw [ofValue]
      exact unexpected_failsOnlyWith _
  | .bool b => by
      rw [ofValue]
      exact unexpected_failsOnlyWith _
  | .tagged t v => by
      rw [ofValue]
      exact unexpected_failsOnlyWith _

private theorem ofValues_failsOnlyWith : ∀ vs : List Yaml.Value, (ofValues vs).FailsOnlyWith .parse
  | [] => by
      rw [ofValues]
      exact failsOnlyWith_ok _
  | v :: vs => by
      rw [ofValues]
      exact (ofValue_failsOnlyWith v).bind fun _ =>
        (ofValues_failsOnlyWith vs).bind fun _ => failsOnlyWith_ok _

private theorem ofEntries_failsOnlyWith :
    ∀ es : List (Yaml.Value × Yaml.Value), (ofEntries es).FailsOnlyWith .parse
  | [] => by
      rw [ofEntries]
      exact failsOnlyWith_ok _
  | (k, v) :: es => by
      rw [ofEntries]
      exact (key_failsOnlyWith k).bind fun _ => (ofValue_failsOnlyWith v).bind fun _ =>
        (ofEntries_failsOnlyWith es).bind fun _ => failsOnlyWith_ok _

end

end Argument

namespace Manifest

/-- The entry is written as this declaration. -/
def Denotes (v : Yaml.Value) (d : Declaration) : Prop :=
  ∃ kind args, splitEntry v = .ok (kind, args) ∧ Declaration.parse kind args = .ok d

/-- The entry is no declaration. -/
def Meaningless (v : Yaml.Value) : Prop := ∀ d, ¬ Denotes v d

private theorem ofEntry_eq_ok {v : Yaml.Value} {index : Nat} {d : Declaration} :
    ofEntry v index = .ok d ↔ Denotes v d := by
  simp only [ofEntry, Denotes, bind_eq_ok, under_eq_ok, noting_eq_ok, Prod.exists]

private theorem ofEntry_failsWith_iff {v : Yaml.Value} {index : Nat} {cause : ManifestError} :
    (ofEntry v index).FailsWith cause ↔ cause = .declaration index ∧ Meaningless v := by
  have honly : (ofEntry v index).FailsOnlyWith (.declaration index) :=
    (failsOnlyWith_under _).bind fun _ => (failsOnlyWith_under _).noting _
  rw [honly.failsWith_iff]
  apply and_congr_right; intro _
  exact forall_congr' fun d => not_congr ofEntry_eq_ok

private theorem ofEntries_eq_ok {vs : List Yaml.Value} {index : Nat} {ds : List Declaration} :
    ofEntries index vs = .ok ds ↔ List.Forall₂ Denotes vs ds := by
  induction vs generalizing index ds with
  | nil =>
      rw [ofEntries, List.forall₂_nil_left_iff, Except.ok.injEq, eq_comm]
  | cons v vs ih =>
      rw [ofEntries, bind_eq_ok]
      constructor
      · rintro ⟨d, hd, hrest⟩
        obtain ⟨ds', hds, heq⟩ := bind_eq_ok.1 hrest
        cases heq
        exact .cons (ofEntry_eq_ok.1 hd) (ih.1 hds)
      · rintro (_ | ⟨hd, hds⟩)
        exact ⟨_, ofEntry_eq_ok.2 hd, bind_eq_ok.2 ⟨_, ih.2 hds, rfl⟩⟩

/-- The entry of this number is no declaration, and those in front of it are. -/
structure FirstMeaningless (vs : List Yaml.Value) (i : Nat) : Prop where
  before : ∀ v ∈ vs.take i, ∃ d, Denotes v d
  entry : ∃ v, vs[i]? = some v ∧ Meaningless v

private theorem firstMeaningless_cons_zero {v : Yaml.Value} {vs : List Yaml.Value} :
    FirstMeaningless (v :: vs) 0 ↔ Meaningless v := by
  constructor
  · rintro ⟨-, u, hu, h⟩
    cases hu
    exact h
  · intro h
    exact ⟨by simp, v, rfl, h⟩

private theorem firstMeaningless_cons_succ {v : Yaml.Value} {vs : List Yaml.Value} {i : Nat} :
    FirstMeaningless (v :: vs) (i + 1) ↔ (∃ d, Denotes v d) ∧ FirstMeaningless vs i := by
  constructor
  · rintro ⟨hbefore, hentry⟩
    rw [List.take_succ_cons, List.forall_mem_cons] at hbefore
    exact ⟨hbefore.1, hbefore.2, hentry⟩
  · rintro ⟨hv, hbefore, hentry⟩
    exact ⟨List.forall_mem_cons.2 ⟨hv, hbefore⟩, hentry⟩

/-- The number reported is that of the first entry that is no declaration. -/
theorem ofEntries_failsWith_iff {vs : List Yaml.Value} {index : Nat} {cause : ManifestError} :
    (ofEntries index vs).FailsWith cause ↔
      ∃ i, cause = .declaration (index + i) ∧ FirstMeaningless vs i := by
  induction vs generalizing index with
  | nil =>
      constructor
      · intro h
        exact absurd rfl (h.ne_ok [])
      · rintro ⟨i, -, -, v, hv, -⟩
        cases hv
  | cons v vs ih =>
      have hrest : ∀ d, (ofEntries (index + 1) vs >>= fun ds => pure (d :: ds)).FailsWith cause ↔
          (ofEntries (index + 1) vs).FailsWith cause := by
        intro d
        rw [failsWith_bind_iff]
        refine or_iff_left ?_
        rintro ⟨ds, -, h⟩
        exact absurd rfl (h.ne_ok _)
      rw [ofEntries, failsWith_bind_iff, ofEntry_failsWith_iff, exists_numbered_iff,
        firstMeaningless_cons_zero]
      simp only [hrest, ofEntry_eq_ok, ih, firstMeaningless_cons_succ]
      apply or_congr_right
      constructor
      · rintro ⟨d, hd, i, hcause, h⟩
        exact ⟨i, hcause, ⟨d, hd⟩, h⟩
      · rintro ⟨i, hcause, ⟨d, hd⟩, h⟩
        exact ⟨d, hd, i, hcause, h⟩

/-- How many declarations come in front of the entries. -/
def sections (m : Manifest) : Nat :=
  (if m.libraries.isEmpty then 0 else 1) + if m.convention.isSome then 1 else 0

/-- The declarations in front of the entries. -/
def heading (m : Manifest) : Attempt ManifestError (List Declaration) := do
  let libraries ← m.libraryDeclaration
  let convention ← m.conventionDeclaration
  return libraries ++ convention

variable (m : Manifest)

private theorem read_eq : m.read = do
    let heading ← m.heading
    let entries ← ofEntries 0 m.declarations
    return heading ++ entries := by
  unfold read heading
  cases m.libraryDeclaration with
  | error f => rfl
  | ok libraries =>
      cases m.conventionDeclaration with
      | error f => rfl
      | ok convention => rfl

private theorem heading_failsOnlyWith : m.heading.FailsOnlyWith .parse := by
  have hlibraries : m.libraryDeclaration.FailsOnlyWith .parse := by
    unfold libraryDeclaration
    split
    · exact failsOnlyWith_ok _
    · exact ((Argument.ofValues_failsOnlyWith _).noting _).bind fun _ =>
        ((failsOnlyWith_under _).noting _).bind fun _ => failsOnlyWith_ok _
  have hconvention : m.conventionDeclaration.FailsOnlyWith .parse := by
    unfold conventionDeclaration
    split
    · exact failsOnlyWith_ok _
    · exact ((failsOnlyWith_under _).noting _).bind fun _ => failsOnlyWith_ok _
  exact hlibraries.bind fun _ => hconvention.bind fun _ => failsOnlyWith_ok _

variable {m}

private theorem length_heading {ds : List Declaration} (h : m.heading = .ok ds) :
    ds.length = m.sections := by
  obtain ⟨libraries, hlibraries, h⟩ := bind_eq_ok.1 h
  obtain ⟨convention, hconvention, h⟩ := bind_eq_ok.1 h
  cases h
  have hfirst : libraries.length = if m.libraries.isEmpty then 0 else 1 := by
    unfold libraryDeclaration at hlibraries
    split
    · rename_i hempty
      rw [if_pos hempty] at hlibraries
      cases hlibraries
      rfl
    · rename_i hempty
      rw [if_neg hempty] at hlibraries
      obtain ⟨args, -, hlibraries⟩ := bind_eq_ok.1 hlibraries
      obtain ⟨d, -, hlibraries⟩ := bind_eq_ok.1 hlibraries
      cases hlibraries
      rfl
  have hsecond : convention.length = if m.convention.isSome then 1 else 0 := by
    unfold conventionDeclaration at hconvention
    cases hc : m.convention with
    | none =>
        rw [hc] at hconvention
        cases hconvention
        rfl
    | some c =>
        rw [hc] at hconvention
        obtain ⟨d, -, hconvention⟩ := bind_eq_ok.1 hconvention
        cases hconvention
        rfl
  rw [List.length_append, hfirst, hsecond, sections]

private theorem sections_eq_zero_iff : m.sections = 0 ↔ m.libraries = [] ∧ m.convention = none := by
  rw [sections, Nat.add_eq_zero_iff, ite_eq_left_iff, ite_eq_right_iff, List.isEmpty_iff]
  simp

private theorem read_eq_ok {ds : List Declaration} :
    m.read = .ok ds ↔
      ∃ heading entries, m.heading = .ok heading ∧ List.Forall₂ Denotes m.declarations entries ∧
        ds = heading ++ entries := by
  rw [read_eq, bind_eq_ok]
  constructor
  · rintro ⟨heading, hheading, h⟩
    obtain ⟨entries, hentries, h⟩ := bind_eq_ok.1 h
    cases h
    exact ⟨heading, entries, hheading, ofEntries_eq_ok.1 hentries, rfl⟩
  · rintro ⟨heading, entries, hheading, hentries, rfl⟩
    exact ⟨heading, hheading, bind_eq_ok.2 ⟨entries, ofEntries_eq_ok.2 hentries, rfl⟩⟩

private theorem read_failsWith_declaration_iff {i : Nat} :
    m.read.FailsWith (.declaration i) ↔
      (∃ ds, m.heading = .ok ds) ∧ FirstMeaningless m.declarations i := by
  have hentries : ∀ heading : List Declaration,
      (ofEntries 0 m.declarations >>= fun entries => pure (heading ++ entries)).FailsWith
        (.declaration i) ↔ FirstMeaningless m.declarations i := by
    intro heading
    rw [failsWith_bind_iff, ofEntries_failsWith_iff]
    constructor
    · rintro (⟨j, hj, h⟩ | ⟨entries, -, h⟩)
      · rw [Nat.zero_add, ManifestError.declaration.injEq] at hj
        rwa [hj]
      · exact absurd rfl (h.ne_ok _)
    · intro h
      exact .inl ⟨i, by rw [Nat.zero_add], h⟩
  rw [read_eq, failsWith_bind_iff]
  simp only [hentries]
  constructor
  · rintro (h | ⟨ds, hds, h⟩)
    · cases m.heading_failsOnlyWith _ h
    · exact ⟨⟨ds, hds⟩, h⟩
  · rintro ⟨⟨ds, hds⟩, h⟩
    exact .inr ⟨ds, hds, h⟩

end Manifest

namespace Workspace

/-- The declaration of this number cannot be carried out, and those in front of it can. -/
def FirstRejected (w : Workspace) (ds : List Declaration) (i : Nat) : Prop :=
  ∃ w' d f, w.declareAll (ds.take i) = .ok w' ∧ ds[i]? = some d ∧ (w'.declare d).1 = .error f

variable {w : Workspace} {d : Declaration} {ds : List Declaration}

private theorem firstRejected_cons_zero :
    w.FirstRejected (d :: ds) 0 ↔ ∃ f, (w.declare d).1 = .error f := by
  constructor
  · rintro ⟨w', d', f, hw, hd, hf⟩
    cases hw
    cases hd
    exact ⟨f, hf⟩
  · rintro ⟨f, hf⟩
    exact ⟨w, d, f, rfl, rfl, hf⟩

private theorem firstRejected_cons_succ {i : Nat} :
    w.FirstRejected (d :: ds) (i + 1) ↔
      (∃ x, (w.declare d).1 = .ok x) ∧ (w.declare d).2.FirstRejected ds i := by
  have hstep : ∀ w' rest, w.declareAll (d :: rest) = .ok w' ↔
      (∃ x, (w.declare d).1 = .ok x) ∧ (w.declare d).2.declareAll rest = .ok w' := by
    intro w' rest
    rw [declareAll]
    rcases w.declare d with ⟨_ | _, _⟩ <;> simp
  constructor
  · rintro ⟨w', d', f, hw, hd, hf⟩
    obtain ⟨hx, hw⟩ := (hstep w' _).1 hw
    exact ⟨hx, w', d', f, hw, hd, hf⟩
  · rintro ⟨hx, w', d', f, hw, hd, hf⟩
    exact ⟨w', d', f, (hstep w' _).2 ⟨hx, hw⟩, hd, hf⟩

/-- The number reported is that of the first declaration that cannot be carried out. -/
theorem check_failsWith_iff {index : Nat} {cause : CheckError} :
    (w.check index ds).1.FailsWith cause ↔
      ∃ i, cause = .declare (index + i) ∧ w.FirstRejected ds i := by
  induction ds generalizing w index with
  | nil =>
      constructor
      · intro h
        exact absurd rfl (h.ne_ok w)
      · rintro ⟨i, -, w', d, f, -, hd, -⟩
        cases hd
  | cons d ds ih =>
      have hcheck : (w.check index (d :: ds)).1.FailsWith cause ↔
          (cause = .declare index ∧ ∃ f, (w.declare d).1 = .error f) ∨
            (∃ x, (w.declare d).1 = .ok x) ∧
              ((w.declare d).2.check (index + 1) ds).1.FailsWith cause := by
        rw [check]
        rcases w.declare d with ⟨f | x, w'⟩
        · simp [FailsWith, Failure.under, eq_comm]
        · simp
      rw [hcheck, exists_numbered_iff, firstRejected_cons_zero, ih]
      simp only [firstRejected_cons_succ]
      apply or_congr_right
      constructor
      · rintro ⟨hx, i, hcause, h⟩
        exact ⟨i, hcause, hx, h⟩
      · rintro ⟨i, hcause, hx, h⟩
        exact ⟨hx, i, hcause, h⟩

end Workspace

namespace Manifest

/-- The scope in which a manifest is carried out, before anything is declared. -/
def start (m : Manifest) (host : Host) : Workspace :=
  .new (.new m.name { host with invokers := some .probe })

/-- All entries are declarations, and of those and what comes in front of them the one of entry `i`
is the first that cannot be carried out. -/
def Rejects (m : Manifest) (host : Host) (i : Nat) : Prop :=
  ∃ heading entries w d f, m.heading = .ok heading ∧ List.Forall₂ Denotes m.declarations entries ∧
    (m.start host).declareAll (heading ++ entries.take i) = .ok w ∧ entries[i]? = some d ∧
      (w.declare d).1 = .error f

variable {m : Manifest} {host : Host}

private theorem check_failsWith_declare_iff {n : Nat} :
    (m.check host).1.FailsWith (.declare n) ↔
      ∃ ds, m.read = .ok ds ∧ (m.start host).FirstRejected ds n := by
  unfold check
  cases hread : m.read with
  | error f => simp [FailsWith, Failure.under]
  | ok ds =>
      change ((m.start host).check 0 ds).1.FailsWith _ ↔ _
      rw [Workspace.check_failsWith_iff]
      simp

private theorem firstRejected_heading {ds entries : List Declaration} {w : Workspace} {i : Nat} :
    w.FirstRejected (ds ++ entries) (ds.length + i) ↔
      ∃ w' d f, w.declareAll (ds ++ entries.take i) = .ok w' ∧ entries[i]? = some d ∧
        (w'.declare d).1 = .error f := by
  rw [Workspace.FirstRejected, List.take_length_add_append,
    List.getElem?_append_right (Nat.le_add_right _ _), Nat.add_sub_cancel_left]

/-- Where an entry is the first that is no declaration, the number reported is its own. Where it is
the first whose declaration cannot be carried out, the libraries and the calling convention are
counted too, each of them that is given; so the number is the entry's own only where neither is. -/
theorem failures_numbered (m : Manifest) (host : Host) (i : Nat) :
    (m.read.FailsWith (.declaration i) ↔
      (∃ ds, m.heading = .ok ds) ∧ FirstMeaningless m.declarations i) ∧
    ((m.check host).1.FailsWith (.declare (m.sections + i)) ↔ m.Rejects host i) ∧
    (m.sections = 0 ↔ m.libraries = [] ∧ m.convention = none) ∧
    ∀ f, m.read = .error f → (m.check host).1 = .error (f.under CheckError.manifest) := by
  refine ⟨read_failsWith_declaration_iff, ?_, sections_eq_zero_iff, ?_⟩
  · rw [check_failsWith_declare_iff]
    constructor
    · rintro ⟨ds, hds, h⟩
      obtain ⟨heading, entries, hheading, hentries, rfl⟩ := read_eq_ok.1 hds
      rw [← length_heading hheading, firstRejected_heading] at h
      obtain ⟨w, d, f, h⟩ := h
      exact ⟨heading, entries, w, d, f, hheading, hentries, h⟩
    · rintro ⟨heading, entries, w, d, f, hheading, hentries, h⟩
      refine ⟨_, read_eq_ok.2 ⟨heading, entries, hheading, hentries, rfl⟩, ?_⟩
      rw [← length_heading hheading, firstRejected_heading]
      exact ⟨w, d, f, h⟩
  · intro f hf
    rw [check, hf, under_error]

end Manifest

-- One manifest has an entry that is no declaration behind one that is, the other opens a library
-- in front of an alias that cannot be declared.
namespace Sample

/-- An alias without a name behind one that has a name. -/
def truncated : Manifest where
  name := "truncated"
  convention := some "stdcall"
  libraries := []
  declarations :=
    [.mapping [(.string "typedef", .sequence [.string "int", .string "a"])],
      .mapping [(.string "typedef", .sequence [.string "int"])]]

private theorem truncated_firstMeaningless :
    Manifest.FirstMeaningless truncated.declarations 1 where
  before := by
    have hfirst : Manifest.Denotes
        (.mapping [(.string "typedef", .sequence [.string "int", .string "a"])])
        (.typedef (.named "int") "a") := ⟨_, _, rfl, rfl⟩
    exact List.forall_mem_singleton.2 ⟨_, hfirst⟩
  entry := by
    have hfails : (Manifest.ofEntry
        (.mapping [(.string "typedef", .sequence [.string "int"])]) 1).FailsWith
          (.declaration 1) := ⟨_, rfl, rfl⟩
    exact ⟨_, rfl, (Manifest.ofEntry_failsWith_iff.1 hfails).2⟩

private theorem dangling_rejects : dangling.Rejects .minimal 0 := by
  have hentry : Manifest.Denotes
      (.mapping [(.string "typedef", .sequence [.string "nope", .string "t"])])
      (.typedef (.named "nope") "t") := ⟨_, _, rfl, rfl⟩
  exact ⟨[.libraries [.named "c"]], _, _, _, _, rfl, .cons hentry .nil, rfl, rfl, rfl⟩

end Sample

namespace Manifest

theorem failures_numbered_sections :
    (∃ ds, Sample.truncated.heading = .ok ds) ∧
      FirstMeaningless Sample.truncated.declarations 1 ∧
      Sample.truncated.read.FailsWith (.declaration 1) ∧
      Sample.dangling.sections = 1 ∧ Sample.dangling.Rejects .minimal 0 ∧
      (Sample.dangling.check .minimal).1.FailsWith (.declare 1) := by
  have hheading : ∃ ds, Sample.truncated.heading = .ok ds := ⟨_, rfl⟩
  have hread := (failures_numbered Sample.truncated .minimal 1).1
  have hcheck := (failures_numbered Sample.dangling .minimal 0).2.1
  exact ⟨hheading, Sample.truncated_firstMeaningless,
    hread.2 ⟨hheading, Sample.truncated_firstMeaningless⟩, rfl, Sample.dangling_rejects,
    hcheck.2 Sample.dangling_rejects⟩

/-- Behind libraries the number of an entry is not its own. -/
theorem not_failures_numbered :
    ¬ ∀ (m : Manifest) (host : Host) (i : Nat), m.Rejects host i →
      (m.check host).1.FailsWith (.declare i) := by
  intro h
  have hown := h Sample.dangling .minimal 0 Sample.dangling_rejects
  have hcounted : (Sample.dangling.check .minimal).1.FailsWith (.declare 1) := ⟨_, rfl, rfl⟩
  cases hown.unique hcounted

end Manifest

end ForeignBinding
