import ForeignBinding.Library.Search
import ForeignBinding.Proofs.Lists

/-!
# Libraries are found in order

The candidates of each declared library are opened in order up to the first that opens, which is
the library. Of a library none of whose candidates opens every cause is recorded. Opening fails if
and only if no library is found.
-/

namespace ForeignBinding

namespace Platform

theorem candidates_eq_eraseDups (p : Platform) (names : List String) :
    p.candidates names = (names.flatMap fun n => [n, p.fileName n]).eraseDups :=
  foldl_addNew_eq_eraseDups _

end Platform

/-- The names under which a library is looked for, the process itself having none: each alternative
as it is given, then as a file name, of equal ones the first. -/
def LibraryName.candidates (p : Platform) : LibraryName → List (Option String)
  | currentProcess => [none]
  | name => (name.names.flatMap fun n => [n, p.fileName n]).eraseDups.map some

namespace Loader

variable (load : Loader) (p : Platform)

def opens (c : Option String) : Bool := (load c).isOk

/-- The candidates before the first that opens, and that one. -/
def asked (cs : List (Option String)) : List (Option String) :=
  cs.takeWhile (!load.opens ·) ++ (cs.find? load.opens).toList

/-- The library of the first candidate that opens. -/
def first? (cs : List (Option String)) : Option Library :=
  cs.findSome? fun c => (load c).toOption

/-- Why a candidate does not open. -/
def failure? (c : Option String) : Option LoadFailure :=
  match load c with
  | .ok _ => none
  | .error cause => some ⟨c.getD LibraryName.currentProcessName, cause⟩

/-- What is recorded of candidates none of which opens; that there are none is a failure too. -/
def recorded : List (Option String) → List LoadFailure
  | [] => [⟨"[]", "no alternative names given"⟩]
  | cs => cs.filterMap load.failure?

/-- Tries candidates in order until one opens. -/
private def search (cs : List (Option String)) : Trial :=
  cs.foldr (fun c next => load.orElse c (c.getD LibraryName.currentProcessName) next)
    ⟨[], .error []⟩

private theorem openFirst_eq_search (names : List String) :
    load.openFirst names = load.search (names.map some) := by
  induction names with
  | nil => rfl
  | cons n names ih => rw [openFirst, ih, List.map_cons, search, search, List.foldr_cons]; rfl

private theorem openName_eq (n : LibraryName) :
    load.openName p n =
      match n.candidates p with
      | [] => ⟨[], .error (load.recorded [])⟩
      | cs => load.search cs := by
  cases n with
  | currentProcess => rfl
  | named _ | alternatives _ =>
      simp only [openName, LibraryName.candidates, Platform.candidates_eq_eraseDups,
        openFirst_eq_search]
      split <;> simp_all [recorded]

private theorem search_eq (cs : List (Option String)) :
    load.search cs =
      ⟨load.asked cs, (load.first? cs).elim (.error (cs.filterMap load.failure?)) .ok⟩ := by
  induction cs with
  | nil => rfl
  | cons c cs ih =>
      have hstep : load.search (c :: cs) =
          load.orElse c (c.getD LibraryName.currentProcessName) (load.search cs) := rfl
      rw [hstep, ih, orElse]
      cases h : load c with
      | ok l =>
          have hopens : load.opens c = true := by rw [opens, h]; rfl
          have hfirst : load.first? (c :: cs) = some l := by simp [first?, h, Except.toOption]
          simp [asked, hopens, hfirst]
      | error cause =>
          have hopens : load.opens c = false := by rw [opens, h]; rfl
          have hasked : load.asked (c :: cs) = c :: load.asked cs := by simp [asked, hopens]
          have hfirst : load.first? (c :: cs) = load.first? cs := by
            simp [first?, h, Except.toOption]
          have hfailure :
              load.failure? c = some ⟨c.getD LibraryName.currentProcessName, cause⟩ := by
            rw [failure?, h]
          rw [hasked, hfirst, List.filterMap_cons_some hfailure]
          cases load.first? cs <;> rfl

private theorem openName_eq_asked (n : LibraryName) :
    load.openName p n =
      ⟨load.asked (n.candidates p),
        (load.first? (n.candidates p)).elim (.error (load.recorded (n.candidates p))) .ok⟩ := by
  rw [openName_eq]
  split
  · rename_i hnil
    simp only [hnil]
    rfl
  · rename_i hne
    rw [search_eq, recorded.eq_2 _ _ hne]

private theorem first?_eq_none_iff (cs : List (Option String)) :
    load.first? cs = none ↔ ∀ c ∈ cs, load.opens c = false := by
  rw [first?, List.findSome?_eq_none_iff]
  refine forall₂_congr fun c _ => ?_
  cases h : load c <;> simp [opens, h, Except.toOption, Except.isOk, Except.toBool]

/-- No candidate of the library opens. -/
def misses (n : LibraryName) : Bool := (n.candidates p).all (!load.opens ·)

private theorem misses_iff (n : LibraryName) :
    load.misses p n ↔ load.first? (n.candidates p) = none := by
  rw [first?_eq_none_iff, misses, List.all_eq_true]
  simp

private theorem failures_openName (n : LibraryName) :
    (load.openName p n).failures =
      if load.misses p n then load.recorded (n.candidates p) else [] := by
  have hmisses := load.misses_iff p n
  rw [openName_eq_asked, Trial.failures]
  cases h : load.first? (n.candidates p) with
  | none => rw [if_pos (hmisses.2 h)]; rfl
  | some l => rw [if_neg (by simp [hmisses, h])]; rfl

private theorem library?_openName (n : LibraryName) :
    (load.openName p n).library? = load.first? (n.candidates p) := by
  rw [openName_eq_asked, Trial.library?]
  cases load.first? (n.candidates p) <;> rfl

end Loader

section

variable (load : Loader) (p : Platform) (names : List LibraryName)

/-- The libraries found, in declaration order. -/
def Loader.found : List Library :=
  names.filterMap fun n => load.first? (n.candidates p)

/-- What is recorded of the libraries that are not found, in declaration order. -/
def Loader.missed : List LoadFailure :=
  (names.filter (load.misses p)).flatMap fun n => load.recorded (n.candidates p)

private theorem Loader.found_eq_nil_iff :
    load.found p names = [] ↔ ∀ n ∈ names, load.misses p n := by
  simp [found, List.filterMap_eq_nil_iff, misses_iff]

private theorem resolveLibraries_eq (hnames : names ≠ []) :
    resolveLibraries load p names =
      (LibrarySet.ofTrials (names.map (load.openName p)),
        names.flatMap fun n => load.asked (n.candidates p)) := by
  unfold resolveLibraries
  split
  · exact absurd rfl hnames
  · simp only [List.flatMap_map, Loader.openName_eq_asked]

private theorem filterMap_library? :
    (names.map (load.openName p)).filterMap Trial.library? = load.found p names := by
  rw [List.filterMap_map, Loader.found]
  congr 1
  funext n
  exact load.library?_openName p n

private theorem flatMap_failures :
    (names.map (load.openName p)).flatMap Trial.failures = load.missed p names := by
  rw [List.flatMap_map, Loader.missed]
  induction names with
  | nil => rfl
  | cons n names ih =>
      rw [List.flatMap_cons, ih, Loader.failures_openName, List.filter_cons]
      cases load.misses p n <;> simp

end

private theorem LibrarySet.ofTrials_of_ne_nil {trials : List Trial}
    (h : trials.filterMap Trial.library? ≠ []) :
    ofTrials trials = .ok ⟨trials.filterMap Trial.library?, trials.flatMap Trial.failures⟩ := by
  unfold ofTrials
  split
  · rename_i hnil
    exact absurd hnil h
  · rfl

private theorem LibrarySet.ofTrials_of_nil {trials : List Trial}
    (h : trials.filterMap Trial.library? = []) :
    ofTrials trials = .error
      { cause := .load ((trials.flatMap Trial.failures).map (·.cause))
        notes := ((trials.flatMap Trial.failures).map fun f =>
          s!"{f.candidate}: {f.cause}").reverse } := by
  rw [ofTrials, h]

theorem libraries_ne_nil {load : Loader} {p : Platform} {names : List LibraryName}
    {set : LibrarySet} (h : (resolveLibraries load p names).1 = .ok set) : set.libraries ≠ [] := by
  by_cases hnames : names = []
  · subst hnames
    cases h
  · rw [resolveLibraries_eq load p names hnames] at h
    by_cases hopened : (names.map (load.openName p)).filterMap Trial.library? = []
    · rw [LibrarySet.ofTrials_of_nil hopened] at h
      cases h
    · rw [LibrarySet.ofTrials_of_ne_nil hopened] at h
      cases h
      exact hopened

/-- Of every declared library the candidates are opened in order up to the first that opens, and no
more. It is an error if and only if none opens. Otherwise the libraries are those of the first
candidates that open, and the failures those of the libraries that are not found. The message of
the error is every cause in order, and there is a note for each. -/
theorem resolveLibraries_inOrder (load : Loader) (p : Platform) {names : List LibraryName}
    (hnames : names ≠ []) :
    let r := resolveLibraries load p names
    r.2 = names.flatMap (fun n => load.asked (n.candidates p)) ∧
      ((∃ f, r.1 = .error f) ↔ ∀ n ∈ names, ∀ c ∈ n.candidates p, load.opens c = false) ∧
      (∀ set, r.1 = .ok set →
        set.libraries = load.found p names ∧ set.failures = load.missed p names) ∧
      ∀ f, r.1 = .error f →
        f.cause.message = ". ".intercalate ((load.missed p names).map (·.cause)) ∧
          f.chain = (load.missed p names).reverse.map (fun g =>
            .note s!"{g.candidate}: {g.cause}") ++ [.cause (.ofLibrary f.cause)] := by
  intro r
  have hr : r = _ := resolveLibraries_eq load p names hnames
  have hnone : load.found p names = [] ↔
      ∀ n ∈ names, ∀ c ∈ n.candidates p, load.opens c = false := by
    rw [Loader.found_eq_nil_iff]
    simp only [Loader.misses_iff, Loader.first?_eq_none_iff]
  rw [← hnone, hr, ← filterMap_library?, ← flatMap_failures]
  refine ⟨rfl, ?_⟩
  by_cases h : (names.map (load.openName p)).filterMap Trial.library? = []
  · rw [LibrarySet.ofTrials_of_nil h]
    refine ⟨⟨fun _ => h, fun _ => ⟨_, rfl⟩⟩, ?_, ?_⟩
    · intro set hset
      cases hset
    · intro f hf
      cases hf
      refine ⟨rfl, ?_⟩
      rw [Failure.chain, List.map_reverse, List.map_map, List.map_reverse]
      rfl
  · rw [LibrarySet.ofTrials_of_ne_nil h]
    refine ⟨⟨?_, fun hnil => absurd hnil h⟩, ?_, ?_⟩
    · rintro ⟨f, hf⟩
      cases hf
    · intro set hset
      cases hset
      exact ⟨rfl, rfl⟩
    · intro f hf
      cases hf

namespace Sample

/-- Only one file opens, and not the process itself. -/
def onlyZ : Loader := fun name =>
  if name = some "libz.so" then .ok ⟨name, fun _ => none⟩ else .error "cannot open"

def wanted : List LibraryName :=
  [.named "m", .alternatives ["zlib", "z"], .alternatives [], .currentProcess]

end Sample

theorem resolveLibraries_inOrder_onlyZ :
    Sample.wanted ≠ [] ∧
      (resolveLibraries Sample.onlyZ .linux Sample.wanted).2 =
        [some "m", some "libm.so", some "zlib", some "libzlib.so", some "z", some "libz.so",
          none] ∧
      ∃ set, (resolveLibraries Sample.onlyZ .linux Sample.wanted).1 = .ok set ∧
        set.names = ["libz.so"] ∧
        set.failures = [⟨"m", "cannot open"⟩, ⟨"libm.so", "cannot open"⟩,
          ⟨"[]", "no alternative names given"⟩, ⟨"[current process]", "cannot open"⟩] := by
  have hne : Sample.wanted ≠ [] := by decide
  obtain ⟨hopened, herror, hset, -⟩ := resolveLibraries_inOrder Sample.onlyZ .linux hne
  refine ⟨hne, hopened.trans (by decide +kernel), ?_⟩
  cases h : (resolveLibraries Sample.onlyZ .linux Sample.wanted).1 with
  | error f =>
      have hz := herror.1 ⟨f, h⟩ (.alternatives ["zlib", "z"]) (by decide) (some "libz.so")
        (by decide +kernel)
      exact absurd hz (by decide)
  | ok set =>
      obtain ⟨hlibraries, hfailures⟩ := hset set h
      refine ⟨set, rfl, ?_, ?_⟩
      · rw [LibrarySet.names, hlibraries]
        decide +kernel
      · rw [hfailures]
        decide +kernel

end ForeignBinding
