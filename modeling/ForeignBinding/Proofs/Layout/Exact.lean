import ForeignBinding.Proofs.Attempt
import ForeignBinding.Proofs.Layout.Unbounded

/-!
# Layouts are exact

A layout is computed if and only if all numbers of the placement over unbounded numbers fit, and
then it is the one that this placement gives. Otherwise the overflow names the first field that
does not fit, or the last field where only the whole does not.
-/

namespace ForeignBinding

open Attempt

variable {defs : Definitions} {r : Resolver}

theorem layout?_eq_some {c : Composite} {l : Layout} :
    defs.layout? c = some l ↔ defs.progress c = .computed l := by
  unfold Definitions.layout? Progress.layout?
  split <;> simp_all

private theorem request_name (f : FieldSpec) (d : Descriptor) :
    (f.request defs d).name = f.name := by
  unfold FieldSpec.request
  split <;> rfl

private theorem request_alignment (f : FieldSpec) (d : Descriptor) :
    (f.request defs d).alignment = defs.alignmentOf d := by
  unfold FieldSpec.request
  split <;> rfl

theorem FieldSpec.Denotes.name_eq {f : FieldSpec} {q : Request} (h : f.Denotes defs r q) :
    q.name = f.name := by
  obtain ⟨d, -, -, rfl⟩ := h
  exact request_name f d

theorem FieldSpec.Denotes.alignment_pos {f : FieldSpec} {q : Request} (h : f.Denotes defs r q)
    (hpos : ∀ d, 0 < defs.alignmentOf d) : 0 < q.alignment := by
  obtain ⟨d, -, -, rfl⟩ := h
  exact request_alignment f d ▸ hpos d

namespace Placement

/-- The placement with one more field in its place. -/
def put (p : Placement) (f : Field) : Placement :=
  { p with
    fields := p.fields ++ [f]
    cursor := f.stop
    extent := max p.extent f.stop
    alignment := max p.alignment f.alignment }

private theorem fitting_of_lt {n : Nat} (name : String) (h : n < addressCount) :
    fitting name n = .ok n := by
  simp [fitting, fitting?, h]

private theorem fitting_of_le {n : Nat} (name : String) (h : addressCount ≤ n) :
    (fitting name n).FailsWith (.overflow name) := by
  simp [fitting, fitting?, Nat.not_lt.2 h, failsWith_fail]

theorem extentOf_of_isComplete {d : Descriptor} (h : d.IsComplete defs) (name : String) :
    extentOf defs d name = .ok (defs.sizeOf d, defs.alignmentOf d) := by
  cases hd : d.composite? with
  | none => simp [extentOf, hd]
  | some c =>
      obtain ⟨l, hl⟩ := h c hd
      have hp : defs.progress c = .computed l := layout?_eq_some.1 hl
      cases d <;> simp_all [extentOf, embedded, Descriptor.composite?, Definitions.sizeOf,
        Definitions.alignmentOf, Progress.size, Progress.alignment]

theorem isComplete_of_extentOf {d : Descriptor} {name : String} {x : Nat × Nat}
    (h : extentOf defs d name = .ok x) : d.IsComplete defs := by
  intro c hd
  simp only [extentOf, hd, embedded] at h
  cases hl : defs.layout? c with
  | none => simp [hl, fail] at h
  | some l => exact ⟨l, rfl⟩

private theorem nextOffset_of_lt {p : Placement} {q : Request} (hpos : 0 < q.alignment)
    (h : q.offset p.kind p.cursor < addressCount) :
    p.nextOffset q.name q.alignment q.given = .ok (q.offset p.kind p.cursor) := by
  unfold nextOffset Request.offset at *
  split <;> simp_all [roundUp_eq_leastMultiple, fitting_of_lt]

private theorem nextOffset_of_le {p : Placement} {q : Request} (hpos : 0 < q.alignment)
    (h : addressCount ≤ q.offset p.kind p.cursor) :
    p.nextOffset q.name q.alignment q.given = .ok (q.offset p.kind p.cursor) ∨
      (p.nextOffset q.name q.alignment q.given).FailsWith (.overflow q.name) := by
  unfold nextOffset Request.offset at *
  split <;> simp_all [roundUp_eq_leastMultiple, fitting_of_le]

private theorem place_of_fits {p : Placement} {q : Request} (hpos : 0 < q.alignment)
    (h : (q.field p.kind p.cursor).Fits) :
    p.place q.name q.kind q.size q.alignment q.given = .ok (p.put (q.field p.kind p.cursor)) := by
  obtain ⟨-, hoffset, hstop⟩ := h
  have hmax : max q.alignment 1 = q.alignment := Nat.max_eq_left hpos
  have hnext := nextOffset_of_lt hpos hoffset
  have hend : q.offset p.kind p.cursor + q.size < addressCount := hstop
  simp only [place, hmax, hnext, ok_bind, fitting_of_lt _ hend, noting_ok]
  rfl

private theorem place_of_not_fits {p : Placement} {q : Request} (hpos : 0 < q.alignment)
    (h : ¬ (q.field p.kind p.cursor).Fits) :
    (p.place q.name q.kind q.size q.alignment q.given).FailsWith (.overflow q.name) := by
  have hmax : max q.alignment 1 = q.alignment := Nat.max_eq_left hpos
  have hend : addressCount ≤ q.offset p.kind p.cursor + q.size :=
    Nat.not_lt.1 fun hlt => h (Field.fits_iff.2 hlt)
  have hok : p.nextOffset q.name q.alignment q.given = .ok (q.offset p.kind p.cursor) ∨
      (p.nextOffset q.name q.alignment q.given).FailsWith (.overflow q.name) := by
    by_cases hoffset : q.offset p.kind p.cursor < addressCount
    · exact .inl (nextOffset_of_lt hpos hoffset)
    · exact nextOffset_of_le hpos (Nat.not_lt.1 hoffset)
  simp only [place, hmax]
  rcases hok with hok | hfail
  · rw [hok, ok_bind]
    exact ((fitting_of_le _ hend).noting _).bind _
  · exact hfail.bind _

private theorem addSpec_of_fits {p : Placement} {f : FieldSpec} {q : Request}
    (hpos : 0 < q.alignment) (hq : f.Denotes defs r q) (h : (q.field p.kind p.cursor).Fits) :
    p.addSpec defs r f = .ok (p.put (q.field p.kind p.cursor)) := by
  have hplace := place_of_fits hpos h
  have hsize : q.size < addressCount := h.1
  obtain ⟨d, hd, hc, rfl⟩ := hq
  unfold FieldSpec.request at *
  cases ht : f.type with
  | single t =>
      rw [ht] at hd
      simp only [ht] at hplace ⊢
      simpa only [addSpec, ht, hd, under_ok, ok_bind, addField, extentOf_of_isComplete hc]
        using hplace
  | array t count =>
      rw [ht] at hd
      simp only [ht] at hplace hsize ⊢
      simpa only [addSpec, ht, hd, under_ok, ok_bind, addArray, extentOf_of_isComplete hc,
        fitting_of_lt _ hsize] using hplace

theorem addSpec_of_not_fits {p : Placement} {f : FieldSpec} {q : Request}
    (hpos : 0 < q.alignment) (hq : f.Denotes defs r q) (h : ¬ (q.field p.kind p.cursor).Fits) :
    (p.addSpec defs r f).FailsWith (.overflow f.name) := by
  have hplace := place_of_not_fits hpos h
  obtain ⟨d, hd, hc, rfl⟩ := hq
  unfold FieldSpec.request at *
  cases ht : f.type with
  | single t =>
      rw [ht] at hd
      simp only [ht] at hplace
      simpa only [addSpec, ht, hd, under_ok, ok_bind, addField, extentOf_of_isComplete hc]
        using hplace
  | array t count =>
      rw [ht] at hd
      simp only [ht] at hplace
      simp only [addSpec, ht, hd, under_ok, ok_bind, addArray, extentOf_of_isComplete hc]
      by_cases hsize : defs.sizeOf d * count < addressCount
      · simpa only [fitting_of_lt _ hsize, ok_bind] using hplace
      · exact (fitting_of_le _ (Nat.not_lt.1 hsize)).bind _

private theorem addSpec_eq_ok (hpos : ∀ d, 0 < defs.alignmentOf d) {p p' : Placement}
    {f : FieldSpec} (h : p.addSpec defs r f = .ok p') :
    ∃ q, f.Denotes defs r q ∧ (q.field p.kind p.cursor).Fits ∧
      p' = p.put (q.field p.kind p.cursor) := by
  have hdenotes : ∃ q, f.Denotes defs r q := by
    unfold addSpec at h
    obtain ⟨d, hd, h⟩ := bind_eq_ok.1 h
    refine ⟨_, d, under_eq_ok.1 hd, ?_, rfl⟩
    cases ht : f.type with
    | single t =>
        simp only [ht] at h
        obtain ⟨x, hx, -⟩ := bind_eq_ok.1 h
        exact isComplete_of_extentOf hx
    | array t count =>
        simp only [ht] at h
        obtain ⟨x, hx, -⟩ := bind_eq_ok.1 h
        exact isComplete_of_extentOf hx
  obtain ⟨q, hq⟩ := hdenotes
  have hq' : 0 < q.alignment := hq.alignment_pos hpos
  by_cases hfit : (q.field p.kind p.cursor).Fits
  · have hput := addSpec_of_fits hq' hq hfit
    rw [h] at hput
    exact ⟨q, hq, hfit, Except.ok.inj hput⟩
  · exact absurd h ((addSpec_of_not_fits hq' hq hfit).ne_ok p')

theorem foldl_put (p : Placement) (fs : List Field) :
    fs.foldl put p =
      { p with
        fields := p.fields ++ fs
        cursor := (fs.map Field.stop).foldl (fun _ stop => stop) p.cursor
        extent := (fs.map Field.stop).foldl max p.extent
        alignment := (fs.map (·.alignment)).foldl max p.alignment } := by
  induction fs generalizing p with
  | nil => simp
  | cons f fs ih => simp [ih, put]

theorem addSpecs_append {p : Placement} (fs gs : List FieldSpec) :
    addSpecs defs r p (fs ++ gs) = addSpecs defs r p fs >>= fun p' => addSpecs defs r p' gs := by
  induction fs generalizing p with
  | nil => rfl
  | cons f fs ih =>
      rw [List.cons_append, addSpecs, addSpecs]
      split
      · rfl
      · cases hfirst : p.addSpec defs r f with
        | error g => rfl
        | ok p₁ => exact ih

private theorem any_name_iff {fs : List Field} {name : String} :
    fs.any (fun g => g.name == name) = true ↔ name ∈ fs.map (·.name) := by
  simp [List.any_eq_true, List.mem_map]

theorem addSpecs_of_used {p : Placement} {f : FieldSpec} (h : f.name ∈ p.fields.map (·.name))
    (fs : List FieldSpec) : addSpecs defs r p (f :: fs) = .fail (.duplicateField f.name) := by
  rw [addSpecs, if_pos (any_name_iff.2 h)]

theorem addSpecs_of_new {p : Placement} {f : FieldSpec} (h : f.name ∉ p.fields.map (·.name))
    (fs : List FieldSpec) :
    addSpecs defs r p (f :: fs) = p.addSpec defs r f >>= fun p' => addSpecs defs r p' fs := by
  rw [addSpecs, if_neg (mt any_name_iff.1 h)]

private theorem addSpecs_cons {p : Placement} {f : FieldSpec} {fs : List FieldSpec}
    (hnd : (p.fields.map (·.name) ++ (f :: fs).map (·.name)).Nodup) :
    addSpecs defs r p (f :: fs) = p.addSpec defs r f >>= fun p' => addSpecs defs r p' fs := by
  have hdisjoint := (List.nodup_append.1 hnd).2.2
  exact addSpecs_of_new (fun hmem => hdisjoint f.name hmem f.name (by simp) rfl) fs

private theorem nodup_put {p : Placement} {f : FieldSpec} {fs : List FieldSpec} {g : Field}
    (hnd : (p.fields.map (·.name) ++ (f :: fs).map (·.name)).Nodup) (hg : g.name = f.name) :
    ((p.put g).fields.map (·.name) ++ fs.map (·.name)).Nodup := by
  simpa [put, hg] using hnd

theorem addSpecs_of_fits (hpos : ∀ d, 0 < defs.alignmentOf d) {fs : List FieldSpec}
    {qs : List Request} (hq : List.Forall₂ (·.Denotes defs r ·) fs qs) {p : Placement}
    (hnd : (p.fields.map (·.name) ++ fs.map (·.name)).Nodup)
    (hfit : ∀ f ∈ Unbounded.fields p.kind p.cursor qs, f.Fits) :
    addSpecs defs r p fs = .ok ((Unbounded.fields p.kind p.cursor qs).foldl put p) := by
  induction hq generalizing p with
  | nil => rfl
  | @cons f q fs qs hf _ ih =>
      have hhead : (q.field p.kind p.cursor).Fits := hfit _ List.mem_cons_self
      have hadd := addSpec_of_fits (hf.alignment_pos hpos) hf hhead
      rw [addSpecs_cons hnd, hadd, ok_bind]
      exact ih (nodup_put hnd hf.name_eq) fun g hg => hfit g (List.mem_cons_of_mem _ hg)

private theorem addSpecs_of_not_fits (hpos : ∀ d, 0 < defs.alignmentOf d) {fs : List FieldSpec}
    {qs : List Request} (hq : List.Forall₂ (·.Denotes defs r ·) fs qs) {p : Placement}
    (hnd : (p.fields.map (·.name) ++ fs.map (·.name)).Nodup) {g : Field}
    (hg : (Unbounded.fields p.kind p.cursor qs).find? (fun f => !decide f.Fits) = some g) :
    (addSpecs defs r p fs).FailsWith (.overflow g.name) := by
  induction hq generalizing p with
  | nil => simp [Unbounded.fields] at hg
  | @cons f q fs qs hf _ ih =>
      rw [addSpecs_cons hnd]
      by_cases hhead : (q.field p.kind p.cursor).Fits
      · rw [addSpec_of_fits (hf.alignment_pos hpos) hf hhead, ok_bind]
        apply ih (nodup_put hnd hf.name_eq)
        simpa [Unbounded.fields, hhead, put] using hg
      · have hfirst : q.field p.kind p.cursor = g := by
          simpa [Unbounded.fields, hhead] using hg
        rw [← hfirst, show (q.field p.kind p.cursor).name = f.name from hf.name_eq]
        exact (addSpec_of_not_fits (hf.alignment_pos hpos) hf hhead).bind _

/-- What placing the declared fields one after the other can do. -/
theorem addSpecs_eq_ok (hpos : ∀ d, 0 < defs.alignmentOf d) {fs : List FieldSpec}
    {p p' : Placement} (hnd : (p.fields.map (·.name)).Nodup) (h : addSpecs defs r p fs = .ok p') :
    (p.fields.map (·.name) ++ fs.map (·.name)).Nodup ∧
      ∃ qs, List.Forall₂ (·.Denotes defs r ·) fs qs ∧
        (∀ f ∈ Unbounded.fields p.kind p.cursor qs, f.Fits) := by
  induction fs generalizing p with
  | nil => exact ⟨by simpa using hnd, [], .nil, by simp [Unbounded.fields]⟩
  | cons f fs ih =>
      simp only [addSpecs] at h
      split at h
      · simp [fail] at h
      · rename_i hnew
        obtain ⟨p₁, hadd, hrest⟩ := bind_eq_ok.1 h
        obtain ⟨q, hq, hfit, rfl⟩ := addSpec_eq_ok hpos hadd
        have hname : (q.field p.kind p.cursor).name = f.name := hq.name_eq
        have hnd' : ((p.put (q.field p.kind p.cursor)).fields.map (·.name)).Nodup := by
          simp only [put, List.map_append, List.map_cons, List.map_nil, hname]
          rw [← List.concat_eq_append, List.nodup_concat]
          simp_all
        obtain ⟨hall, qs, hqs, hfits⟩ := ih hnd' hrest
        refine ⟨by simpa [put, hname] using hall, q :: qs, .cons hq hqs, ?_⟩
        intro g hg
        rcases List.mem_cons.1 hg with rfl | hg
        · exact hfit
        · exact hfits g hg

private theorem build_foldl_put (kind : CompositeKind) (floor : Nat) (qs : List Request) :
    ((Unbounded.fields kind 0 qs).foldl put { kind, floor }).build =
      fitting ((Unbounded.fields kind 0 qs).getLast?.map (·.name) |>.getD "")
          (Unbounded.layout kind floor qs).size >>= fun size =>
        .ok { Unbounded.layout kind floor qs with size } := by
  have halign : 0 < Unbounded.alignment (Unbounded.fields kind 0 qs) := Unbounded.alignment_pos _
  have hsize := roundUp_eq_leastMultiple halign
    (max (Unbounded.extent (Unbounded.fields kind 0 qs)) floor)
  rw [Nat.max_comm] at hsize
  rw [foldl_put]
  simp only [build, lastName, List.nil_append]
  unfold Unbounded.alignment Unbounded.extent at hsize
  rw [Nat.max_comm, hsize]
  rfl

end Placement

namespace Layout

variable {kind : CompositeKind} {floor : Nat} {spec : LayoutSpec} {qs : List Request}

theorem compute_of_fits (hpos : ∀ d, 0 < defs.alignmentOf d)
    (hnd : (spec.fields.map (·.name)).Nodup)
    (hq : List.Forall₂ (·.Denotes defs r ·) spec.fields qs)
    (hfit : (Unbounded.layout kind floor qs).Fits) :
    compute defs r kind floor spec = .ok (Unbounded.layout kind floor qs) := by
  have hadd := Placement.addSpecs_of_fits hpos hq (p := { kind, floor }) (by simpa using hnd)
    hfit.1
  rw [compute, hadd, ok_bind, Placement.build_foldl_put, Placement.fitting_of_lt _ hfit.2]
  rfl

theorem compute_of_not_fits (hpos : ∀ d, 0 < defs.alignmentOf d)
    (hnd : (spec.fields.map (·.name)).Nodup)
    (hq : List.Forall₂ (·.Denotes defs r ·) spec.fields qs)
    (hfit : ¬ (Unbounded.layout kind floor qs).Fits) :
    (compute defs r kind floor spec).FailsWith
      (.overflow (Unbounded.culprit (Unbounded.layout kind floor qs))) := by
  have hnd' : ((({ kind, floor } : Placement).fields.map (·.name)) ++
      spec.fields.map (·.name)).Nodup := by simpa using hnd
  rw [compute, Unbounded.culprit]
  cases hfind : (Unbounded.layout kind floor qs).fields.find? fun f => !decide f.Fits with
  | some g =>
      have hfail := Placement.addSpecs_of_not_fits hpos hq (p := { kind, floor }) hnd' hfind
      exact hfail.bind _
  | none =>
      have hfields : ∀ f ∈ (Unbounded.layout kind floor qs).fields, f.Fits := by
        simpa using List.find?_eq_none.1 hfind
      have hsize : addressCount ≤ (Unbounded.layout kind floor qs).size :=
        Nat.not_lt.1 fun h => hfit ⟨hfields, h⟩
      have hadd := Placement.addSpecs_of_fits hpos hq (p := { kind, floor }) hnd' hfields
      rw [hadd, ok_bind, Placement.build_foldl_put]
      exact (Placement.fitting_of_le _ hsize).bind _

/-- What is computed is the placement over unbounded numbers of fields with distinct names, and
all of its numbers fit. -/
theorem compute_eq_ok (hpos : ∀ d, 0 < defs.alignmentOf d) {l : Layout}
    (h : compute defs r kind floor spec = .ok l) :
    (spec.fields.map (·.name)).Nodup ∧
      ∃ qs, List.Forall₂ (·.Denotes defs r ·) spec.fields qs ∧
        l = Unbounded.layout kind floor qs ∧ l.Fits := by
  obtain ⟨p, hadd, -⟩ := bind_eq_ok.1 h
  obtain ⟨hnd, qs, hq, -⟩ := Placement.addSpecs_eq_ok hpos (by simp) hadd
  have hnd' : (spec.fields.map (·.name)).Nodup := by simpa using hnd
  refine ⟨hnd', qs, hq, ?_⟩
  by_cases hfit : (Unbounded.layout kind floor qs).Fits
  · have heq := compute_of_fits hpos hnd' hq hfit
    rw [h] at heq
    cases heq
    exact ⟨rfl, hfit⟩
  · exact absurd h ((compute_of_not_fits hpos hnd' hq hfit).ne_ok l)

end Layout

end ForeignBinding
