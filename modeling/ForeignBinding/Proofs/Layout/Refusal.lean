import ForeignBinding.Proofs.Layout.Definition

/-!
# Fields that are refused

A definition takes its fields one by one, and fails with what is wrong with the first that it
refuses. So a name that is used twice is found only where all fields up to there are placed.
-/

namespace ForeignBinding

open Attempt

variable {defs : Definitions} {r : Resolver} {kind : CompositeKind}

namespace Unbounded

/-- Where the last of the fields ends; `cursor` if there is none. -/
def stop (cursor : Nat) (placed : List Field) : Nat :=
  (placed.map Field.stop).foldl (fun _ stop => stop) cursor

private theorem fields_concat (kind : CompositeKind) (cursor : Nat) (qs : List Request)
    (q : Request) : fields kind cursor (qs ++ [q]) =
      fields kind cursor qs ++ [q.field kind (stop cursor (fields kind cursor qs))] := by
  induction qs generalizing cursor with
  | nil => rfl
  | cons q' qs ih =>
      rw [List.cons_append, fields, ih]
      rfl

end Unbounded

/-- The fields are placed one after the other, as the requests that they denote. -/
structure Places (defs : Definitions) (r : Resolver) (kind : CompositeKind)
    (fs : List FieldSpec) (qs : List Request) : Prop where
  nodup : (fs.map (·.name)).Nodup
  denotes : List.Forall₂ (·.Denotes defs r ·) fs qs
  fits : ∀ g ∈ Unbounded.fields kind 0 qs, g.Fits

/-- What is wrong with a field behind those that are placed. -/
inductive FieldSpec.Refused (defs : Definitions) (r : Resolver) (kind : CompositeKind)
    (placed : List Field) (f : FieldSpec) : LayoutError → Prop
  | repeated (used : f.name ∈ placed.map (·.name)) :
      Refused defs r kind placed f (.duplicateField f.name)
  | unknown (new : f.name ∉ placed.map (·.name))
      (unresolved : ∀ d, r.resolveInline f.type.ref ≠ .ok d) :
      Refused defs r kind placed f (.fieldType f.name)
  | incomplete {d : Descriptor} {c : Composite} (new : f.name ∉ placed.map (·.name))
      (resolved : r.resolveInline f.type.ref = .ok d) (embeds : d.composite? = some c)
      (unlaid : defs.layout? c = none) :
      Refused defs r kind placed f (.incomplete c.name)
  | tooLarge {q : Request} (new : f.name ∉ placed.map (·.name)) (denotes : f.Denotes defs r q)
      (large : ¬ (q.field kind (Unbounded.stop 0 placed)).Fits) :
      Refused defs r kind placed f (.overflow f.name)

/-- The fields in front of the first one that is refused are placed, and this is wrong with it. -/
def LayoutSpec.Refused (spec : LayoutSpec) (defs : Definitions) (r : Resolver)
    (kind : CompositeKind) (cause : LayoutError) : Prop :=
  ∃ before f after qs, spec.fields = before ++ f :: after ∧ Places defs r kind before qs ∧
    f.Refused defs r kind (Unbounded.fields kind 0 qs) cause

namespace Places

variable {fs : List FieldSpec} {qs : List Request} {f : FieldSpec} {q : Request}

private theorem map_name (h : Places defs r kind fs qs) :
    (Unbounded.fields kind 0 qs).map (·.name) = fs.map (·.name) :=
  (Unbounded.map_name_fields _ _ _).trans (denotes_names h.denotes)

private theorem concat (h : Places defs r kind fs qs) (hnew : f.name ∉ fs.map (·.name))
    (hq : f.Denotes defs r q)
    (hfit : (q.field kind (Unbounded.stop 0 (Unbounded.fields kind 0 qs))).Fits) :
    Places defs r kind (fs ++ [f]) (qs ++ [q]) where
  nodup := by
    rw [List.map_append, List.map_singleton, ← List.concat_eq_append, List.nodup_concat]
    exact ⟨hnew, h.nodup⟩
  denotes := List.rel_append h.denotes (.cons hq .nil)
  fits := by
    rw [Unbounded.fields_concat, List.forall_mem_append]
    exact ⟨h.fits, List.forall_mem_singleton.2 hfit⟩

end Places

private theorem FieldSpec.refused_or_denotes (defs : Definitions) (r : Resolver)
    (kind : CompositeKind) (placed : List Field) (f : FieldSpec) :
    (∃ cause, f.Refused defs r kind placed cause) ∨
      f.name ∉ placed.map (·.name) ∧
        ∃ q, f.Denotes defs r q ∧ (q.field kind (Unbounded.stop 0 placed)).Fits := by
  by_cases hnew : f.name ∈ placed.map (·.name)
  · exact .inl ⟨_, .repeated hnew⟩
  · cases hd : r.resolveInline f.type.ref with
    | error e => exact .inl ⟨_, .unknown hnew (by simp [hd])⟩
    | ok d =>
        by_cases hc : d.IsComplete defs
        · have hq : f.Denotes defs r (f.request defs d) := ⟨d, hd, hc, rfl⟩
          by_cases hfit : ((f.request defs d).field kind (Unbounded.stop 0 placed)).Fits
          · exact .inr ⟨hnew, _, hq, hfit⟩
          · exact .inl ⟨_, .tooLarge hnew hq hfit⟩
        · simp only [Descriptor.IsComplete, not_forall, not_exists] at hc
          obtain ⟨c, hembeds, hnone⟩ := hc
          exact .inl ⟨_, .incomplete hnew hd hembeds (Option.eq_none_iff_forall_ne_some.2 hnone)⟩

/-- All fields are placed, or there is a first one that is refused. -/
theorem places_or_refused (defs : Definitions) (r : Resolver) (kind : CompositeKind)
    (fs : List FieldSpec) :
    (∃ qs, Places defs r kind fs qs) ∨
      ∃ before f after qs cause, fs = before ++ f :: after ∧ Places defs r kind before qs ∧
        f.Refused defs r kind (Unbounded.fields kind 0 qs) cause := by
  induction fs using List.reverseRecOn with
  | nil => exact .inl ⟨[], .nil, .nil, by simp [Unbounded.fields]⟩
  | append_singleton fs f ih =>
      rcases ih with ⟨qs, hplaces⟩ | ⟨before, g, after, qs, cause, rfl, hplaces, hrefused⟩
      · rcases f.refused_or_denotes defs r kind (Unbounded.fields kind 0 qs) with
          ⟨cause, hrefused⟩ | ⟨hnew, q, hq, hfit⟩
        · exact .inr ⟨fs, f, [], qs, cause, rfl, hplaces, hrefused⟩
        · exact .inl ⟨_, hplaces.concat (hplaces.map_name ▸ hnew) hq hfit⟩
      · exact .inr ⟨before, g, after ++ [f], qs, cause, by simp, hplaces, hrefused⟩

namespace Placement

private theorem addSpec_of_refused (hpos : ∀ d, 0 < defs.alignmentOf d) {p : Placement}
    {f : FieldSpec} {cause : LayoutError} (hcursor : p.cursor = Unbounded.stop 0 p.fields)
    (hnew : f.name ∉ p.fields.map (·.name)) (h : f.Refused defs r p.kind p.fields cause) :
    (p.addSpec defs r f).FailsWith cause := by
  cases h with
  | repeated used => exact absurd used hnew
  | unknown _ unresolved =>
      cases hd : r.resolveInline f.type.ref with
      | ok d => exact absurd hd (unresolved d)
      | error e => exact ⟨_, by rw [addSpec, hd]; rfl, rfl⟩
  | @incomplete d c _ resolved embeds unlaid =>
      have hextent : (extentOf defs d f.name).FailsWith (.incomplete c.name) := by
        simp only [extentOf, embeds, embedded, unlaid]
        exact (failsWith_fail _).noting _
      rw [addSpec, resolved, under_ok, ok_bind]
      cases f.type <;> exact hextent.bind _
  | tooLarge _ denotes large =>
      rw [← hcursor] at large
      exact addSpec_of_not_fits (denotes.alignment_pos hpos) denotes large

private theorem addSpecs_of_refused (hpos : ∀ d, 0 < defs.alignmentOf d) {p : Placement}
    {f : FieldSpec} {cause : LayoutError} (hcursor : p.cursor = Unbounded.stop 0 p.fields)
    (h : f.Refused defs r p.kind p.fields cause) (fs : List FieldSpec) :
    (addSpecs defs r p (f :: fs)).FailsWith cause := by
  by_cases hused : f.name ∈ p.fields.map (·.name)
  · rw [addSpecs_of_used hused]
    cases h with
    | repeated _ => exact failsWith_fail _
    | unknown new | incomplete new | tooLarge new => exact absurd hused new
  · rw [addSpecs_of_new hused]
    exact (addSpec_of_refused hpos hcursor hused h).bind _

end Placement

private theorem Layout.compute_of_refused (hpos : ∀ d, 0 < defs.alignmentOf d) (floor : Nat)
    {spec : LayoutSpec} {cause : LayoutError} (h : spec.Refused defs r kind cause) :
    (compute defs r kind floor spec).FailsWith cause := by
  obtain ⟨before, f, after, qs, heq, hplaces, hrefused⟩ := h
  have hbefore := Placement.addSpecs_of_fits hpos hplaces.denotes (p := { kind, floor })
    (by simpa using hplaces.nodup) hplaces.fits
  rw [compute, heq, Placement.addSpecs_append, hbefore, ok_bind, Placement.foldl_put]
  exact (Placement.addSpecs_of_refused hpos rfl hrefused after).bind _

namespace Definitions

variable {c : Composite} {spec : LayoutSpec}

private theorem define_of_refused (hdefs : defs.Sound) (hnone : defs.layout? c = none)
    {cause : LayoutError} (h : spec.Refused defs r c.kind cause) :
    (defs.define r c spec).FailsWith cause :=
  define_failsWith hnone (Layout.compute_of_refused hdefs.alignmentOf_pos _ h)

private theorem exists_refused (hrepeated : ¬ (spec.fields.map (·.name)).Nodup) (defs : Definitions)
    (r : Resolver) (kind : CompositeKind) : ∃ cause, spec.Refused defs r kind cause := by
  rcases places_or_refused defs r kind spec.fields with
    ⟨qs, hplaces⟩ | ⟨before, f, after, qs, cause, hrefused⟩
  · exact absurd hplaces.nodup hrepeated
  · exact ⟨cause, before, f, after, qs, hrefused⟩

/-- A definition in which a name is used twice fails with what is wrong with the first field that is
refused. This is the name itself if and only if all fields in front of the second use are placed. -/
theorem define_of_repeated {defs : Definitions} (hdefs : defs.Reachable) {r : Resolver}
    {c : Composite} {spec : LayoutSpec} (hnone : defs.layout? c = none)
    (hrepeated : ¬ (spec.fields.map (·.name)).Nodup) :
    (∃ cause, spec.Refused defs r c.kind cause) ∧
      (∀ cause, (defs.define r c spec).FailsWith cause ↔ spec.Refused defs r c.kind cause) ∧
      ∀ before f after, spec.fields = before ++ f :: after → (before.map (·.name)).Nodup →
        f.name ∈ before.map (·.name) →
          ∀ n, (defs.define r c spec).FailsWith (.duplicateField n) ↔
            n = f.name ∧ ∃ qs, Places defs r c.kind before qs := by
  have hfails : ∀ cause, spec.Refused defs r c.kind cause →
      (defs.define r c spec).FailsWith cause := fun _ => define_of_refused hdefs.sound hnone
  obtain ⟨first, hfirst⟩ := exists_refused hrepeated defs r c.kind
  refine ⟨⟨first, hfirst⟩, fun cause => ⟨fun h => ?_, hfails cause⟩, ?_⟩
  · rwa [h.unique (hfails first hfirst)]
  · intro before f after heq hnd hused n
    constructor
    · intro hduplicate
      rcases places_or_refused defs r c.kind before with
        ⟨qs, hplaces⟩ | ⟨placed, g, rest, qs, cause, hbefore, hplaces, hrefused⟩
      · have hrefused : f.Refused defs r c.kind (Unbounded.fields c.kind 0 qs)
            (.duplicateField f.name) := .repeated (hplaces.map_name ▸ hused)
        have hname := hduplicate.unique (hfails _ ⟨before, f, after, qs, heq, hplaces, hrefused⟩)
        exact ⟨LayoutError.duplicateField.inj hname, qs, hplaces⟩
      · -- The field that is refused comes earlier, so it is not for its name.
        have hspec : spec.fields = placed ++ g :: (rest ++ f :: after) := by
          rw [heq, hbefore, List.append_assoc, List.cons_append]
        cases hduplicate.unique (hfails _ ⟨placed, g, _, qs, hspec, hplaces, hrefused⟩)
        cases hrefused with
        | repeated used =>
            rw [hplaces.map_name] at used
            rw [hbefore, List.map_append, List.nodup_append] at hnd
            exact absurd rfl (hnd.2.2 g.name used g.name (by simp))
    · rintro ⟨rfl, qs, hplaces⟩
      exact hfails _ ⟨before, f, after, qs, heq, hplaces, .repeated (hplaces.map_name ▸ hused)⟩

end Definitions

-- A tag is declared twice, behind a field of an unknown type and in front of it.
namespace Sample

def next : FieldSpec := ⟨"next", .single (.named "node"), none⟩

def tag (p : Prim) : FieldSpec := ⟨"tag", .single (.resolved (.prim p)), none⟩

def tagsLast : LayoutSpec := .ordered [next, tag .int8, tag .int16]

def tagsFirst : LayoutSpec := .ordered [tag .int8, tag .int16, next]

private theorem tagsLast_refused :
    tagsLast.Refused definitions resolver packet.kind (.fieldType "next") := by
  have hunknown : ∀ d, resolver.resolveInline next.type.ref ≠ .ok d := fun d hd => nomatch hd
  exact ⟨[], next, [tag .int8, tag .int16], [], rfl, ⟨.nil, .nil, by simp [Unbounded.fields]⟩,
    .unknown (by simp [Unbounded.fields]) hunknown⟩

private theorem tag_places :
    Places definitions resolver packet.kind [tag .int8]
      [⟨"tag", .scalar (.prim .int8), 1, 1, none⟩] where
  nodup := by simp
  denotes := by
    have hcomplete : (Descriptor.prim .int8).IsComplete definitions := fun c hc => nomatch hc
    exact .cons ⟨_, rfl, hcomplete, rfl⟩ .nil
  fits := by decide

end Sample

namespace Definitions

theorem define_of_repeated_tags :
    let define := Sample.definitions.define Sample.resolver Sample.packet
    Sample.definitions.Reachable ∧ Sample.definitions.layout? Sample.packet = none ∧
      ¬ (Sample.tagsLast.fields.map (·.name)).Nodup ∧
      (define Sample.tagsLast).FailsWith (.fieldType "next") ∧
      ¬ (Sample.tagsFirst.fields.map (·.name)).Nodup ∧
      (define Sample.tagsFirst).FailsWith (.duplicateField "tag") := by
  intro define
  have hlast : ¬ (Sample.tagsLast.fields.map (·.name)).Nodup := by decide
  have hfirst : ¬ (Sample.tagsFirst.fields.map (·.name)).Nodup := by decide
  have hrefused := define_of_repeated Sample.definitions_reachable (r := Sample.resolver)
    (c := Sample.packet) rfl hlast
  have hduplicate := define_of_repeated Sample.definitions_reachable (r := Sample.resolver)
    (c := Sample.packet) rfl hfirst
  refine ⟨Sample.definitions_reachable, rfl, hlast, (hrefused.2.1 _).2 Sample.tagsLast_refused,
    hfirst, ?_⟩
  exact (hduplicate.2.2 [Sample.tag .int8] (Sample.tag .int16) [Sample.next] rfl (by decide)
    (by decide) "tag").2 ⟨rfl, _, Sample.tag_places⟩

/-- A name that is used twice need not be what a definition fails with. -/
theorem not_define_of_repeated :
    ¬ ∀ (defs : Definitions) (r : Resolver) (c : Composite) (spec : LayoutSpec),
      defs.Reachable → defs.layout? c = none → ¬ (spec.fields.map (·.name)).Nodup →
        ∃ n, (defs.define r c spec).FailsWith (.duplicateField n) := by
  intro h
  obtain ⟨n, hn⟩ := h Sample.definitions Sample.resolver Sample.packet Sample.tagsLast
    Sample.definitions_reachable rfl (by decide)
  have hrefused := define_of_refused Sample.definitions_reachable.sound rfl Sample.tagsLast_refused
  cases hn.unique hrefused

end Definitions

end ForeignBinding
