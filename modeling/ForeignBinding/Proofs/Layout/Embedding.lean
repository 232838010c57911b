import ForeignBinding.Proofs.Definitions

/-!
# Embedding

A composite is embedded in another whose layout has a field, or an array, of it. What a layout
embeds had a layout when it was placed, so no composite contains itself.
-/

namespace ForeignBinding.Definitions

/-- The layout of `c` has a field, or an array, of `e`. -/
def Embeds (defs : Definitions) (e c : Composite) : Prop :=
  ∃ l f, defs.layout? c = some l ∧ f ∈ l.fields ∧ f.kind.element.composite? = some e

variable {defs defs' : Definitions} {c e : Composite} {l : Layout}

private theorem Sound.exists_layout? (h : defs.Sound) (he : defs.Embeds e c) :
    ∃ l, defs.layout? e = some l := by
  obtain ⟨l, f, hl, hf, hcomposite⟩ := he
  exact (h.placed c l hl).isComplete hf e hcomposite

theorem Sound.embedded (h : defs.Sound) {f : Field} (hl : defs.layout? c = some l)
    (hf : f ∈ l.fields) (he : f.kind.element.composite? = some e) :
    ∃ inner, defs.layout? e = some inner ∧ f.size = inner.size * f.kind.count ∧
      f.alignment = inner.alignment := by
  have hplaced := h.placed c l hl
  obtain ⟨inner, hinner⟩ := hplaced.isComplete hf e he
  have hp : defs.progress e = .computed inner := layout?_eq_some.1 hinner
  have hsize := hplaced.size_eq hf
  have halignment := hplaced.alignment_eq hf
  refine ⟨inner, hinner, ?_⟩
  cases hd : f.kind.element with
  | prim p => simp [hd, Descriptor.composite?] at he
  | callback ps r k => simp [hd, Descriptor.composite?] at he
  | composite d | byValue d =>
      simp only [hd, Descriptor.composite?, Option.some.injEq] at he
      subst he
      rw [hd] at hsize halignment
      simp only [sizeOf, alignmentOf, hp] at hsize halignment
      exact ⟨hsize, halignment⟩

/-- A step embeds only composites that had a layout before it, and these embed no others. -/
theorem Step.wellFounded_embeds (h : defs.Step defs') (hs : defs.Sound)
    (hwf : WellFounded defs.Embeds) : WellFounded defs'.Embeds := by
  have hbefore : ∀ c, (∃ l, defs.layout? c = some l) → Acc defs'.Embeds c := by
    intro c
    induction c using hwf.induction with
    | _ c ih =>
      rintro ⟨l, hl⟩
      refine ⟨c, ?_⟩
      rintro e ⟨l', f, hl', hf, hcomposite⟩
      have hsame : l' = l := Option.some.inj (hl'.symm.trans (h.extends c l hl))
      have he : defs.Embeds e c := ⟨l, f, hl, hsame ▸ hf, hcomposite⟩
      exact ih e he (hs.exists_layout? he)
  refine ⟨fun c => ⟨c, ?_⟩⟩
  rintro e ⟨l, f, hl, hf, hcomposite⟩
  exact hbefore e ((h.isPlaced hs hl).isComplete hf e hcomposite)

private theorem wellFounded_embeds_empty : WellFounded empty.Embeds := by
  refine ⟨fun c => ⟨c, ?_⟩⟩
  rintro e ⟨l, f, hl, -⟩
  simp [layout?, empty, Progress.layout?] at hl

theorem Reachable.wellFounded_embeds (h : defs.Reachable) : WellFounded defs.Embeds := by
  induction h with
  | refl => exact wellFounded_embeds_empty
  | tail hrun hstep ih => exact hstep.wellFounded_embeds (Reachable.sound hrun) ih

/-- No composite contains itself, through however many others. -/
theorem Reachable.not_transGen_embeds (h : defs.Reachable) (c : Composite) :
    ¬ Relation.TransGen defs.Embeds c c :=
  h.wellFounded_embeds.transGen.irrefl.irrefl c

end ForeignBinding.Definitions
