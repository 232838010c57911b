import ForeignBinding.Manifest.Types
import ForeignBinding.Proofs.Declaration.Change
import ForeignBinding.Proofs.Scope.Genuine
import ForeignBinding.Proofs.Scope.Shadowing
import ForeignBinding.Proofs.Scope.Snapshot
import ForeignBinding.Report

/-!
# Independent declarations commute

Two declarations of types that do not mention each other's names lead to the same types in either
order, if both orders succeed. What a declaration amounts to could depend on the other through a
composite that the other one defines. But a layout with a composite in it can only be computed
where that composite has its own layout, and one that has it cannot be defined again.
-/

namespace ForeignBinding

open Attempt

/-- The name stands in the reference. -/
def TypeRef.Mentions : TypeRef → String → Prop
  | named n, name => n = name
  | byValue t, name => t.Mentions name
  | resolved _, _ | composite _, _ => False

instance TypeRef.decidableMentions : (t : TypeRef) → (name : String) → Decidable (t.Mentions name)
  | named n, name => inferInstanceAs (Decidable (n = name))
  | byValue t, name => decidableMentions t name
  | resolved _, _ | composite _, _ => isFalse id

/-- The declarations declare different names, and no type in one mentions the name of the other. -/
structure Declaration.Independent (d₁ d₂ : Declaration) : Prop where
  names : ∀ name, d₁.type? = some name → d₂.type? ≠ some name
  first : ∀ name, d₂.type? = some name → ∀ t ∈ d₁.refs, ¬ t.Mentions name
  second : ∀ name, d₁.type? = some name → ∀ t ∈ d₂.refs, ¬ t.Mentions name

theorem Declaration.Independent.symm {d₁ d₂ : Declaration} (h : d₁.Independent d₂) :
    d₂.Independent d₁ where
  names name h₂ h₁ := h.names name h₁ h₂
  first := h.second
  second := h.first

namespace Workspace.ChangesOnly

variable {w w' : Workspace} {types bound : String → Prop} {name : String} {t : TypeRef}

private theorem findComposite?_eq (h : ChangesOnly types bound w w') (hname : ¬ types name) :
    w'.scope.resolver.findComposite? name = w.scope.resolver.findComposite? name := by
  simp only [Resolver.findComposite?, Scope.resolver, Scope.registries, List.findSome?_cons,
    (h.registry name hname).composites, h.ancestors]

private theorem resolveByValue_eq (h : ChangesOnly types bound w w')
    (ht : ∀ name, types name → ¬ t.Mentions name) :
    w'.scope.resolver.resolveByValue t = w.scope.resolver.resolveByValue t := by
  induction t with
  | named name =>
      have hname : ¬ types name := fun htypes => ht name htypes rfl
      simp only [Resolver.resolveByValue, h.findComposite?_eq hname]
  | resolved | composite => rfl
  | byValue inner ih => exact ih ht

private theorem findType_eq_of_mentions (h : ChangesOnly types bound w w')
    (ht : ∀ name, types name → ¬ t.Mentions name) :
    w'.scope.findType t = w.scope.findType t := by
  cases t with
  | named name => exact h.findType_eq fun htypes => ht name htypes rfl
  | resolved | composite => rfl
  | byValue inner => exact h.resolveByValue_eq (t := inner) ht

theorem resolveInline_eq (h : ChangesOnly types bound w w')
    (ht : ∀ name, types name → ¬ t.Mentions name) :
    w'.scope.resolver.resolveInline t = w.scope.resolver.resolveInline t := by
  have hmeans : w'.scope.resolver.resolve t = w.scope.resolver.resolve t :=
    h.findType_eq_of_mentions ht
  cases t with
  | named name =>
      have hname : ¬ types name := fun htypes => ht name htypes rfl
      change w'.scope.resolver.resolveName name = w.scope.resolver.resolveName name at hmeans
      simp only [Resolver.resolveInline, h.findComposite?_eq hname, hmeans]
  | composite => rfl
  | resolved | byValue => exact hmeans

end Workspace.ChangesOnly

namespace Scope

variable {s s' : Scope}

private theorem findComposite?_eq_or (s : Scope) (name : String) :
    s.findComposite? name = (s.registry.composites.get? name).or
      (s.ancestors.findSome? (·.registry.composites.get? name)) := by
  simp only [findComposite?, Resolver.findComposite?, resolver, registries, List.findSome?_cons,
    List.findSome?_map]
  cases s.registry.composites.get? name <;> rfl

private theorem composite?_of_mentions {name : String} {c : Composite} {t : TypeRef}
    {d : Descriptor} (hc : s.registry.composites.get? name = some c) (ht : t.Mentions name)
    (hd : s.resolver.resolveInline t = .ok d) : d.composite? = some c := by
  have hfind : s.resolver.findComposite? name = some c := by
    simp only [Resolver.findComposite?, resolver, registries, List.findSome?_cons, hc]
  have hbyValue : ∀ t : TypeRef, t.Mentions name → s.resolver.resolveByValue t = .ok d →
      d.composite? = some c := by
    intro t ht hd
    induction t with
    | named other =>
        obtain rfl : other = name := ht
        simp only [Resolver.resolveByValue, hfind] at hd
        cases hd
        rfl
    | byValue inner ih => exact ih ht hd
    | resolved | composite => exact ht.elim
  cases t with
  | named other =>
      obtain rfl : other = name := ht
      simp only [Resolver.resolveInline, hfind] at hd
      cases hd
      rfl
  | byValue inner => exact hbyValue inner ht hd
  | resolved | composite => exact ht.elim

private theorem Signs.unique {params : List TypeRef} {ret : TypeRef} {sig sig' : Signature}
    (h : s.Signs params ret sig) (h' : s'.Signs params ret sig')
    (hmeans : ∀ t ∈ ret :: params, s'.findType t = s.findType t)
    (hconvention : s'.frame.convention = s.frame.convention) : sig' = sig := by
  obtain ⟨hret, hparams⟩ := List.forall_mem_cons.1 hmeans
  have hall : sig'.params.map (Except.ok (ε := Failure TypeError)) = sig.params.map .ok := by
    rw [← h'.params, ← h.params]
    exact List.map_congr_left hparams
  have hparams' : sig'.params = sig.params :=
    List.map_injective_iff.2 (fun _ _ => Except.ok.inj) hall
  have hret' : sig'.ret = sig.ret :=
    Except.ok.inj (h'.ret.symm.trans (hret.trans h.ret))
  have hconvention' : sig'.convention = sig.convention := by
    rw [h'.convention, h.convention, hconvention]
  cases sig
  cases sig'
  simp_all

end Scope

namespace Workspace

variable {w w' v v' : Workspace} {d d₁ d₂ : Declaration} {ch ch' : Change}
  {types : String → Prop}

/-- Only what there is under the given names has changed. -/
structure Follows (types : String → Prop) (w v : Workspace) : Prop where
  changes : ChangesOnly types (fun _ => True) w v
  grown : v.definitions.Extends w.definitions
  convention : v.scope.frame.convention = w.scope.frame.convention
  entry : ∀ name, ¬ types name → v.entry name = w.entry name

private theorem declare_follows (hw : w.Reachable) (h : w.Amounts d ch)
    (hdone : (w.declare d).2 = w.apply ch) : Follows (d.type? = some ·) w (w.apply ch) := by
  constructor
  · rw [← hdone]
    exact w.declare_changesOnly d (fun _ hname => hname) (fun _ _ => trivial)
  · rw [← hdone]
    exact (run_declare hw.known d).definitions_run.extends
  · have huntyped := congrArg (·.frame.convention) (w.untyped_apply ch)
    exact huntyped
  · intro name hname
    rw [entry_apply hw, h.name?_eq, if_neg hname]

private theorem ensure_changesOnly (w : Workspace) (kind : CompositeKind) (name : String) :
    ChangesOnly (· = name) (fun _ => True) w (w.ensure kind name).1 := by
  rw [ensure_eq_declare]
  exact w.declare_changesOnly _ (fun _ hname => (Option.some.inj hname).symm)
    (fun _ _ => trivial)

private theorem Follows.progress_ensure (h : Follows types w v) (hw : w.Reachable)
    (hv : v.Reachable) (kind : CompositeKind) {name : String} (hname : ¬ types name) :
    (v.ensure kind name).1.definitions.progress (v.ensure kind name).2 =
      (w.ensure kind name).1.definitions.progress (w.ensure kind name).2 := by
  have hentry : (v.ensure kind name).1.entry name = (w.ensure kind name).1.entry name := by
    rw [entry_ensure hv, entry_ensure hw, h.entry name hname]
  have hcomposite := congrArg Entry.composite? hentry
  simp only [Workspace.entry, get?_ensure_self, Option.map_some, Option.some.injEq,
    Prod.mk.injEq] at hcomposite
  exact hcomposite.2

private theorem Follows.layout (h : Follows types w v) {kind : CompositeKind} {name : String}
    {spec : LayoutSpec} {l : Layout} {floor : Nat}
    (hrefs : ∀ other, types other → ∀ t ∈ spec.refs, ¬ t.Mentions other)
    (unlaid : (w.ensure kind name).1.definitions.layout? (w.ensure kind name).2 = none)
    (computed : Layout.compute (w.ensure kind name).1.definitions
      (w.ensure kind name).1.scope.resolver kind floor spec = .ok l) :
    Layout.compute (v.ensure kind name).1.definitions (v.ensure kind name).1.scope.resolver kind
      floor spec = .ok l := by
  have hextends : (v.ensure kind name).1.definitions.Extends
      (w.ensure kind name).1.definitions := by
    intro c l hl
    simp only [Definitions.layout?, Workspace.progress_ensure] at hl ⊢
    exact h.grown c l hl
  refine Layout.compute_extends hextends ?_ computed
  intro f hf d hd hcomplete
  have ht : f.type.ref ∈ spec.refs := List.mem_map_of_mem hf
  -- The composite that is being defined has no layout yet, so it is in none of the fields.
  have hown : ¬ f.type.ref.Mentions name := by
    intro hmentions
    have hc := w.get?_ensure_self kind name
    obtain ⟨l', hl'⟩ := hcomplete _ (Scope.composite?_of_mentions hc hmentions hd)
    rw [unlaid] at hl'
    cases hl'
  have hother : ∀ other, other = name → ¬ f.type.ref.Mentions other := by
    rintro other rfl
    exact hown
  rw [(v.ensure_changesOnly kind name).resolveInline_eq hother,
    h.changes.resolveInline_eq (fun other htypes => hrefs other htypes _ ht),
    ← (w.ensure_changesOnly kind name).resolveInline_eq hother, hd]

/-- A declaration amounts to the same after changes under names that it neither declares nor
mentions. -/
theorem Amounts.unique (hw : w.Reachable) (hv : v.Reachable) (hfollows : Follows types w v)
    (hnames : ∀ name, d.type? = some name → ¬ types name)
    (hrefs : ∀ name, types name → ∀ t ∈ d.refs, ¬ t.Mentions name) (h : w.Amounts d ch)
    (h' : v.Amounts d ch') : ch' = ch := by
  have hmeans : ∀ t ∈ d.refs, v.scope.findType t = w.scope.findType t := by
    intro t ht
    exact hfollows.changes.findType_eq_of_mentions fun name htypes => hrefs name htypes t ht
  cases h with
  | typedef name means =>
      cases h' with
      | typedef _ means' =>
          rw [hmeans _ List.mem_cons_self, means] at means'
          cases means'
          rfl
  | callback name signs =>
      cases h' with
      | callback _ signs' => rw [signs.unique signs' hmeans hfollows.convention]
  | bare kind name =>
      cases h'
      rfl
  | @layout kind name spec l w₁ c ensured unlaid computed =>
      cases h' with
      | @layout _ _ _ l' v₁ c' ensured' unlaid' computed' =>
          obtain ⟨rfl, rfl⟩ : w₁ = (w.ensure kind name).1 ∧ c = (w.ensure kind name).2 := by
            simp [ensured]
          obtain ⟨rfl, rfl⟩ : v₁ = (v.ensure kind name).1 ∧ c' = (v.ensure kind name).2 := by
            simp [ensured']
          have hfloor := hfollows.progress_ensure hw hv kind (hnames name rfl)
          have hagain := hfollows.layout hrefs unlaid computed
          rw [hfloor, hagain] at computed'
          cases computed'
          rfl
  | size name n =>
      cases h'
      rfl

end Workspace

/-- The composites have the same name and kind, and the same is known of them. -/
structure Composite.Alike (defs defs' : Definitions) (c c' : Composite) : Prop where
  name : c.name = c'.name
  kind : c.kind = c'.kind
  progress : defs.progress c = defs'.progress c'

/-- The descriptors differ only in composites, which correspond. -/
inductive Descriptor.Alike (same : Composite → Composite → Prop) : Descriptor → Descriptor → Prop
  | prim (p : Prim) : Alike same (.prim p) (.prim p)
  | composite {c c' : Composite} (h : same c c') : Alike same (.composite c) (.composite c')
  | byValue {c c' : Composite} (h : same c c') : Alike same (.byValue c) (.byValue c')
  | callback {params params' : List Descriptor} {ret ret' : Descriptor} (convention : Convention)
      (params_alike : List.Forall₂ (Alike same) params params') (ret_alike : Alike same ret ret') :
      Alike same (.callback params ret convention) (.callback params' ret' convention)

private theorem Descriptor.alike_self {same : Composite → Composite → Prop}
    (hsame : ∀ c, same c c) : (d : Descriptor) → d.Alike same d
  | prim p => .prim p
  | composite c => .composite (hsame c)
  | byValue c => .byValue (hsame c)
  | callback _ ret convention =>
      .callback convention (List.forall₂_same.2 fun d _ => d.alike_self hsame)
        (ret.alike_self hsame)

private theorem Descriptor.Known.alike {defs : Definitions} {same : Composite → Composite → Prop}
    (hsame : ∀ c, c.id < defs.count → same c c) {d : Descriptor} (h : d.Known defs) :
    d.Alike same d := by
  induction h with
  | prim p => exact .prim p
  | composite declared => exact .composite (hsame _ declared)
  | byValue declared => exact .byValue (hsame _ declared)
  | callback convention _ _ ihparams ihret =>
      exact .callback convention (List.forall₂_same.2 ihparams) ihret

namespace Workspace

/-- The scopes report the same, and names mean the same in them, as parameters and as fields. -/
structure Agrees (w w' : Workspace) : Prop where
  report : Report.ofScope w.scope w.definitions = Report.ofScope w'.scope w'.definitions
  findType : ∀ name,
    Attempt.Alike (Descriptor.Alike (Composite.Alike w.definitions w'.definitions))
      (w.scope.findType (.named name)) (w'.scope.findType (.named name))
  resolveInline : ∀ name,
    Attempt.Alike (Descriptor.Alike (Composite.Alike w.definitions w'.definitions))
      (w.scope.resolver.resolveInline (.named name)) (w'.scope.resolver.resolveInline (.named name))

namespace Matches

variable {v v' : Workspace}

private theorem ancestors_eq (h : v.Matches v') : v.scope.ancestors = v'.scope.ancestors :=
  congrArg (·.ancestors) h.untyped

private theorem host_eq (h : v.Matches v') : v.scope.host = v'.scope.host :=
  congrArg (·.host) h.untyped

private theorem aliases_eq (h : v.Matches v') :
    v.scope.registry.aliases = v'.scope.registry.aliases :=
  NameMap.eq_of_get? fun name => congrArg Entry.alias? (h.entry name)

private theorem callbacks_eq (h : v.Matches v') :
    v.scope.registry.callbacks = v'.scope.registry.callbacks :=
  NameMap.eq_of_get? fun name => congrArg Entry.callback? (h.entry name)

private theorem composites_cases (h : v.Matches v') (hv : v.Reachable) (hv' : v'.Reachable)
    (name : String) :
    (v.scope.registry.composites.get? name = none ∧
        v'.scope.registry.composites.get? name = none) ∨
      ∃ c c', v.scope.registry.composites.get? name = some c ∧
        v'.scope.registry.composites.get? name = some c' ∧
        c.Alike v.definitions v'.definitions c' := by
  have hcomposite := congrArg Entry.composite? (h.entry name)
  cases hc : v.scope.registry.composites.get? name with
  | none =>
      cases hc' : v'.scope.registry.composites.get? name with
      | none => exact .inl ⟨rfl, rfl⟩
      | some c' => simp [Workspace.entry, hc, hc'] at hcomposite
  | some c =>
      cases hc' : v'.scope.registry.composites.get? name with
      | none => simp [Workspace.entry, hc, hc'] at hcomposite
      | some c' =>
          simp only [Workspace.entry, hc, hc', Option.map_some, Option.some.injEq,
            Prod.mk.injEq] at hcomposite
          obtain ⟨hkind, hprogress⟩ := hcomposite
          have hname : c.name = c'.name :=
            (hv.linked.composites name c hc).trans (hv'.linked.composites name c' hc').symm
          exact .inr ⟨c, c', rfl, rfl, hname, hkind, hprogress⟩

private theorem structs_eq (h : v.Matches v') (hv : v.Reachable) (hv' : v'.Reachable) :
    v.scope.registry.composites.entries.map (Report.composite v.definitions ·.2) =
      v'.scope.registry.composites.entries.map (Report.composite v'.definitions ·.2) := by
  apply NameMap.map_entries_eq
  intro name
  rcases h.composites_cases hv hv' name with ⟨hc, hc'⟩ | ⟨c, c', hc, hc', halike⟩
  · rw [hc, hc']
    rfl
  · rw [hc, hc', Option.map_some, Option.map_some]
    simp only [Report.composite, halike.name, halike.kind, halike.progress]

private theorem report_eq (h : v.Matches v') (hv : v.Reachable) (hv' : v'.Reachable) :
    Report.ofScope v.scope v.definitions = Report.ofScope v'.scope v'.definitions := by
  have hname : v.scope.frame.name = v'.scope.frame.name := congrArg (·.frame.name) h.untyped
  have hlibraries : Report.libraries v.scope.frame = Report.libraries v'.scope.frame :=
    congrArg (Report.libraries ·.frame) h.untyped
  have hbindings : v.scope.frame.bindings = v'.scope.frame.bindings :=
    congrArg (·.frame.bindings) h.untyped
  have henums : v.scope.registry.enumerations = v'.scope.registry.enumerations :=
    congrArg (·.registry.enumerations) h.untyped
  have htypedefs : Report.typedefs v.scope.registry = Report.typedefs v'.scope.registry := by
    have hkept : Report.isTypedef v.scope.registry = Report.isTypedef v'.scope.registry := by
      funext name
      simp only [Report.isTypedef, Registry.findEnum?, h.callbacks_eq, henums]
    rw [Report.typedefs, Report.typedefs, h.aliases_eq, hkept]
  change Report.ofFrame v.scope.frame v.definitions = Report.ofFrame v'.scope.frame v'.definitions
  have hstructs := h.structs_eq hv hv'
  have hcallbacks := h.callbacks_eq
  simp only [Scope.registry] at htypedefs henums hstructs hcallbacks
  simp only [Report.ofFrame, hname, hlibraries, hbindings, htypedefs, henums, hstructs, hcallbacks]

private theorem findType_eq (h : v.Matches v') (hv : v.Reachable) (hv' : v'.Reachable)
    (name : String) : v.scope.findType (.named name) = v'.scope.findType (.named name) := by
  have hown : v.scope.registry.resolve? name = v'.scope.registry.resolve? name := by
    unfold Registry.resolve?
    rw [h.aliases_eq, h.callbacks_eq]
    rcases h.composites_cases hv hv' name with ⟨hc, hc'⟩ | ⟨c, c', hc, hc', -⟩
    · rw [hc, hc']
    · rw [hc, hc']
  simp only [Scope.findType, Resolver.resolve, Resolver.resolveName, Scope.resolver,
    Scope.registries, List.findSome?_cons, hown, h.ancestors_eq, h.host_eq]

private theorem resolveInline_alike (h : v.Matches v') (hv : v.Reachable) (hv' : v'.Reachable)
    (hancestors : ∀ F ∈ v.scope.ancestors, ∀ name c, F.registry.composites.get? name = some c →
      c.Alike v.definitions v'.definitions c) {name : String}
    (hmeans : Attempt.Alike (Descriptor.Alike (Composite.Alike v.definitions v'.definitions))
      (v.scope.findType (.named name)) (v'.scope.findType (.named name))) :
    Attempt.Alike (Descriptor.Alike (Composite.Alike v.definitions v'.definitions))
      (v.scope.resolver.resolveInline (.named name))
      (v'.scope.resolver.resolveInline (.named name)) := by
  have hfind := v.scope.findComposite?_eq_or name
  have hfind' := v'.scope.findComposite?_eq_or name
  rcases h.composites_cases hv hv' name with ⟨hc, hc'⟩ | ⟨c, c', hc, hc', halike⟩
  · rw [hc, Option.none_or] at hfind
    rw [hc', Option.none_or, ← h.ancestors_eq] at hfind'
    cases hout : v.scope.ancestors.findSome? (·.registry.composites.get? name) with
    | none =>
        rw [Scope.resolveInline_of_findComposite?_eq_none (hfind.trans hout),
          Scope.resolveInline_of_findComposite?_eq_none (hfind'.trans hout)]
        exact hmeans
    | some c =>
        rw [Scope.resolveInline_of_findComposite? (hfind.trans hout),
          Scope.resolveInline_of_findComposite? (hfind'.trans hout)]
        obtain ⟨F, hF, hname⟩ := List.exists_of_findSome?_eq_some hout
        exact .ok (.composite (hancestors F hF name c hname))
  · rw [hc, Option.some_or] at hfind
    rw [hc', Option.some_or] at hfind'
    rw [Scope.resolveInline_of_findComposite? hfind,
      Scope.resolveInline_of_findComposite? hfind']
    exact .ok (.composite halike)

end Matches

variable {w v v' : Workspace} {d₁ d₂ : Declaration}

private theorem declareAll_cons_eq_ok {d : Declaration} {ds : List Declaration}
    (h : w.declareAll (d :: ds) = .ok v) :
    ∃ x w', w.declare d = (.ok x, w') ∧ w'.declareAll ds = .ok v := by
  rw [declareAll] at h
  split at h
  · rename_i x w' hdeclare
    exact ⟨x, w', hdeclare, h⟩
  · cases h

private theorem eq_actAll_of_declareAll {ds : List Declaration} (h : w.declareAll ds = .ok v) :
    v = w.actAll (ds.map .declare) := by
  induction ds generalizing w with
  | nil => exact (Except.ok.inj h).symm
  | cons d ds ih =>
      obtain ⟨x, w', hdeclare, hrest⟩ := declareAll_cons_eq_ok h
      have hact : w.act (.declare d) = w' := congrArg Prod.snd hdeclare
      rw [List.map_cons, actAll, List.foldl_cons, hact]
      exact ih hrest

/-- Where two independent declarations succeed in both orders, each amounts to the same in both. -/
theorem exists_changes (hw : w.Reachable) (hd₁ : d₁.isDerived) (hd₂ : d₂.isDerived)
    (hfree : d₁.Independent d₂) (h : w.declareAll [d₁, d₂] = .ok v)
    (h' : w.declareAll [d₂, d₁] = .ok v') :
    ∃ ch₁ ch₂, v = (w.apply ch₁).apply ch₂ ∧ v' = (w.apply ch₂).apply ch₁ ∧ v.Matches v' := by
  obtain ⟨x₁, w₁, hdone₁, h⟩ := declareAll_cons_eq_ok h
  obtain ⟨y₂, _, hlast₂, heq⟩ := declareAll_cons_eq_ok h
  cases heq
  obtain ⟨x₂, w₂, hdone₂, h'⟩ := declareAll_cons_eq_ok h'
  obtain ⟨y₁, _, hlast₁, heq⟩ := declareAll_cons_eq_ok h'
  cases heq
  obtain ⟨ch₁, hch₁, rfl⟩ := amounts_of_declare hd₁ hdone₁
  obtain ⟨ch₂, hch₂, rfl⟩ := amounts_of_declare hd₂ hdone₂
  obtain ⟨ch₂', hch₂', rfl⟩ := amounts_of_declare hd₂ hlast₂
  obtain ⟨ch₁', hch₁', rfl⟩ := amounts_of_declare hd₁ hlast₁
  have hafter₁ : (w.declare d₁).2 = w.apply ch₁ := congrArg Prod.snd hdone₁
  have hafter₂ : (w.declare d₂).2 = w.apply ch₂ := congrArg Prod.snd hdone₂
  have hw₁ : (w.apply ch₁).Reachable := hafter₁ ▸ hw.declare d₁
  have hw₂ : (w.apply ch₂).Reachable := hafter₂ ▸ hw.declare d₂
  obtain rfl : ch₂' = ch₂ :=
    hch₂.unique hw hw₁ (declare_follows hw hch₁ hafter₁) hfree.symm.names hfree.second hch₂'
  obtain rfl : ch₁' = ch₁ :=
    hch₁.unique hw hw₂ (declare_follows hw hch₂ hafter₂) hfree.names hfree.first hch₁'
  refine ⟨ch₁', ch₂', rfl, rfl, matches_apply hw hw₁ hw₂ ?_⟩
  rw [hch₁.name?_eq, hch₂.name?_eq]
  exact hfree.names

private theorem Matches.progress_eq (h : v.Matches v') {as as' : List Action} (hv : v = w.actAll as)
    (hv' : v' = w.actAll as') {c : Composite} (hc : c.id < w.definitions.count) :
    v.definitions.progress c = v'.definitions.progress c := by
  by_cases hown : ∃ name, w.scope.registry.composites.get? name = some c
  · obtain ⟨name, hname⟩ := hown
    have hkept : ∀ as, (w.actAll as).scope.registry.composites.get? name = some c :=
      fun as => (w.becomes_actAll as).composites hname
    have hcomposite := congrArg Entry.composite? (h.entry name)
    simpa [Workspace.entry, hv, hv', hkept] using hcomposite
  · have hforeign : w.scope.Foreign w.definitions c := ⟨hc, not_exists.1 hown⟩
    have hkept : ∀ as, (w.actAll as).definitions.progress c = w.definitions.progress c := by
      intro as
      have hchanges : ChangesOnly (fun _ => True) (fun _ => True) w (w.actAll as) :=
        w.actAll_changesOnly as (fun _ _ _ _ => trivial) (fun _ _ _ _ => trivial)
      exact (hchanges.foreign c hforeign).2
    rw [hv, hv', hkept, hkept]

private theorem Reachable.declareAll {ds : List Declaration} (hw : w.Reachable)
    (h : w.declareAll ds = .ok v) : v.Reachable := by
  induction ds generalizing w with
  | nil => exact Except.ok.inj h ▸ hw
  | cons d ds ih =>
      obtain ⟨x, w', hdeclare, hrest⟩ := declareAll_cons_eq_ok h
      have hafter : (w.declare d).2 = w' := congrArg Prod.snd hdeclare
      exact ih (hafter ▸ hw.declare d) hrest

/-- Descriptors that are stored after two changes are alike in both orders. Either only one of the
changes defines a composite, and then the same is defined in both orders. Or both do, and then all
that is stored was stored before. -/
theorem Genuine.stores_alike {ch₁ ch₂ : Change} (hw : w.Genuine) (hv : v = (w.apply ch₁).apply ch₂)
    (hv' : v' = (w.apply ch₂).apply ch₁)
    (hsame : ∀ c : Composite, c.id < w.definitions.count →
      c.Alike v.definitions v'.definitions c) :
    ∀ F ∈ v.scope.frames,
      F.Stores fun d => d.Alike (Composite.Alike v.definitions v'.definitions) d := by
  by_cases hboth : ch₁.isComposite ∧ ch₂.isComposite
  · have hbefore : ∀ F ∈ w.scope.frames,
        F.Stores fun d => d.Alike (Composite.Alike v.definitions v'.definitions) d := by
      intro F hF
      obtain ⟨haliases, hcallbacks⟩ := hw.grounded.stored F hF
      exact ⟨fun name d hd => (haliases name d hd).alike hsame,
        fun name sig hsig => (hcallbacks name sig hsig).alike hsame⟩
    obtain ⟨hown, haround⟩ := List.forall_mem_cons.1 hbefore
    refine List.forall_mem_cons.2 ⟨?_, ?_⟩
    · rw [hv] at hown ⊢
      exact stores_apply hboth.2 (stores_apply hboth.1 hown)
    · have huntyped : v.scope.untyped = w.scope.untyped := by
        rw [hv, untyped_apply, untyped_apply]
      have hancestors : v.scope.ancestors = w.scope.ancestors := congrArg (·.ancestors) huntyped
      exact hancestors ▸ haround
  · have heq : v.definitions = v'.definitions := by
      rw [hv, hv']
      rcases not_and_or.1 hboth with h₁ | h₂
      · exact w.definitions_apply_comm (Bool.eq_false_iff.2 h₁)
      · exact (w.definitions_apply_comm (Bool.eq_false_iff.2 h₂)).symm
    have hdefined : ∀ d : Descriptor, d.Alike (Composite.Alike v.definitions v'.definitions) d :=
      fun d => d.alike_self fun c => ⟨rfl, rfl, by rw [heq]⟩
    intro F _
    exact ⟨fun _ d _ => hdefined d, fun _ sig _ => hdefined sig.toDescriptor⟩

/-- Two declarations of an alias, a callback, a composite or a size are made in a scope in both
orders, and all succeed. If they declare different names and no type in one mentions the name that
the other declares, then the scope reports the same after both orders, and every name means the
same, as a parameter and as a field, up to composites of the same name, kind and layout. What was
known of a composite declared before is also the same. -/
theorem declarations_commute (hw : w.Genuine) (hd₁ : d₁.isDerived) (hd₂ : d₂.isDerived)
    (hfree : d₁.Independent d₂) (h : w.declareAll [d₁, d₂] = .ok v)
    (h' : w.declareAll [d₂, d₁] = .ok v') :
    v.Agrees v' ∧ ∀ c : Composite, c.id < w.definitions.count →
      v.definitions.progress c = v'.definitions.progress c := by
  have hv : v.Reachable := hw.reachable.declareAll h
  have hv' : v'.Reachable := hw.reachable.declareAll h'
  obtain ⟨ch₁, ch₂, hchanges, hchanges', hmatches⟩ :=
    exists_changes hw.reachable hd₁ hd₂ hfree h h'
  have hact : v = w.actAll [.declare d₁, .declare d₂] := eq_actAll_of_declareAll h
  have hprogress : ∀ c, c.id < w.definitions.count →
      v.definitions.progress c = v'.definitions.progress c :=
    fun c hc => hmatches.progress_eq hact (eq_actAll_of_declareAll h') hc
  have hsame : ∀ c : Composite, c.id < w.definitions.count →
      c.Alike v.definitions v'.definitions c :=
    fun c hc => ⟨rfl, rfl, hprogress c hc⟩
  have hstores := hw.stores_alike hchanges hchanges' hsame
  have hfindType : ∀ name,
      Attempt.Alike (Descriptor.Alike (Composite.Alike v.definitions v'.definitions))
        (v.scope.findType (.named name)) (v'.scope.findType (.named name)) := by
    intro name
    rw [← hmatches.findType_eq hv hv']
    cases hfind : v.scope.findType (.named name) with
    | error f => exact .error f
    | ok d => exact .ok (Scope.of_findType_named .prim hstores hfind)
  refine ⟨⟨hmatches.report_eq hv hv', hfindType, ?_⟩, hprogress⟩
  intro name
  apply hmatches.resolveInline_alike hv hv' ?_ (hfindType name)
  intro F hF other c hc
  have hancestors : v.scope.ancestors = w.scope.ancestors := by
    rw [hact]
    exact (declare_ancestors _ d₂).trans (w.declare_ancestors d₁)
  have hmem : F ∈ w.scope.frames := List.mem_cons_of_mem _ (hancestors ▸ hF)
  exact hsame c (hw.reachable.composites_known F hmem other c hc)

end Workspace

-- Both composites embed a point. Which of them comes first is seen only by their identities.
namespace Sample

def plane : Workspace :=
  workspace.actAll
    [.declare (.composite .struct "point" (some pointSpec)),
      .declare (.typedef (.byValue (.named "point")) "spot")]

def segment : Declaration := .composite .struct "segment" (some (.keyed
  [("from", .single (.named "spot")), ("to", .single (.named "spot"))]))

def figure : Declaration := .composite .union "figure" (some (.keyed
  [("at", .single (.byValue (.named "point"))), ("tag", .single (.named "int64"))]))

def segmentFirst : Workspace := plane.actAll [.declare segment, .declare figure]

def figureFirst : Workspace := plane.actAll [.declare figure, .declare segment]

private theorem plane_genuine : plane.Genuine := by
  have hworkspace : workspace.Genuine :=
    ⟨_, .single (.new "main" host), List.mem_cons_self, rfl⟩
  have hpoint : ∀ t ∈ (Declaration.composite .struct "point" (some pointSpec)).refs,
      t.Known workspace.definitions :=
    List.forall_mem_cons.2 ⟨Descriptor.Known.prim .int32,
      List.forall_mem_singleton.2 (Descriptor.Known.prim .int16)⟩
  have hspot : ∀ t ∈ (Declaration.typedef (.byValue (.named "point")) "spot").refs,
      t.Known (workspace.declare (.composite .struct "point" (some pointSpec))).2.definitions :=
    List.forall_mem_singleton.2 trivial
  exact (hworkspace.declare hpoint).declare hspot

private theorem independent_segment_figure : segment.Independent figure where
  names := by
    rintro name ⟨⟩
    decide
  first := by
    rintro name ⟨⟩
    decide
  second := by
    rintro name ⟨⟩
    decide

private theorem declareAll_segmentFirst : plane.declareAll [segment, figure] = .ok segmentFirst :=
  rfl

private theorem declareAll_figureFirst : plane.declareAll [figure, segment] = .ok figureFirst := rfl

end Sample

theorem Workspace.declarations_commute_plane :
    Sample.plane.Genuine ∧ Sample.segment.Independent Sample.figure ∧
      Sample.plane.declareAll [Sample.segment, Sample.figure] = .ok Sample.segmentFirst ∧
      Sample.plane.declareAll [Sample.figure, Sample.segment] = .ok Sample.figureFirst ∧
      Sample.segmentFirst.scope.registry.composites.get? "figure" = some ⟨2, .union, "figure"⟩ ∧
      Sample.figureFirst.scope.registry.composites.get? "figure" = some ⟨1, .union, "figure"⟩ ∧
      Sample.segmentFirst.Agrees Sample.figureFirst := by
  obtain ⟨hagrees, -⟩ := declarations_commute Sample.plane_genuine rfl rfl
    Sample.independent_segment_figure Sample.declareAll_segmentFirst Sample.declareAll_figureFirst
  exact ⟨Sample.plane_genuine, Sample.independent_segment_figure, Sample.declareAll_segmentFirst,
    Sample.declareAll_figureFirst, rfl, rfl, hagrees⟩

end ForeignBinding
