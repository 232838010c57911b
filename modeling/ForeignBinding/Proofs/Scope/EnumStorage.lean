import ForeignBinding.Proofs.Attach.Symbol
import ForeignBinding.Proofs.Declaration.Commutation
import ForeignBinding.Proofs.Memory.ReadWrite
import ForeignBinding.Proofs.Scope.EnumValues

/-!
# Enumerations in memory

The values of an enumeration are counted in 64 bits and stored in 32. A field or variable of the
enumeration's type takes every value, and keeps it if it fits.
-/

namespace ForeignBinding

open Attempt

/-- Every integer can be written, and is read as the number of 32 bits that is congruent to it. -/
def KeepsInt32 (get : Memory → Attempt MemoryError Value)
    (set : Memory → Value → Attempt MemoryError Unit × Memory) : Prop :=
  ∀ m (n : Int64), (set m (.int n)).1 = .ok () ∧
    get (set m (.int n)).2 = .ok (.int n.toInt32.toInt64)

private theorem toInt_toInt32_toInt64 (n : Int64) :
    n.toInt32.toInt64.toInt = n.toInt.bmod (2 ^ 32) := by
  rw [Int32.toInt_toInt64, Int64.toInt_toInt32]

private theorem toInt32_toInt64_bounds (n : Int64) :
    -2 ^ 31 ≤ n.toInt32.toInt64.toInt ∧ n.toInt32.toInt64.toInt < 2 ^ 31 := by
  rw [toInt_toInt32_toInt64]
  exact ⟨Int.le_bmod (by decide), Int.bmod_lt (by decide)⟩

private theorem toInt32_toInt64_eq_iff (n : Int64) :
    n.toInt32.toInt64 = n ↔ -2 ^ 31 ≤ n.toInt ∧ n.toInt < 2 ^ 31 := by
  constructor
  · intro h
    have hbounds := toInt32_toInt64_bounds n
    rwa [h] at hbounds
  · rintro ⟨hlow, hhigh⟩
    rw [← Int64.toInt_inj, toInt_toInt32_toInt64]
    exact Int.bmod_eq_of_le (by omega) (by omega)

private theorem converts_int32 (n : Int64) :
    Prim.int32.Converts (.int n) (.int n.toInt32.toInt64) := by
  obtain ⟨hlow, hhigh⟩ := toInt32_toInt64_bounds n
  refine .integer rfl rfl (.signed rfl hlow hhigh ?_)
  rw [toInt_toInt32_toInt64]
  exact Int.bmod_emod

private theorem FieldKind.Lawful.keepsInt32 {k : FieldKind} {d : Descriptor}
    {get : Memory → Attempt MemoryError Value}
    {set : Memory → Value → Attempt MemoryError Unit × Memory} (h : k.Lawful .int32 get set)
    (hk : k = .scalar d) (hset : ∀ m (n : Int64), (set m (.int n)).1 = .ok ()) :
    KeepsInt32 get set := by
  intro m n
  obtain ⟨old, y, -, hy, hbecomes⟩ := h.get_of_set m (.int n) (hset m n)
  refine ⟨hset m n, ?_⟩
  subst hk
  cases hbecomes with
  | scalar converts =>
      cases converts.unique (converts_int32 n)
      exact hy

private theorem Layout.IsPlaced.keepsInt32 {l : Layout} {defs : Definitions} {kind : CompositeKind}
    (hl : l.IsPlaced defs kind) {name : String} {f : Field} (hf : l.field name = .ok f)
    (hk : f.kind = .scalar (.prim .int32)) (a : Address) :
    KeepsInt32 (fun m => l.get defs m a name) (fun m x => l.set defs m a name x) := by
  have hword : f.kind.element.IsWord .int32 := by
    rw [hk]
    exact ⟨rfl, .inl rfl⟩
  refine (hl.lawful hf hword a).keepsInt32 hk fun m n => ?_
  have haccepts : (Descriptor.prim .int32).accepts (.int n) = true := rfl
  obtain ⟨m', hm'⟩ := Memory.writeValue_of_accepts haccepts m (a.offset f.offset)
  simp only [set_of_field hf, hk, Memory.writeField, hm']
  rfl

private theorem VariableBinding.IsAttached.keepsInt32 {b : VariableBinding} {defs : Definitions}
    (h : b.IsAttached defs) (ht : b.type = .prim .int32) :
    KeepsInt32 (b.get defs) (b.set defs) := by
  obtain ⟨l, f, haccess, hplaced, hf, hk, -⟩ := h.exists_scalar ht
  have hkeeps := hplaced.keepsInt32 hf hk b.address
  unfold VariableBinding.get VariableBinding.set
  rwa [haccess]

/-- A field keeps 32 bits of every integer if it was declared with a type that means this. -/
theorem Definitions.Reachable.keepsInt32 {defs defs' later : Definitions} (hdefs : defs.Reachable)
    {r : Resolver} {c : Composite} {spec : LayoutSpec} {l : Layout} (hknown : c.id < defs.count)
    (hdefine : defs.define r c spec = .ok (l, defs')) {f : FieldSpec} (hf : f ∈ spec.fields)
    {t : TypeRef} (ht : f.type = .single t) (hint : r.resolveInline t = .ok (.prim .int32))
    (hrun : Run defs' later) {v : View} (hv : v.IsMade later) (hc : v.composite = c) :
    KeepsInt32 (fun m => v.get later m f.name) (fun m x => v.set later m f.name x) := by
  have hreachable : Reachable later := (hdefs.tail (.define hknown hdefine)).trans hrun
  obtain ⟨-, hcompute, rfl⟩ := define_eq_ok hdefine
  obtain ⟨g, hg, hname, hkind⟩ :=
    Layout.exists_field_of_compute hdefs.sound.alignmentOf_pos hcompute hf ht hint
  have hlayout : later.layout? c = some l := by
    apply hrun.extends
    simp [layout?, Progress.layout?]
  have hview := hv.layout?_eq
  rw [hc, hlayout] at hview
  cases hview
  have hplaced := hreachable.sound.placed _ _ hv.layout?_eq
  exact hplaced.keepsInt32 (hname ▸ Layout.field_of_mem hplaced.nodup hg) hkind v.address

private theorem Workspace.actAll_resolveInline (w : Workspace) {as : List Action} {name : String}
    (h : ∀ a ∈ as, a.type? ≠ some name) :
    (w.actAll as).scope.resolver.resolveInline (.named name) =
      w.scope.resolver.resolveInline (.named name) :=
  (w.actAll_changesOthers h).resolveInline_eq fun _ hother hmentions => hother hmentions.symm

/-- The name of an enumeration is its type where it is declared, unless it also names a composite
there. -/
theorem Scope.resolveInline_enumeration_iff (s : Scope) (name : String) (items : List EnumItem) :
    (s.enumeration (some name) items).2.resolver.resolveInline (.named name) =
        .ok Enumeration.descriptor ↔ s.findComposite? name = none := by
  have hsame : (s.enumeration (some name) items).2.findComposite? name = s.findComposite? name :=
    rfl
  rw [← hsame]
  cases hc : (s.enumeration (some name) items).2.findComposite? name with
  | some c =>
      rw [resolveInline_of_findComposite? hc]
      simp [Enumeration.descriptor]
  | none =>
      have hown : (s.enumeration (some name) items).2.registry.composites.get? name = none :=
        List.findSome?_eq_none_iff.1 hc _ List.mem_cons_self
      have halias : (s.enumeration (some name) items).2.registry.aliases.get? name =
          some Enumeration.descriptor := by
        simp [enumeration, Enumeration.ofItems, withRegistry, registry, Registry.insertEnum,
          Registry.insertEnumAlias, Registry.insertAlias]
      rw [resolveInline_of_findComposite?_eq_none hc, findType_of_alias hown halias]
      simp

private theorem Enumeration.symbolOf?_of_find? {e : Enumeration} {symbol : String} {value : Int64}
    (h : e.find? symbol = some value) :
    ∃ first, e.symbolOf? value = some first ∧ (first, value) ∈ e.enumerators := by
  obtain ⟨earlier, later, heq, -⟩ := find?_eq_some_iff.1 h
  have hmem : (symbol, value) ∈ e.enumerators := by simp [heq]
  have hfound : (e.enumerators.find? (fun p => p.2 == value)).isSome := by
    rw [List.find?_isSome]
    exact ⟨_, hmem, beq_self_eq_true value⟩
  obtain ⟨p, hp⟩ := Option.isSome_iff_exists.1 hfound
  have hvalue : p.2 = value := by simpa using List.find?_some hp
  refine ⟨p.1, by rw [symbolOf?, hp]; rfl, ?_⟩
  rw [← hvalue]
  exact List.mem_of_find?_eq_some hp

/-- The name of an enumeration is its type in a scope that declares it, as long as the name is not
declared again, unless a composite of the name is in sight. Where a type means an enumeration's, a
field or an attached variable of it takes every integer and keeps its lowest 32 bits with their
sign. So the value of a symbol is read back if and only if it is a number of 32 bits, and then a
symbol that was declared with it is found. -/
theorem Enumeration.values_stored (s : Scope) (name? : Option String) (items : List EnumItem) :
    let e := (s.enumeration name? items).1
    (∀ name (w : Workspace) (as : List Action), name? = some name →
      w.scope = (s.enumeration name? items).2 →
      (∀ a ∈ as, a.type? ≠ some name) →
        ((w.actAll as).scope.resolver.resolveInline (.named name) = .ok descriptor ↔
          s.findComposite? name = none)) ∧
    (∀ (r : Resolver) (t : TypeRef), r.resolveInline t = .ok descriptor →
      ∀ defs : Definitions, defs.Reachable →
        (∀ (c : Composite) spec (f : FieldSpec) l defs' later (v : View), c.id < defs.count →
          defs.define r c spec = .ok (l, defs') → f ∈ spec.fields → f.type = .single t →
            Definitions.Run defs' later → v.IsMade later → v.composite = c →
              KeepsInt32 (fun m => v.get later m f.name) (fun m x => v.set later m f.name x)) ∧
        ∀ (d : VariableDecl) libraries b later, d.type = t →
          attachVariable d defs r libraries = .ok b → Definitions.Run defs later →
            KeepsInt32 (b.get later) (b.set later)) ∧
    ∀ symbol value, e.find? symbol = some value →
      (value.toInt32.toInt64 = value ↔ -2 ^ 31 ≤ value.toInt ∧ value.toInt < 2 ^ 31) ∧
        (value.toInt32.toInt64 = value → ∃ first, e.symbolOf? value.toInt32.toInt64 = some first ∧
          (first, value) ∈ e.enumerators) := by
  refine ⟨?_, fun r t ht defs hdefs => ⟨?_, ?_⟩, fun symbol value h => ?_⟩
  · rintro name w as rfl hw has
    rw [w.actAll_resolveInline has, hw]
    exact s.resolveInline_enumeration_iff name items
  · intro c spec f l defs' later v hknown hdefine hf hsingle hrun hv hc
    exact hdefs.keepsInt32 hknown hdefine hf hsingle ht hrun hv hc
  · intro d libraries b later hd hattach hrun
    have htype := VariableDecl.resolveInline_of_access (attachVariable_eq_ok hattach)
    rw [hd, ht, Except.ok.injEq] at htype
    have hb : b.IsAttached later := ⟨defs, d, r, libraries, hdefs, hrun, hattach⟩
    exact hb.keepsInt32 htype.symm
  · refine ⟨toInt32_toInt64_eq_iff value, fun hsame => ?_⟩
    rw [hsame]
    exact symbolOf?_of_find? h

-- Of two symbols one has a value that takes more than 32 bits. A gauge has a field of the
-- enumeration's type, and so has a variable.
namespace Sample

def limits : List EnumItem := [.implicit "none", .explicit "huge" 2147483648]

def limit : Enumeration := .ofItems (some "limit") limits

def limited : Workspace := workspace.act (.enumeration (some "limit") limits)

def gauge : Composite := ⟨0, .struct, "gauge"⟩

private def gaugeSpec : LayoutSpec := .ordered [⟨"at", .single (.named "limit"), none⟩]

def gaugeLayout : Layout := ⟨.struct, [⟨"at", .scalar (.prim .int32), 0, 4, 4⟩], 4, 4⟩

def gaugeDeclared : Definitions := (Definitions.empty.declare .struct "gauge").2

private theorem gaugeDeclared_reachable : gaugeDeclared.Reachable :=
  .single (.declare _ .struct "gauge")

def gauges : Definitions := gaugeDeclared.set gauge (.computed gaugeLayout)

private theorem define_gauge :
    gaugeDeclared.define limited.scope.resolver gauge gaugeSpec = .ok (gaugeLayout, gauges) := rfl

def gaugeView : View := ⟨gauge, gaugeLayout, ⟨0x200000000⟩⟩

private theorem gaugeView_isMade : gaugeView.IsMade gauges := ⟨gauges, .refl, rfl⟩

private theorem gauges_reachable : gauges.Reachable :=
  gaugeDeclared_reachable.tail (.define (by decide) define_gauge)

private theorem gaugeView_keepsInt32 :
    KeepsInt32 (fun m => gaugeView.get gauges m "at") (fun m x => gaugeView.set gauges m "at" x) := by
  have hplaced := gauges_reachable.sound.placed gauge gaugeLayout rfl
  have hat : gaugeLayout.field "at" = .ok ⟨"at", .scalar (.prim .int32), 0, 4, 4⟩ := rfl
  exact hplaced.keepsInt32 hat rfl gaugeView.address

def level : VariableBinding where
  name := "level"
  symbol := "counter"
  address := ⟨0x3000⟩
  type := .prim .int32
  library := counterLibrary
  access := .wrapped ⟨.struct, [⟨"gvar", .scalar (.prim .int32), 0, 4, 4⟩], 4, 4⟩

private theorem attach_level :
    attachVariable ⟨"level", some "counter", .named "limit"⟩ gaugeDeclared limited.scope.resolver
      ⟨[counterLibrary], []⟩ = .ok level := rfl

end Sample

/-- The value of `none` is read back and its symbol found, that of `huge` becomes negative. -/
theorem Enumeration.values_stored_limit :
    let set := fun m n => Sample.gaugeView.set Sample.gauges m "at" (.int n)
    let get := fun m => Sample.gaugeView.get Sample.gauges m "at"
    (∀ as : List Action, (∀ a ∈ as, a.type? ≠ some "limit") →
      (Sample.limited.actAll as).scope.resolver.resolveInline (.named "limit") =
        .ok descriptor) ∧
    Sample.limit.find? "none" = some 0 ∧ Sample.limit.find? "huge" = some 2147483648 ∧
    (∀ m, (set m 0).1 = .ok () ∧ get (set m 0).2 = .ok (.int 0)) ∧
    (∃ first, Sample.limit.symbolOf? 0 = some first ∧ (first, 0) ∈ Sample.limit.enumerators) ∧
    (∀ m, (set m 2147483648).1 = .ok () ∧
      get (set m 2147483648).2 = .ok (.int (-2147483648))) ∧
    KeepsInt32 (Sample.level.get Sample.gauges) (Sample.level.set Sample.gauges) := by
  intro set get
  obtain ⟨hname, hplaces, hsymbols⟩ :=
    values_stored Sample.workspace.scope (some "limit") Sample.limits
  have hresolve : Sample.limited.scope.resolver.resolveInline (.named "limit") = .ok descriptor :=
    (hname "limit" Sample.limited [] rfl rfl (List.forall_mem_nil _)).2 rfl
  obtain ⟨hfield, hvariable⟩ := hplaces _ _ hresolve _ Sample.gaugeDeclared_reachable
  have hgauge : KeepsInt32 get (fun m x => Sample.gaugeView.set Sample.gauges m "at" x) :=
    hfield Sample.gauge Sample.gaugeSpec _ _ _ _ Sample.gaugeView (by decide) Sample.define_gauge
      List.mem_cons_self rfl .refl Sample.gaugeView_isMade rfl
  have hdefined : Definitions.Run Sample.gaugeDeclared Sample.gauges :=
    .single (.define (by decide) Sample.define_gauge)
  have hfits : (0 : Int64).toInt32.toInt64 = 0 := by decide
  refine ⟨fun as has => ?_, rfl, rfl, fun m => hgauge m 0, ?_, fun m => hgauge m 2147483648,
    hvariable _ _ _ _ rfl Sample.attach_level hdefined⟩
  · exact (hname "limit" Sample.limited as rfl rfl has).2 rfl
  · exact (hsymbols "none" 0 rfl).2 hfits

/-- A value of an enumeration may not be read back from a field of its type. -/
theorem Enumeration.not_values_stored :
    ¬ ∀ (w : Workspace) (name symbol : String) (items : List EnumItem) (value : Int64),
      w.Reachable → (ofItems (some name) items).find? symbol = some value →
      let r := (w.act (.enumeration (some name) items)).scope.resolver
      r.resolveInline (.named name) = .ok descriptor →
        ∀ (defs defs' : Definitions) c l (field : String) (v : View) m, defs.Reachable →
          c.id < defs.count →
          defs.define r c (.ordered [⟨field, .single (.named name), none⟩]) = .ok (l, defs') →
          v.IsMade defs' → v.composite = c →
            v.get defs' (v.set defs' m field (.int value)).2 field = .ok (.int value) := by
  intro h
  have hgauge := h Sample.workspace "limit" "huge" Sample.limits 2147483648
    Sample.workspace_reachable rfl rfl Sample.gaugeDeclared Sample.gauges Sample.gauge
    Sample.gaugeLayout "at" Sample.gaugeView Memory.zeroed Sample.gaugeDeclared_reachable
    (by decide) Sample.define_gauge Sample.gaugeView_isMade rfl
  have hread := (Sample.gaugeView_keepsInt32 Memory.zeroed 2147483648).2
  have hlost : (2147483648 : Int64).toInt32.toInt64 ≠ 2147483648 := by decide
  exact hlost (Value.int.inj (Except.ok.inj (hread.symm.trans hgauge)))

end ForeignBinding
