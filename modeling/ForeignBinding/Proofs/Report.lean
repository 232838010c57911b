import ForeignBinding.Proofs.Manifest.Types
import ForeignBinding.Proofs.Scope.EnumValues

/-!
# Names of types in reports

A report lists a name that is an alias among the typedefs unless it is, or has been, the name of an
enumeration or a callback, whatever it stands for by now. So it tells what a name stands for if the
name was declared once, but not always if it was declared again.
-/

namespace ForeignBinding

namespace Report

open Document (listField)

/-- The report lists a name with a type, among the typedefs or the callbacks. -/
def Lists (report : Document) (name type : String) : Prop :=
  namedType (name, type) ∈ report.items "typedefs" ∨
    namedType (name, type) ∈ report.items "callbacks"

/-- The report has an enumeration of the name. -/
def ListsEnum (report : Document) (name : String) : Prop :=
  ∃ values, .record [("name", .text name), ("values", values)] ∈ report.items "enums"

/-- The report tells what a name stands for: it lists the name with this type, or only as an
enumeration where the type is that of enumerations, and with no other type. -/
structure Tells (report : Document) (name : String) (d : Descriptor) : Prop where
  shown : Lists report name d.display ∨
    d = .prim .int32 ∧ ListsEnum report name ∧ ∀ type, ¬ Lists report name type
  only : ∀ type, Lists report name type → type = d.display

section

variable (f : Frame) (defs : Definitions)

private theorem items_ofFrame {key : String} {items : List Document}
    (hkey : key ∈ ["typedefs", "enums", "structs", "callbacks"])
    (h : (types f.registry defs).lookup key = (listField key items).lookup key) :
    (ofFrame f defs).items key = items := by
  apply Document.items_eq
  rw [field?_ofFrame f defs hkey, h]

private theorem items_typedefs : (ofFrame f defs).items "typedefs" = typedefs f.registry := by
  apply items_ofFrame f defs (by simp)
  simp [types, List.lookup_append, Document.lookup_listField]

private theorem items_enums :
    (ofFrame f defs).items "enums" = f.registry.enumerations.map enumeration := by
  apply items_ofFrame f defs (by simp)
  simp [types, List.lookup_append, Document.lookup_listField]

private theorem items_callbacks :
    (ofFrame f defs).items "callbacks" = f.registry.callbacks.entries.map callback := by
  apply items_ofFrame f defs (by simp)
  simp [types, List.lookup_append, Document.lookup_listField]

end

section

variable {r : Registry} {f : Frame} {defs : Definitions} {name type : String} {d : Descriptor}

private theorem mem_typedefs_iff (halias : r.aliases.get? name = some d) :
    namedType (name, type) ∈ typedefs r ↔
      (r.callbacks.get? name = none ∧ r.findEnum? name = none) ∧ type = d.display := by
  have hkept : isTypedef r name ↔ r.callbacks.get? name = none ∧ r.findEnum? name = none := by
    simp [isTypedef]
  rw [← hkept, typedefs, List.mem_map]
  constructor
  · rintro ⟨⟨other, d'⟩, hmem, heq⟩
    obtain ⟨hentry, htypedef⟩ := List.mem_filter.1 hmem
    obtain ⟨rfl, rfl⟩ : other = name ∧ d'.display = type := by simpa [namedType] using heq
    have hsame : some d = some d' := halias.symm.trans (r.aliases.get?_eq_some_iff.2 hentry)
    exact ⟨htypedef, congrArg Descriptor.display (Option.some.inj hsame).symm⟩
  · rintro ⟨htypedef, rfl⟩
    have hentry : (name, d) ∈ r.aliases.entries := r.aliases.get?_eq_some_iff.1 halias
    exact ⟨(name, d), List.mem_filter.2 ⟨hentry, htypedef⟩, rfl⟩

private theorem mem_callbacks_iff :
    namedType (name, type) ∈ r.callbacks.entries.map callback ↔
      ∃ sig, r.callbacks.get? name = some sig ∧ type = sig.toDescriptor.display := by
  rw [List.mem_map]
  constructor
  · rintro ⟨⟨other, sig⟩, hentry, heq⟩
    obtain ⟨rfl, rfl⟩ : other = name ∧ sig.toDescriptor.display = type := by
      simpa [callback, namedType] using heq
    exact ⟨sig, r.callbacks.get?_eq_some_iff.2 hentry, rfl⟩
  · rintro ⟨sig, hsig, rfl⟩
    exact ⟨(name, sig), r.callbacks.get?_eq_some_iff.1 hsig, rfl⟩

private theorem listsEnum_iff :
    ListsEnum (ofFrame f defs) name ↔ (f.registry.findEnum? name).isSome := by
  have hsome : (f.registry.findEnum? name).isSome ↔
      ∃ e ∈ f.registry.enumerations, e.name = some name := by
    simp [Registry.findEnum?]
  rw [hsome, ListsEnum, items_enums]
  constructor
  · rintro ⟨values, hmem⟩
    obtain ⟨⟨own, enumerators⟩, he, heq⟩ := List.mem_map.1 hmem
    refine ⟨_, he, ?_⟩
    cases own with
    | none => simp [enumeration] at heq
    | some own =>
        have hname : some (Document.text own) = some (.text name) :=
          congrArg (Document.field? "name") heq
        simpa using hname
  · rintro ⟨⟨own, enumerators⟩, he, rfl⟩
    exact ⟨_, List.mem_map.2 ⟨_, he, rfl⟩⟩

private theorem lists_iff_of_callback (halias : f.registry.aliases.get? name = some d)
    {sig : Signature} (hcallback : f.registry.callbacks.get? name = some sig) :
    Lists (ofFrame f defs) name type ↔ type = sig.toDescriptor.display := by
  rw [Lists, items_typedefs, items_callbacks, mem_typedefs_iff halias, mem_callbacks_iff]
  simp [hcallback]

private theorem lists_iff_of_no_callback (halias : f.registry.aliases.get? name = some d)
    (hcallback : f.registry.callbacks.get? name = none) :
    Lists (ofFrame f defs) name type ↔
      f.registry.findEnum? name = none ∧ type = d.display := by
  rw [Lists, items_typedefs, items_callbacks, mem_typedefs_iff halias, mem_callbacks_iff]
  simp [hcallback]

private theorem tells_iff_of_callback (halias : f.registry.aliases.get? name = some d)
    {sig : Signature} (hcallback : f.registry.callbacks.get? name = some sig) :
    Tells (ofFrame f defs) name d ↔ sig.toDescriptor.display = d.display := by
  have hlists : ∀ type, Lists (ofFrame f defs) name type ↔ type = sig.toDescriptor.display :=
    fun _ => lists_iff_of_callback halias hcallback
  constructor
  · intro htells
    exact htells.only _ ((hlists _).2 rfl)
  · intro hsame
    refine ⟨.inl ((hlists _).2 hsame.symm), ?_⟩
    intro type hlisted
    exact ((hlists type).1 hlisted).trans hsame

private theorem tells_iff_of_no_callback (halias : f.registry.aliases.get? name = some d)
    (hcallback : f.registry.callbacks.get? name = none) :
    Tells (ofFrame f defs) name d ↔
      ((f.registry.findEnum? name).isSome → d = .prim .int32) := by
  have hlists : ∀ type, Lists (ofFrame f defs) name type ↔
      f.registry.findEnum? name = none ∧ type = d.display :=
    fun _ => lists_iff_of_no_callback halias hcallback
  have hunlisted : (f.registry.findEnum? name).isSome →
      ∀ type, ¬ Lists (ofFrame f defs) name type := by
    intro henum type hlisted
    obtain ⟨hnone, -⟩ := (hlists type).1 hlisted
    simp [hnone] at henum
  constructor
  · intro htells henum
    rcases htells.shown with hlisted | ⟨hd, -, -⟩
    · exact absurd hlisted (hunlisted henum _)
    · exact hd
  · intro hint32
    refine ⟨?_, fun type hlisted => ((hlists type).1 hlisted).2⟩
    cases henum : f.registry.findEnum? name with
    | none => exact .inl ((hlists _).2 ⟨henum, rfl⟩)
    | some e =>
        have hsome : (f.registry.findEnum? name).isSome := by simp [henum]
        exact .inr ⟨hint32 hsome, listsEnum_iff.2 hsome, hunlisted hsome⟩

private theorem tells_iff (halias : f.registry.aliases.get? name = some d) :
    Tells (ofFrame f defs) name d ↔
      match f.registry.callbacks.get? name with
      | some sig => sig.toDescriptor.display = d.display
      | none => (f.registry.findEnum? name).isSome → d = .prim .int32 := by
  cases hcallback : f.registry.callbacks.get? name with
  | some sig => exact tells_iff_of_callback halias hcallback
  | none => exact tells_iff_of_no_callback halias hcallback

private theorem display_toDescriptor_ne (sig : Signature) :
    sig.toDescriptor.display ≠ Enumeration.descriptor.display := by
  intro heq
  have henum : Enumeration.descriptor.display = "int32" := rfl
  have hchars := congrArg String.toList (heq.trans henum)
  simp [Signature.toDescriptor, Descriptor.display] at hchars

end

end Report

namespace Scope

open Report

variable {s s' : Scope} {defs : Definitions} {name : String} {d : Descriptor}

private theorem tells_of_callback {params : List TypeRef} {ret : TypeRef}
    (h : s.callback (some name) params ret = .ok (d, s')) : Tells (ofScope s' defs) name d := by
  obtain ⟨sig, -, rfl, rfl⟩ := callback_eq_ok h
  have hcallback : (s.withCallback (some name) sig).frame.registry.callbacks.get? name =
      some sig := by
    simp [withCallback, withRegistry, Registry.insertCallback]
  have halias : (s.withCallback (some name) sig).frame.registry.aliases.get? name =
      some sig.toDescriptor := by
    simp [withCallback, withRegistry, Registry.insertCallback, Registry.insertAlias]
  exact (tells_iff_of_callback halias hcallback).2 rfl

private theorem tells_enumeration_iff (items : List EnumItem) :
    Tells (ofScope (s.enumeration (some name) items).2 defs) name Enumeration.descriptor ↔
      s.registry.callbacks.get? name = none := by
  have halias : (s.enumeration (some name) items).2.frame.registry.aliases.get? name =
      some Enumeration.descriptor := by
    simp [enumeration, Enumeration.ofItems, withRegistry, Registry.insertEnum,
      Registry.insertEnumAlias, Registry.insertAlias]
  cases hcallback : s.registry.callbacks.get? name with
  | none =>
      rw [ofScope, tells_iff_of_no_callback halias hcallback]
      exact iff_of_true (fun _ => rfl) rfl
  | some sig =>
      rw [ofScope, tells_iff_of_callback halias hcallback]
      exact iff_of_false (display_toDescriptor_ne sig) (Option.some_ne_none sig)

private theorem tells_of_typedef {t : TypeRef} (h : s.typedef t name = .ok (d, s'))
    (hcallback : s.registry.callbacks.get? name = none) (henum : s.registry.findEnum? name = none) :
    Tells (ofScope s' defs) name d := by
  obtain ⟨-, rfl⟩ := typedef_eq_ok h
  have halias : (s.withRegistry (s.registry.insertAlias name d)).frame.registry.aliases.get? name =
      some d := by
    simp [withRegistry, Registry.insertAlias]
  have hsome : (s.registry.findEnum? name).isSome → d = .prim .int32 := by simp [henum]
  exact (tells_iff_of_no_callback halias hcallback).2 hsome

end Scope

namespace Workspace

open Report

variable {name : String} {d : Descriptor}

private theorem findEnum?_act (w : Workspace) {a : Action} (h : a.type? ≠ some name) :
    (w.act a).scope.registry.findEnum? name = w.scope.registry.findEnum? name := by
  have hother : ∀ e ∈ a.enumeration?.toList, (e.name == some name) = false := by
    intro e he
    cases a with
    | declare d =>
        cases d with
        | enumeration own items =>
            obtain rfl := List.mem_singleton.1 he
            exact beq_false_of_ne h
        | _ => cases he
    | enumeration own items =>
        obtain rfl := List.mem_singleton.1 he
        exact beq_false_of_ne h
    | _ => cases he
  have hnone : a.enumeration?.toList.reverse.find? (fun e => e.name == some name) = none := by
    simpa using hother
  have hall : (w.act a).scope.registry.enumerations =
      w.scope.registry.enumerations ++ a.enumeration?.toList := w.enumerations_act a
  rw [Registry.findEnum?, hall, List.reverse_append, List.find?_append, hnone, Option.none_or]
  rfl

/-- What a report tells of an alias does not depend on operations that do not declare its name. -/
theorem tells_act_iff (w : Workspace) {a : Action} (h : a.type? ≠ some name)
    (halias : w.scope.registry.aliases.get? name = some d) :
    (w.act a).scope.registry.aliases.get? name = some d ∧
      (Tells (ofScope (w.act a).scope (w.act a).definitions) name d ↔
        Tells (ofScope w.scope w.definitions) name d) := by
  have hchanges : ChangesOnly (· ≠ name) (fun _ => True) w (w.act a) :=
    w.act_changesOnly a (fun other hother heq => h (heq ▸ hother)) fun _ _ => trivial
  have hsame := hchanges.registry name fun hne => hne rfl
  have halias' : (w.act a).scope.registry.aliases.get? name = some d :=
    hsame.aliases.trans halias
  have hcallbacks : (w.act a).scope.frame.registry.callbacks.get? name =
      w.scope.frame.registry.callbacks.get? name := hsame.callbacks
  have henum : (w.act a).scope.frame.registry.findEnum? name =
      w.scope.frame.registry.findEnum? name := w.findEnum?_act h
  refine ⟨halias', ?_⟩
  rw [ofScope, ofScope, tells_iff halias', tells_iff halias, hcallbacks, henum]

private theorem tells_actAll_iff (w : Workspace) {as : List Action}
    (h : ∀ a ∈ as, a.type? ≠ some name) (halias : w.scope.registry.aliases.get? name = some d) :
    (w.actAll as).scope.registry.aliases.get? name = some d ∧
      (Tells (ofScope (w.actAll as).scope (w.actAll as).definitions) name d ↔
        Tells (ofScope w.scope w.definitions) name d) := by
  induction as generalizing w with
  | nil => exact ⟨halias, Iff.rfl⟩
  | cons a as ih =>
      obtain ⟨ha, has⟩ := List.forall_mem_cons.1 h
      obtain ⟨halias', hfirst⟩ := w.tells_act_iff ha halias
      obtain ⟨hlast, hrest⟩ := ih (w.act a) has halias'
      exact ⟨hlast, hrest.trans hfirst⟩

/-- Of a name that is an alias the report tells what it stands for exactly if the callback of the
name, if there is one, is shown alike, and else, if there is an enumeration of the name, the alias
is its type. So after the declaration of a callback it always does, after that of an enumeration
unless there is a callback of the name, and after a typedef if there is neither; and it does or does
not until the name is declared again. -/
theorem report_tells_iff (w : Workspace) (name : String) :
    let registry := w.scope.registry
    let defs := w.definitions
    (∀ d, registry.aliases.get? name = some d →
        (Tells (ofScope w.scope defs) name d ↔
          match registry.callbacks.get? name with
          | some sig => sig.toDescriptor.display = d.display
          | none => (registry.findEnum? name).isSome → d = .prim .int32)) ∧
      (∀ params ret d s, w.scope.callback (some name) params ret = .ok (d, s) →
        Tells (ofScope s defs) name d) ∧
      (∀ items, Tells (ofScope (w.scope.enumeration (some name) items).2 defs) name
          (.prim .int32) ↔ registry.callbacks.get? name = none) ∧
      (∀ t d s, w.scope.typedef t name = .ok (d, s) → registry.callbacks.get? name = none →
        registry.findEnum? name = none → Tells (ofScope s defs) name d) ∧
      ∀ d, registry.aliases.get? name = some d → ∀ as, (∀ a ∈ as, a.type? ≠ some name) →
        let w' := w.actAll as
        w'.scope.registry.aliases.get? name = some d ∧
          (Tells (ofScope w'.scope w'.definitions) name d ↔
            Tells (ofScope w.scope defs) name d) := by
  intro registry defs
  refine ⟨fun d h => tells_iff h, fun params ret d s h => Scope.tells_of_callback h,
    Scope.tells_enumeration_iff, ?_, fun d h as has => w.tells_actAll_iff has h⟩
  intro t d s h hcallback henum
  exact Scope.tells_of_typedef h hcallback henum

end Workspace

-- The name of an enumeration is made a typedef of another type, and later a callback.
namespace Sample

def leveled : Workspace :=
  workspace.actAll
    [.declare (.enumeration (some "level") [.implicit "low", .implicit "high"]),
      .declare (.typedef (.resolved (.prim .int64)) "level"),
      .declare (.typedef (.resolved (.prim .uint8)) "flags")]

private theorem leveled_reachable : leveled.Reachable :=
  ((workspace_reachable.declare _).declare _).declare _

def changed : Descriptor := .callback [.prim .uint8] (.prim .void) .standard

def watched : Workspace :=
  leveled.act (.callback (some "level") [.named "flags"] (.resolved (.prim .void)))

private theorem callback_leveled :
    leveled.scope.callback (some "level") [.named "flags"] (.resolved (.prim .void)) =
      .ok (changed, watched.scope) := rfl

end Sample

/-- The name stands for `int64`, but is only reported as an enumeration. -/
theorem Report.not_tells_level :
    Sample.leveled.Reachable ∧
      Sample.leveled.scope.registry.aliases.get? "level" = some (.prim .int64) ∧
      Sample.leveled.scope.findType (.named "level") = .ok (.prim .int64) ∧
      ¬ Tells (ofScope Sample.leveled.scope Sample.leveled.definitions) "level"
        (.prim .int64) := by
  have halias : Sample.leveled.scope.registry.aliases.get? "level" = some (.prim .int64) := rfl
  have hcallbacks : Sample.leveled.scope.frame.registry.callbacks.get? "level" = none := rfl
  have henum : (Sample.leveled.scope.frame.registry.findEnum? "level").isSome := rfl
  refine ⟨Sample.leveled_reachable, halias, rfl, ?_⟩
  rw [ofScope, tells_iff_of_no_callback halias hcallbacks]
  intro hint32
  cases hint32 henum

theorem Workspace.report_tells_iff_leveled :
    let defs := Sample.leveled.definitions
    let w := Sample.watched.actAll [.convention .stdcall, .typedef (.named "level") "flags"]
    Report.Tells (Report.ofScope Sample.leveled.scope defs) "flags" (.prim .uint8) ∧
      ¬ Report.Tells (Report.ofScope Sample.leveled.scope defs) "level" (.prim .int64) ∧
      Report.Tells (Report.ofScope Sample.watched.scope defs) "level" Sample.changed ∧
      w.scope.registry.aliases.get? "level" = some Sample.changed ∧
      Report.Tells (Report.ofScope w.scope w.definitions) "level" Sample.changed ∧
      Report.Tells (Report.ofScope w.scope w.definitions) "flags" Sample.changed := by
  intro defs w
  have hflags : Sample.leveled.scope.registry.aliases.get? "flags" = some (.prim .uint8) := rfl
  have hlevel : Sample.leveled.scope.registry.aliases.get? "level" = some (.prim .int64) := rfl
  have hwatched : Sample.watched.scope.registry.aliases.get? "level" = some Sample.changed := rfl
  have hchanged : w.scope.registry.aliases.get? "flags" = some Sample.changed := rfl
  have hothers : ∀ a ∈ [Action.convention .stdcall, .typedef (.named "level") "flags"],
      a.type? ≠ some "level" := by simp [Action.type?]
  obtain ⟨hflagsIff, -⟩ := Sample.leveled.report_tells_iff "flags"
  obtain ⟨hlevelIff, hcallback, -⟩ := Sample.leveled.report_tells_iff "level"
  obtain ⟨-, -, -, -, hkept⟩ := Sample.watched.report_tells_iff "level"
  obtain ⟨hchangedIff, -⟩ := w.report_tells_iff "flags"
  have hnot : ¬ Report.Tells (Report.ofScope Sample.leveled.scope defs) "level"
      (.prim .int64) := by
    intro htells
    cases (hlevelIff _ hlevel).1 htells rfl
  have htells : Report.Tells (Report.ofScope Sample.watched.scope defs) "level" Sample.changed :=
    hcallback _ _ _ _ Sample.callback_leveled
  obtain ⟨hsame, hiff⟩ := hkept _ hwatched _ hothers
  exact ⟨(hflagsIff _ hflags).2 nofun, hnot, htells, hsame, hiff.2 htells,
    (hchangedIff _ hchanged).2 nofun⟩

end ForeignBinding
