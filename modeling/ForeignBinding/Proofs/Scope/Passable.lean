import ForeignBinding.Proofs.Declaration.Canonical
import ForeignBinding.Proofs.Scope.Coherence

/-!
# Types that can be passed

Where a name of a composite is written, its address is meant, unless it is written by value. So
descriptors that are stored under a name, or in a signature, hold no composite embedded in place.
Only layouts embed composites, and say so.
-/

namespace ForeignBinding

open Attempt

/-- The descriptor embeds no composite in place, nor does anything in its signature. -/
inductive Descriptor.Passable : Descriptor → Prop
  | prim (p : Prim) : Passable (.prim p)
  | byValue (c : Composite) : Passable (.byValue c)
  | callback {params : List Descriptor} {ret : Descriptor} (convention : Convention)
      (params_passable : ∀ d ∈ params, Passable d) (ret_passable : Passable ret) :
      Passable (.callback params ret convention)

/-- All parameters and the result can be passed. -/
structure Signature.Passable (sig : Signature) : Prop where
  params : ∀ d ∈ sig.params, d.Passable
  ret : sig.ret.Passable

private theorem Signature.Passable.toDescriptor {sig : Signature} (h : sig.Passable) :
    sig.toDescriptor.Passable :=
  .callback sig.convention h.params h.ret

/-- No composite is hidden in a scalar field. -/
def Layout.IsPlain (l : Layout) : Prop :=
  ∀ f ∈ l.fields, ∀ d, f.kind = .scalar d → d.composite? = none

/-- What an attached function takes and gives can be passed, and the struct around an attached
variable is plain. -/
def Binding.Passable : Binding → Prop
  | ofFunction b => b.signature.Passable
  | ofVariable b => ∀ l, b.access = .wrapped l → l.IsPlain

/-- All that the frame has under names can be passed. -/
structure Frame.Passable (F : Frame) : Prop where
  aliases : ∀ name d, F.registry.aliases.get? name = some d → d.Passable
  callbacks : ∀ name sig, F.registry.callbacks.get? name = some sig → sig.Passable
  bindings : ∀ name b, F.bindings.get? name = some b → b.Passable

private theorem Frame.Passable.stores {F : Frame} (h : F.Passable) :
    F.Stores Descriptor.Passable where
  aliases := h.aliases
  callbacks name sig hsig := (h.callbacks name sig hsig).toDescriptor

namespace Placement

variable {defs : Definitions} {r : Resolver} {p p' : Placement}

/-- The field has the type, or is an array of it. -/
private def Holds (f : Field) (d : Descriptor) : Prop :=
  f.kind = fieldKind d ∨ ∃ count, f.kind = .array d count

private theorem fields_place {name : String} {kind : FieldKind} {size alignment : Nat}
    {given : Option Nat} (h : p.place name kind size alignment given = .ok p') :
    ∃ f, f.kind = kind ∧ p'.fields = p.fields ++ [f] := by
  obtain ⟨offset, -, hstop⟩ := bind_eq_ok.1 h
  obtain ⟨stop, -, heq⟩ := bind_eq_ok.1 hstop
  cases heq
  exact ⟨⟨name, kind, offset, size, max alignment 1⟩, rfl, rfl⟩

private theorem fields_addSpec {spec : FieldSpec} (h : p.addSpec defs r spec = .ok p') :
    ∃ f d, r.resolveInline spec.type.ref = .ok d ∧ Holds f d ∧ p'.fields = p.fields ++ [f] := by
  obtain ⟨d, hd, hadd⟩ := bind_eq_ok.1 h
  have hd' : r.resolveInline spec.type.ref = .ok d := under_eq_ok.1 hd
  cases htype : spec.type with
  | single t =>
      rw [htype] at hadd hd'
      obtain ⟨extent, -, hplace⟩ := bind_eq_ok.1 hadd
      obtain ⟨f, hf, hfields⟩ := fields_place hplace
      exact ⟨f, d, hd', .inl hf, hfields⟩
  | array t count =>
      rw [htype] at hadd hd'
      obtain ⟨extent, -, htotal⟩ := bind_eq_ok.1 hadd
      obtain ⟨total, -, hplace⟩ := bind_eq_ok.1 htotal
      obtain ⟨f, hf, hfields⟩ := fields_place hplace
      exact ⟨f, d, hd', .inr ⟨count, hf⟩, hfields⟩

private theorem mem_fields_addSpecs {specs : List FieldSpec} (h : addSpecs defs r p specs = .ok p')
    {f : Field} (hf : f ∈ p'.fields) :
    f ∈ p.fields ∨ ∃ spec ∈ specs, ∃ d, r.resolveInline spec.type.ref = .ok d ∧ Holds f d := by
  induction specs generalizing p with
  | nil =>
      cases h
      exact .inl hf
  | cons spec specs ih =>
      rw [addSpecs] at h
      split at h
      · cases h
      · obtain ⟨p₁, hadd, hrest⟩ := bind_eq_ok.1 h
        obtain ⟨g, d, hd, hg, hfields⟩ := fields_addSpec hadd
        rcases ih hrest with hf | ⟨spec', hspec', hf⟩
        · rw [hfields, List.mem_append, List.mem_singleton] at hf
          rcases hf with hf | rfl
          · exact .inl hf
          · exact .inr ⟨spec, List.mem_cons_self, d, hd, hg⟩
        · exact .inr ⟨spec', List.mem_cons_of_mem spec hspec', hf⟩

end Placement

namespace Layout

variable {defs : Definitions} {r : Resolver} {kind : CompositeKind} {floor : Nat}
  {spec : LayoutSpec} {l : Layout}

private theorem exists_ref_of_compute (h : compute defs r kind floor spec = .ok l) {f : Field}
    (hf : f ∈ l.fields) :
    ∃ t ∈ spec.refs, ∃ d, r.resolveInline t = .ok d ∧ Placement.Holds f d := by
  obtain ⟨p, hadd, hbuild⟩ := bind_eq_ok.1 h
  obtain ⟨size, -, heq⟩ := bind_eq_ok.1 hbuild
  cases heq
  rcases Placement.mem_fields_addSpecs hadd hf with hf | ⟨field, hfield, d, hd, hholds⟩
  · cases hf
  · exact ⟨field.type.ref, List.mem_map_of_mem hfield, d, hd, hholds⟩

/-- A composite in a single field is embedded as such. -/
theorem isPlain_of_compute (h : compute defs r kind floor spec = .ok l) : l.IsPlain := by
  intro f hf d hscalar
  obtain ⟨t, -, d', -, hkind | ⟨count, harray⟩⟩ := exists_ref_of_compute h hf
  · rw [hscalar, Placement.fieldKind] at hkind
    split at hkind
    · cases hkind
    · rename_i hnone
      cases hkind
      exact hnone
  · exact nomatch hscalar.symm.trans harray

end Layout

private theorem Definitions.Run.isPlain {defs defs' : Definitions} (h : defs.Run defs')
    (hdefs : ∀ c l, defs.layout? c = some l → l.IsPlain) :
    ∀ c l, defs'.layout? c = some l → l.IsPlain := by
  induction h with
  | refl => exact hdefs
  | tail _ hstep ih =>
      intro c l hl
      rcases hstep.layout?_cases hl with hl | ⟨r, floor, spec, hcompute⟩
      · exact ih c l hl
      · exact Layout.isPlain_of_compute hcompute

private theorem Definitions.Reachable.isPlain {defs : Definitions} (h : defs.Reachable)
    {c : Composite} {l : Layout} (hl : defs.layout? c = some l) : l.IsPlain :=
  Run.isPlain h (fun c l hl => by simp [layout?, empty, Progress.layout?] at hl) c l hl

private theorem isPlain_of_attachVariable {d : VariableDecl} {defs : Definitions} {r : Resolver}
    {libraries : LibrarySet} {b : VariableBinding} (h : attachVariable d defs r libraries = .ok b)
    {l : Layout} (hl : b.access = .wrapped l) :
    l.IsPlain := by
  rcases VariableDecl.access_eq_ok (attachVariable_eq_ok h) with
    ⟨c, v, -, -, -, hview⟩ | ⟨-, l', hwrap, hwrapped⟩
  · exact nomatch hl.symm.trans hview
  · cases hl.symm.trans hwrapped
    exact Layout.isPlain_of_compute (noting_eq_ok.1 (under_eq_ok.1 hwrap))

namespace Scope

variable {s : Scope}

private theorem passable_of_named (h : ∀ F ∈ s.frames, F.Passable) {name : String} {d : Descriptor}
    (hd : s.findType (.named name) = .ok d) : d.Passable :=
  of_findType_named .prim (fun F hF => (h F hF).stores) hd

private theorem passable_of_isWritten (h : ∀ F ∈ s.frames, F.Passable) {t : TypeRef}
    (ht : t.IsWritten) {d : Descriptor} (hd : s.findType t = .ok d) : d.Passable := by
  cases ht with
  | named name => exact passable_of_named h hd
  | byValue name =>
      change s.resolver.resolveByValue (.named name) = .ok d at hd
      unfold Resolver.resolveByValue at hd
      split at hd
      · cases hd
        exact .byValue _
      · cases hd

private theorem Signs.passable (h : ∀ F ∈ s.frames, F.Passable) {params : List TypeRef}
    {ret : TypeRef} (hwritten : ∀ t ∈ ret :: params, t.IsWritten) {sig : Signature}
    (hsig : s.Signs params ret sig) : sig.Passable := by
  have hmeans : ∀ t ∈ ret :: params, ∀ d, s.findType t = .ok d → d.Passable :=
    fun t ht d hd => passable_of_isWritten h (hwritten t ht) hd
  obtain ⟨hparams, hret⟩ := hsig.forall_of_findType hmeans
  exact ⟨hparams, hret⟩

end Scope

private theorem Frame.passable_empty (name : String) (convention : Convention) :
    (empty name convention).Passable where
  aliases _ _ h := nomatch h
  callbacks _ _ h := nomatch h
  bindings _ _ h := nomatch h

private theorem Scope.FrameStep.passable {s : Scope} {F : Frame}
    (h : s.FrameStep TypeRef.IsWritten F) (hs : ∀ F ∈ s.frames, F.Passable) : F.Passable := by
  have hown : s.frame.Passable := hs s.frame List.mem_cons_self
  have hstores : F.Stores Descriptor.Passable := by
    apply h.stores hown.stores .prim
    · intro sig hparams hret
      exact .callback sig.convention hparams hret
    · intro t ht d hd
      exact passable_of_isWritten hs ht hd
  refine ⟨hstores.aliases, fun name sig hsig => ?_, ?_⟩
  · cases hstores.callbacks name sig hsig with
    | callback _ hparams hret => exact ⟨hparams, hret⟩
  · cases h with
    | settings | typedef | callback | composite => exact hown.bindings
    | enumeration e => cases e with | mk name? items => cases name? <;> exact hown.bindings
    | @function d refs b signs =>
        have hb : (Binding.ofFunction b).Passable := signs.passable hs refs
        exact NameMap.forall_insert hb hown.bindings
    | @global d ref defs libraries b attached =>
        have hb : (Binding.ofVariable b).Passable := fun l => isPlain_of_attachVariable attached
        exact NameMap.forall_insert hb hown.bindings

private theorem Frame.Passable.function {s : Scope} (h : s.frame.Passable) {name : String}
    {b : FunctionBinding} (hb : s.findFunction? name = some b) : b.signature.Passable := by
  unfold Scope.findFunction? at hb
  split at hb
  · rename_i b' hbinding
    cases hb
    exact h.bindings name (.ofFunction b) hbinding
  · cases hb

private theorem FieldType.IsWritten.ref {t : FieldType} (h : t.IsWritten) : t.ref.IsWritten := by
  cases t with
  | single t => exact h
  | array t count => exact h.1

namespace Argument

private theorem isWritten_of_types_of_type {a b : Argument} {params : List TypeRef} {ret : TypeRef}
    (hparams : a.types = .ok params) (hret : b.type = .ok ret) :
    ∀ t ∈ ret :: params, t.IsWritten :=
  List.forall_mem_cons.2 ⟨(type_eq_ok.1 hret).1, (types_eq_ok.1 hparams).1⟩

end Argument

namespace Declaration

variable {args : List Argument} {d : Declaration}

private theorem refs_ofLibraries (h : ofLibraries args = .ok d) : d.refs = [] := by
  unfold ofLibraries at h
  split at h
  · cases h
  · obtain ⟨names, -, rfl⟩ := map_eq_ok.1 h
    rfl

private theorem refs_ofConvention (h : ofConvention args = .ok d) : d.refs = [] := by
  unfold ofConvention at h
  split at h
  · obtain ⟨name, -, hname⟩ := bind_eq_ok.1 h
    split at hname <;> cases hname
    rfl
  · cases h

private theorem refs_ofEnum (h : ofEnum args = .ok d) : d.refs = [] := by
  unfold ofEnum at h
  split at h
  · cases h
  · obtain ⟨items, -, rfl⟩ := map_eq_ok.1 h
    rfl

private theorem refs_ofSize (h : ofSize args = .ok d) : d.refs = [] := by
  unfold ofSize at h
  split at h
  · obtain ⟨name, -, hsize⟩ := bind_eq_ok.1 h
    obtain ⟨least, -, heq⟩ := bind_eq_ok.1 hsize
    cases heq
    rfl
  · cases h

private theorem refs_ofTypedef (h : ofTypedef args = .ok d) : ∀ t ∈ d.refs, t.IsWritten := by
  unfold ofTypedef at h
  split at h
  · obtain ⟨existing, hexisting, hname⟩ := bind_eq_ok.1 h
    obtain ⟨name, -, heq⟩ := bind_eq_ok.1 hname
    cases heq
    exact List.forall_mem_singleton.2 (Argument.type_eq_ok.1 hexisting).1
  · cases h

private theorem refs_ofCallback (h : ofCallback args = .ok d) : ∀ t ∈ d.refs, t.IsWritten := by
  unfold ofCallback at h
  split at h
  · obtain ⟨params, hparams, hrest⟩ := bind_eq_ok.1 h
    obtain ⟨ret, hret, heq⟩ := bind_eq_ok.1 hrest
    cases heq
    exact Argument.isWritten_of_types_of_type hparams hret
  · obtain ⟨name, -, hsig⟩ := bind_eq_ok.1 h
    obtain ⟨params, hparams, hrest⟩ := bind_eq_ok.1 hsig
    obtain ⟨ret, hret, heq⟩ := bind_eq_ok.1 hrest
    cases heq
    exact Argument.isWritten_of_types_of_type hparams hret
  · cases h

private theorem refs_ofComposite {kind : CompositeKind} (h : ofComposite kind args = .ok d) :
    ∀ t ∈ d.refs, t.IsWritten := by
  obtain ⟨name, layout, rfl, hwritten, -⟩ := ofComposite_eq_ok.1 h
  cases layout with
  | none => exact List.forall_mem_nil _
  | some spec =>
      intro t ht
      obtain ⟨f, hf, rfl⟩ := List.mem_map.1 (show t ∈ spec.fields.map (·.type.ref) from ht)
      exact (hwritten spec rfl f hf).type.ref

private theorem refs_ofFunction (h : ofFunction args = .ok d) : ∀ t ∈ d.refs, t.IsWritten := by
  unfold ofFunction at h
  split at h
  · obtain ⟨name, -, hsig⟩ := bind_eq_ok.1 h
    obtain ⟨params, hparams, hrest⟩ := bind_eq_ok.1 hsig
    obtain ⟨ret, hret, heq⟩ := bind_eq_ok.1 hrest
    cases heq
    exact Argument.isWritten_of_types_of_type hparams hret
  · obtain ⟨name, -, hnative⟩ := bind_eq_ok.1 h
    obtain ⟨native, -, hsig⟩ := bind_eq_ok.1 hnative
    obtain ⟨params, hparams, hrest⟩ := bind_eq_ok.1 hsig
    obtain ⟨ret, hret, heq⟩ := bind_eq_ok.1 hrest
    cases heq
    exact Argument.isWritten_of_types_of_type hparams hret
  · cases h

private theorem refs_ofVariable (h : ofVariable args = .ok d) : ∀ t ∈ d.refs, t.IsWritten := by
  unfold ofVariable at h
  split at h
  · obtain ⟨name, -, htype⟩ := bind_eq_ok.1 h
    obtain ⟨t, ht, heq⟩ := bind_eq_ok.1 htype
    cases heq
    exact List.forall_mem_singleton.2 (Argument.type_eq_ok.1 ht).1
  · obtain ⟨name, -, hnative⟩ := bind_eq_ok.1 h
    obtain ⟨native, -, htype⟩ := bind_eq_ok.1 hnative
    obtain ⟨t, ht, heq⟩ := bind_eq_ok.1 htype
    cases heq
    exact List.forall_mem_singleton.2 (Argument.type_eq_ok.1 ht).1
  · cases h

/-- The types of a parsed declaration are names, and names by value. -/
theorem refs_parse {kind : String} (h : parse kind args = .ok d) : ∀ t ∈ d.refs, t.IsWritten := by
  have hnone : d.refs = [] → ∀ t ∈ d.refs, t.IsWritten := by
    intro hrefs
    rw [hrefs]
    exact List.forall_mem_nil _
  rw [parse_eq_ok] at h
  unfold read at h
  split at h
  · exact hnone (refs_ofLibraries h)
  · exact hnone (refs_ofConvention h)
  · exact refs_ofTypedef h
  · exact hnone (refs_ofEnum h)
  · exact refs_ofCallback h
  · exact refs_ofComposite h
  · exact refs_ofComposite h
  · exact hnone (refs_ofSize h)
  · exact refs_ofFunction h
  · exact refs_ofVariable h
  · cases h

end Declaration

namespace Session

variable {t t' : Session}

/-- A new scope, or a declaration that was parsed. -/
inductive ParsedStep (t : Session) : Session → Prop
  | new (name : String) (host : Host) :
      ParsedStep t { t with scopes := .new name host :: t.scopes }
  | nested (name : String) {parent : Scope} (mem : parent ∈ t.scopes) :
      ParsedStep t { t with scopes := .nested name parent :: t.scopes }
  | declare {w : Workspace} (has : t.Has w) {kind : String} {args : List Argument}
      {d : Declaration} (parsed : Declaration.parse kind args = .ok d) :
      ParsedStep t ⟨(w.declare d).2.definitions, (w.declare d).2.scope :: t.scopes⟩

/-- What parsed declarations lead to from the beginning. -/
def Parsed (t : Session) : Prop :=
  Relation.ReflTransGen ParsedStep empty t

private theorem ParsedStep.stepWith (h : t.ParsedStep t') :
    t.StepWith (fun _ => TypeRef.IsWritten) t' := by
  cases h with
  | new name host => exact .new name host
  | nested name mem => exact .nested name mem
  | declare has parsed => exact .declare has (Declaration.refs_parse parsed)

private theorem Parsed.reachableWith (h : t.Parsed) : t.ReachableWith fun _ => TypeRef.IsWritten :=
  Relation.ReflTransGen.mono (fun _ _ hstep => ParsedStep.stepWith hstep) _ _ h

end Session

/-- The workspace of a scope in a session of parsed declarations. -/
def Workspace.Parsed (w : Workspace) : Prop :=
  ∃ t : Session, t.Parsed ∧ t.Has w

namespace Workspace

variable {w : Workspace}

private theorem Parsed.declare (h : w.Parsed) {kind : String} {args : List Argument}
    {d : Declaration} (parsed : Declaration.parse kind args = .ok d) : (w.declare d).2.Parsed := by
  obtain ⟨t, ht, hw⟩ := h
  exact ⟨_, .tail ht (.declare hw parsed), List.mem_cons_self, rfl⟩

private theorem Parsed.nested (h : w.Parsed) (name : String) :
    { w with scope := .nested name w.scope }.Parsed := by
  obtain ⟨t, ht, hw⟩ := h
  exact ⟨_, .tail ht (.nested name hw.scope_mem), List.mem_cons_self, hw.definitions_eq⟩

/-- Whatever parsed declarations are made in a scope, in those around it and in others, no alias,
no callback and no attached function of these scopes has a composite embedded in place in its type
or anywhere in its signature. No computed layout hides a composite in a scalar field. -/
theorem composites_passable (hw : w.Parsed) :
    (∀ F ∈ w.scope.frames, F.Passable) ∧
      ∀ c l, w.definitions.layout? c = some l → l.IsPlain := by
  obtain ⟨t, ht, hhas⟩ := hw
  have hwith : t.ReachableWith fun _ => TypeRef.IsWritten := ht.reachableWith
  have hpassable : ∀ s ∈ t.scopes, ∀ F ∈ s.frames, F.Passable := by
    apply hwith.forall_frames (P := fun F _ => F.Passable)
    · intro name convention _
      exact Frame.passable_empty name convention
    · intro w F _ hstep hframes
      exact hstep.passable hframes
    · intro F _ _ _ hF
      exact hF
  refine ⟨hpassable w.scope hhas.scope_mem, ?_⟩
  intro c l hl
  rw [hhas.definitions_eq] at hl
  exact hwith.reachable.sound.definitions.isPlain hl

end Workspace

-- The drawing is in the inner of two scopes. The alias `spot` is a point by value.
namespace Sample

def read (w : Workspace) (written : String × List Argument) : Workspace :=
  match Declaration.parse written.1 written.2 with
  | .ok d => (w.declare d).2
  | .error _ => w

private theorem parsed_foldl_read {w : Workspace} (hw : w.Parsed)
    (written : List (String × List Argument)) : (written.foldl read w).Parsed := by
  induction written generalizing w with
  | nil => exact hw
  | cons first rest ih =>
      apply ih
      unfold read
      split
      · rename_i d hd
        exact hw.declare hd
      · exact hw

def canvas : Workspace :=
  .new (.new "main" { opener with invokers := some onlyInZ })

def shapes : List (String × List Argument) :=
  [("struct", [.symbol "point",
      .list [.symbol "x", .symbol "int32", .symbol "y", .symbol "int32"]]),
    ("typedef", [.map [("by_value", .symbol "point")], .symbol "spot"])]

def drawing : List (String × List Argument) :=
  [("callback", [.symbol "move", .list [.symbol "point", .symbol "spot"], .symbol "void"]),
    ("struct", [.symbol "line", .list [.symbol "from", .symbol "point", .symbol "to",
      .symbol "spot", .symbol "by", .symbol "move"]]),
    ("library", [.symbol "z"]),
    ("function", [.symbol "draw", .list [.symbol "move"], .symbol "spot"])]

def sketch : Workspace :=
  let outer := shapes.foldl read canvas
  drawing.foldl read { outer with scope := .nested "inner" outer.scope }

private theorem sketch_parsed : sketch.Parsed := by
  have hcanvas : canvas.Parsed := ⟨_, .single (.new "main" _), List.mem_cons_self, rfl⟩
  exact parsed_foldl_read ((parsed_foldl_read hcanvas shapes).nested "inner") drawing

def line : Composite := ⟨1, .struct, "line"⟩

def move : Signature := ⟨[.pointer, .byValue point], .prim .void, .standard⟩

def draw : Signature := ⟨[move.toDescriptor], .byValue point, .standard⟩

/-- The inner scope, before anything is drawn. -/
private def blank : Workspace :=
  let outer := shapes.foldl read canvas
  { outer with scope := .nested "inner" outer.scope }

private def moving : Workspace :=
  { blank with scope := blank.scope.withCallback (some "move") move }

private def lineLayout : Layout :=
  ⟨.struct, [⟨"from", .composite point, 0, 8, 4⟩, ⟨"to", .composite point, 8, 8, 4⟩,
    ⟨"by", .scalar move.toDescriptor, 16, 8, 8⟩], 24, 8⟩

private def lined : Workspace :=
  { moving with
    scope := moving.scope.withRegistry (moving.scope.registry.insertComposite line)
    definitions := (moving.definitions.declare .struct "line").2.set line (.computed lineLayout) }

private def opened : Workspace :=
  { lined with scope.frame.libraries := some ⟨[library "z"], []⟩, opened := [some "z"] }

private def drawn : Workspace :=
  { opened with
    scope := opened.scope.bind "draw" (.ofFunction ⟨"draw", "draw", draw, library "z", invoker⟩)
    consulted := [⟨library "z", "draw", draw, .empty⟩] }

private theorem read_move :
    read blank ("callback", [.symbol "move", .list [.symbol "point", .symbol "spot"],
      .symbol "void"]) = moving := by
  rfl

private theorem read_line :
    read moving ("struct", [.symbol "line", .list [.symbol "from", .symbol "point", .symbol "to",
      .symbol "spot", .symbol "by", .symbol "move"]]) = lined := by
  rfl

private theorem read_library : read lined ("library", [.symbol "z"]) = opened := by
  rfl

private theorem read_draw :
    read opened ("function", [.symbol "draw", .list [.symbol "move"], .symbol "spot"]) = drawn := by
  rfl

private theorem sketch_eq : sketch = drawn := by
  change drawing.foldl read blank = drawn
  simp only [drawing, List.foldl_cons, List.foldl_nil, read_move, read_line, read_library,
    read_draw]

end Sample

theorem Workspace.composites_passable_sketch :
    Sample.sketch.Parsed ∧
      Sample.sketch.scope.registry.callbacks.get? "move" = some Sample.move ∧
      Sample.move.Passable ∧
      (∃ b, Sample.sketch.scope.findFunction? "draw" = some b ∧ b.signature = Sample.draw) ∧
      Sample.draw.Passable ∧
      (∃ l, Sample.sketch.definitions.layout? Sample.line = some l ∧ l.IsPlain ∧
        l.fields.map (·.kind) = [.composite Sample.point, .composite Sample.point,
          .scalar Sample.move.toDescriptor]) ∧
      ¬ (Descriptor.composite Sample.point).Passable := by
  obtain ⟨hframes, hlayouts⟩ := composites_passable Sample.sketch_parsed
  have hown : Sample.sketch.scope.frame.Passable := hframes _ List.mem_cons_self
  have hmove : Sample.sketch.scope.registry.callbacks.get? "move" = some Sample.move := by
    rw [Sample.sketch_eq]
    rfl
  have hdraw : Sample.sketch.scope.findFunction? "draw" =
      some ⟨"draw", "draw", Sample.draw, Sample.library "z", Sample.invoker⟩ := by
    rw [Sample.sketch_eq]
    rfl
  have hline : Sample.sketch.definitions.layout? Sample.line = some Sample.lineLayout := by
    rw [Sample.sketch_eq]
    rfl
  exact ⟨Sample.sketch_parsed, hmove, hown.callbacks "move" Sample.move hmove, ⟨_, hdraw, rfl⟩,
    hown.function hdraw, ⟨_, hline, hlayouts _ _ hline, rfl⟩, nofun⟩

end ForeignBinding
