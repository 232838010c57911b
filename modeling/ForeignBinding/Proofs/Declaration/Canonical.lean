import Mathlib.Algebra.Group.Nat.Defs
import ForeignBinding.Proofs.Declaration.Spelling

/-!
# The canonical form of declarations

Every declaration has a canonical list of arguments, from which it is read back. Layouts have no
other form.
-/

namespace ForeignBinding

open Attempt

namespace TypeRef

/-- A type as it is written. -/
def argument : TypeRef → Argument
  | byValue t => .map [("by_value", t.argument)]
  | t => .symbol t.display

/-- The types that can be written: names, and names by value. -/
inductive IsWritten : TypeRef → Prop
  | named (name : String) : IsWritten (.named name)
  | byValue (name : String) : IsWritten (.byValue (.named name))

end TypeRef

namespace Argument

/-- A whole number that is not negative, as it is written. -/
def ofSize (n : Nat) : Argument := .int (Int64.ofNat n)

theorem type_eq_ok {a : Argument} {t : TypeRef} :
    a.type = .ok t ↔ t.IsWritten ∧ a = t.argument := by
  constructor
  · intro h
    unfold type at h
    split at h
    · cases h
      exact ⟨.named _, rfl⟩
    · split at h
      · rename_i hkey
        cases h
        exact ⟨.byValue _, by rw [hkey]; rfl⟩
      · cases h
    · cases h
    · cases h
  · rintro ⟨ht, rfl⟩
    cases ht <;> rfl

theorem types_eq_ok {a : Argument} {ts : List TypeRef} :
    a.types = .ok ts ↔ (∀ t ∈ ts, t.IsWritten) ∧ a = .list (ts.map TypeRef.argument) := by
  cases a with
  | list items => rw [types, mapM_eq_ok_iff type_eq_ok, list.injEq]
  | _ => simp [types, fail]

private theorem name_eq_ok {a : Argument} {s : String} : a.name = .ok s ↔ a = .symbol s := by
  cases a <;> simp [name, fail]

private theorem size_eq_ok {a : Argument} {n : Nat} :
    a.size = .ok n ↔ n < 2 ^ 63 ∧ a = .ofSize n := by
  constructor
  · intro h
    unfold size at h
    split at h
    · rename_i v
      split at h
      · cases h
      · rename_i hneg
        cases h
        have hnonneg : 0 ≤ v.toInt := by
          rw [Int64.lt_iff_toInt_lt, Int64.toInt_zero] at hneg
          omega
        have hlt := v.toInt_lt
        refine ⟨by omega, ?_⟩
        rw [ofSize, ← Int64.ofInt_eq_ofNat, Int.toNat_of_nonneg hnonneg, Int64.ofInt_toInt]
    · cases h
  · rintro ⟨hn, rfl⟩
    have hv : (Int64.ofNat n).toInt = n := Int64.toInt_ofNat_of_lt hn
    have hneg : ¬ Int64.ofNat n < 0 := by
      rw [Int64.lt_iff_toInt_lt, Int64.toInt_zero, hv]
      omega
    rw [ofSize, size, if_neg hneg, hv, Int.toNat_natCast]

end Argument

/-- The type of a field as it is written, an array as element type and count. -/
def FieldType.argument : FieldType → Argument
  | single t => t.argument
  | array t count => .list [t.argument, .ofSize count]

def FieldType.IsWritten : FieldType → Prop
  | single t => t.IsWritten
  | array t count => t.IsWritten ∧ count < 2 ^ 63

namespace FieldSpec

/-- A field of an ordered layout as it is written: name, type and, where there is one, offset. -/
def arguments (f : FieldSpec) : List Argument :=
  .symbol f.name :: f.type.argument :: f.offset.toList.map .ofSize

structure IsWritten (f : FieldSpec) : Prop where
  type : f.type.IsWritten
  offset : ∀ n ∈ f.offset, n < 2 ^ 63

end FieldSpec

/-- A layout as it is written. -/
def LayoutSpec.argument : LayoutSpec → Argument
  | ordered fs => .list (fs.flatMap FieldSpec.arguments)
  | keyed fs => .map (fs.map fun f => (f.1, f.2.argument))

def LayoutSpec.IsWritten (l : LayoutSpec) : Prop := ∀ f ∈ l.fields, f.IsWritten

private theorem LayoutSpec.isWritten_keyed {fs : List (String × FieldType)} :
    (keyed fs).IsWritten ↔ ∀ f ∈ fs, f.2.IsWritten := by
  rw [IsWritten, fields, List.forall_mem_map]
  exact forall₂_congr fun f _ => ⟨fun h => h.type, fun h => ⟨h, by simp⟩⟩

namespace Argument

private theorem fieldType_eq_ok {a : Argument} {t : FieldType} :
    a.fieldType = .ok t ↔ t.IsWritten ∧ a = t.argument := by
  constructor
  · intro h
    unfold fieldType at h
    split at h
    · obtain ⟨element, helement, h⟩ := bind_eq_ok.1 h
      obtain ⟨count, hcount, h⟩ := bind_eq_ok.1 h
      cases h
      obtain ⟨ht, rfl⟩ := type_eq_ok.1 helement
      obtain ⟨hn, rfl⟩ := size_eq_ok.1 hcount
      exact ⟨⟨ht, hn⟩, rfl⟩
    · cases h
    · obtain ⟨type, htype, rfl⟩ := map_eq_ok.1 h
      exact type_eq_ok.1 htype
  · rintro ⟨ht, rfl⟩
    cases t with
    | single t =>
        have hok : t.argument.type = .ok t := type_eq_ok.2 ⟨ht, rfl⟩
        cases ht <;> exact map_eq_ok.2 ⟨_, hok, rfl⟩
    | array t count =>
        have helement : t.argument.type = .ok t := type_eq_ok.2 ⟨ht.1, rfl⟩
        have hcount : (ofSize count).size = .ok count := size_eq_ok.2 ⟨ht.2, rfl⟩
        simp only [FieldType.argument, fieldType, helement, hcount, ok_bind]
        rfl

private theorem keyedField_eq_ok {e : String × Argument} {f : String × FieldType} :
    keyedField e = .ok f ↔ f.2.IsWritten ∧ e = (f.1, f.2.argument) := by
  obtain ⟨n, a⟩ := e
  obtain ⟨m, t⟩ := f
  have hread : keyedField (n, a) = .ok (m, t) ↔ n = m ∧ a.fieldType = .ok t := by
    constructor
    · intro h
      unfold keyedField at h
      split at h
      · cases h
      · rename_i n' a' _ heq
        cases heq
        obtain ⟨t', ht, h⟩ := bind_eq_ok.1 h
        cases h
        exact ⟨rfl, noting_eq_ok.1 ht⟩
    · rintro ⟨rfl, ht⟩
      cases a with
      | int v => cases ht
      | _ => simp only [keyedField, ht, noting_ok, ok_bind]; rfl
  rw [hread, fieldType_eq_ok, Prod.mk.injEq]
  exact and_left_comm

private theorem orderedFields_eq_ok {args : List Argument} {fs : List FieldSpec} :
    orderedFields args = .ok fs ↔
      (∀ f ∈ fs, f.IsWritten) ∧ args = fs.flatMap FieldSpec.arguments := by
  constructor
  · intro h
    induction args using orderedFields.induct generalizing fs with
    | case1 =>
        cases h
        exact ⟨by simp, rfl⟩
    | case2 a =>
        rw [orderedFields] at h
        obtain ⟨n, -, hfail⟩ := bind_eq_ok.1 h
        cases hfail
    | case3 a t rest ih =>
        rw [orderedFields] at h
        obtain ⟨n, hn, htail⟩ := bind_eq_ok.1 h
        obtain ⟨type, htype, hrest⟩ := bind_eq_ok.1 htail
        clear h htail
        obtain rfl := name_eq_ok.1 (noting_eq_ok.1 hn)
        obtain ⟨ht, rfl⟩ := fieldType_eq_ok.1 (noting_eq_ok.1 htype)
        split at hrest
        · obtain ⟨o, ho, hfields⟩ := bind_eq_ok.1 hrest
          obtain ⟨fs', hfs, heq⟩ := bind_eq_ok.1 hfields
          cases heq
          obtain ⟨hlt, hoffset⟩ := size_eq_ok.1 ho
          obtain ⟨hall, rfl⟩ := ih hfs
          refine ⟨List.forall_mem_cons.2 ⟨⟨ht, by simpa using hlt⟩, hall⟩, ?_⟩
          rw [hoffset]
          rfl
        · rename_i rest' hnot
          obtain ⟨fs', hfs, heq⟩ := bind_eq_ok.1 hrest
          cases heq
          split at ih
          · exact absurd rfl (hnot _ _)
          · obtain ⟨hall, rfl⟩ := ih hfs
            exact ⟨List.forall_mem_cons.2 ⟨⟨ht, by simp⟩, hall⟩, rfl⟩
  · rintro ⟨hall, rfl⟩
    induction fs with
    | nil => rfl
    | cons f fs ih =>
        obtain ⟨hf, hall'⟩ := List.forall_mem_cons.1 hall
        obtain ⟨n, type, offset⟩ := f
        have htype : type.argument.fieldType = .ok type := fieldType_eq_ok.2 ⟨hf.type, rfl⟩
        have hrest := ih hall'
        rw [List.flatMap_cons, FieldSpec.arguments]
        cases offset with
        | some o =>
            have ho : (ofSize o).size = .ok o := size_eq_ok.2 ⟨hf.offset o rfl, rfl⟩
            rw [ofSize] at ho
            simp [orderedFields, name, htype, ofSize, ho, hrest, pure, Except.pure]
        | none =>
            -- the next field starts with a symbol, so no offset is taken from it
            cases fs <;> simp_all [orderedFields, name, FieldSpec.arguments, pure, Except.pure]

private theorem layout_eq_ok {a : Argument} {l : LayoutSpec} :
    a.layout = .ok l ↔ l.IsWritten ∧ a = l.argument := by
  cases a with
  | list items =>
      rw [layout, map_eq_ok]
      constructor
      · rintro ⟨fs, hfs, rfl⟩
        obtain ⟨hall, rfl⟩ := orderedFields_eq_ok.1 hfs
        exact ⟨hall, rfl⟩
      · rintro ⟨hl, hargs⟩
        cases l with
        | ordered fs => exact ⟨fs, orderedFields_eq_ok.2 ⟨hl, list.inj hargs⟩, rfl⟩
        | keyed fs => cases hargs
  | map entries =>
      rw [layout, map_eq_ok]
      constructor
      · rintro ⟨fs, hfs, rfl⟩
        obtain ⟨hall, rfl⟩ := (mapM_eq_ok_iff keyedField_eq_ok).1 hfs
        exact ⟨LayoutSpec.isWritten_keyed.2 hall, rfl⟩
      · rintro ⟨hl, hargs⟩
        cases l with
        | ordered fs => cases hargs
        | keyed fs =>
            have hall := LayoutSpec.isWritten_keyed.1 hl
            exact ⟨fs, (mapM_eq_ok_iff keyedField_eq_ok).2 ⟨hall, map.inj hargs⟩, rfl⟩
  | symbol _ | int _ =>
      constructor
      · intro h
        cases h
      · rintro ⟨-, hargs⟩
        cases l <;> cases hargs

end Argument

/-- An item of an enumeration as it is written, with a value as a pair. -/
def EnumItem.argument : EnumItem → Argument
  | implicit s => .symbol s
  | explicit s v => .list [.symbol s, .int v]

private def EnumItem.spelling : EnumItem → EnumSpelling
  | implicit s => .symbol s
  | explicit s v => .paired s v

/-- A library as it is written. -/
def LibraryName.argument : LibraryName → Argument
  | currentProcess => .symbol Argument.currentProcessWord
  | named n => .symbol n
  | alternatives ns => .list (ns.map .symbol)

/-- The libraries that can be written: none has the word for the process itself as its one name, and
alternatives are at least one. -/
def LibraryName.IsWritten : LibraryName → Prop
  | currentProcess => True
  | named n => n ≠ Argument.currentProcessWord
  | alternatives ns => ns ≠ []

namespace Argument

private theorem enumItems_argument (items : List EnumItem) :
    enumItems (items.map EnumItem.argument) = .ok items := by
  have hitems : EnumSpelling.items (items.map EnumItem.spelling) = items := by
    rw [EnumSpelling.items, List.map_map]
    exact List.map_id'' (fun item => by cases item <;> rfl) items
  have hwritten : EnumSpelling.written (items.map EnumItem.spelling) =
      items.map EnumItem.argument := by
    rw [EnumSpelling.written, List.flatMap_map, List.map_eq_flatMap]
    congr
    funext item
    cases item <;> rfl
  rw [← hwritten, EnumSpelling.enumItems_written, hitems]

private theorem library_eq_ok {a : Argument} {n : LibraryName} :
    a.library = .ok n ↔ n.IsWritten ∧ a = n.argument := by
  have halternatives : ∀ {b : Argument} {s : String}, b.name = .ok s ↔ True ∧ b = .symbol s :=
    by simp only [name_eq_ok, true_and, implies_true]
  constructor
  · intro h
    unfold library at h
    split at h
    · rename_i s
      cases h
      split
      · rename_i hs
        exact ⟨trivial, by rw [hs]; rfl⟩
      · rename_i hs
        exact ⟨hs, rfl⟩
    · cases h
    · rename_i items hne
      obtain ⟨ns, hns, rfl⟩ := map_eq_ok.1 h
      obtain ⟨-, rfl⟩ := (mapM_eq_ok_iff halternatives).1 hns
      exact ⟨fun hnil => hne (by rw [hnil]; rfl), rfl⟩
    · cases h
  · rintro ⟨hn, rfl⟩
    cases n with
    | currentProcess => rfl
    | named n => exact congrArg _ (if_neg hn)
    | alternatives ns =>
        obtain ⟨n, rest, rfl⟩ := List.exists_cons_of_ne_nil hn
        have hnames : (n :: rest).map symbol = (n :: rest).map symbol := rfl
        exact map_eq_ok.2 ⟨_, (mapM_eq_ok_iff halternatives).2 ⟨by simp, hnames⟩, rfl⟩

end Argument

namespace Declaration

/-- The canonical arguments of a declaration: an optional name or symbol only where there is one, a
layout only where there is one, and the items of an enumeration in a list. -/
def arguments : Declaration → List Argument
  | libraries names => names.map LibraryName.argument
  | convention c => [.symbol c.display]
  | typedef existing name => [existing.argument, .symbol name]
  | enumeration name items =>
      name.toList.map .symbol ++ [.list (items.map EnumItem.argument)]
  | callback name params ret =>
      name.toList.map .symbol ++ [.list (params.map TypeRef.argument), ret.argument]
  | composite _ name layout => .symbol name :: layout.toList.map LayoutSpec.argument
  | size name least => [.symbol name, .ofSize least]
  | function f =>
      .symbol f.name :: f.native.toList.map .symbol ++
        [.list (f.params.map TypeRef.argument), f.ret.argument]
  | global v => .symbol v.name :: v.native.toList.map .symbol ++ [v.type.argument]

/-- The declarations that can be written. -/
def IsWritten : Declaration → Prop
  | libraries names => names ≠ [] ∧ ∀ n ∈ names, n.IsWritten
  | convention _ => True
  | typedef existing _ => existing.IsWritten
  | enumeration _ items => items ≠ []
  | callback _ params ret => (∀ t ∈ params, t.IsWritten) ∧ ret.IsWritten
  | composite _ _ layout => ∀ l ∈ layout, l.IsWritten
  | size _ least => least < 2 ^ 63
  | function f => (∀ t ∈ f.params, t.IsWritten) ∧ f.ret.IsWritten
  | global v => v.type.IsWritten

private theorem ofLibraries_arguments {names : List LibraryName} (h : (libraries names).IsWritten) :
    ofLibraries (libraries names).arguments = .ok (.libraries names) := by
  have hnames : (names.map LibraryName.argument).mapM Argument.library = .ok names :=
    (mapM_eq_ok_iff Argument.library_eq_ok).2 ⟨h.2, rfl⟩
  rw [arguments, ofLibraries, if_neg (by simpa using h.1), hnames]
  rfl

private theorem ofConvention_arguments (c : Convention) :
    ofConvention (convention c).arguments = .ok (.convention c) := by
  simp only [arguments, ofConvention, Argument.name, ok_bind, Convention.ofName?_display]
  rfl

private theorem ofTypedef_arguments {existing : TypeRef} {name : String} (h : existing.IsWritten) :
    ofTypedef (typedef existing name).arguments = .ok (.typedef existing name) := by
  have hexisting : existing.argument.type = .ok existing := Argument.type_eq_ok.2 ⟨h, rfl⟩
  simp only [arguments, ofTypedef, hexisting, ok_bind]
  rfl

private theorem ofEnum_arguments {name : Option String} {items : List EnumItem} (h : items ≠ []) :
    ofEnum (enumeration name items).arguments = .ok (.enumeration name items) := by
  have hparts : Argument.enumParts (enumeration name items).arguments =
      (name, items.map EnumItem.argument) := by
    cases name <;> rfl
  obtain ⟨item, rest, rfl⟩ := List.exists_cons_of_ne_nil h
  have hitems := Argument.enumItems_argument (item :: rest)
  rw [List.map_cons] at hparts hitems
  simp only [ofEnum, hparts, hitems]
  rfl

private theorem ofCallback_arguments {name : Option String} {params : List TypeRef} {ret : TypeRef}
    (h : (callback name params ret).IsWritten) :
    ofCallback (callback name params ret).arguments = .ok (.callback name params ret) := by
  have hparams : (Argument.list (params.map TypeRef.argument)).types = .ok params :=
    Argument.types_eq_ok.2 ⟨h.1, rfl⟩
  have hret : ret.argument.type = .ok ret := Argument.type_eq_ok.2 ⟨h.2, rfl⟩
  cases name <;>
    simp only [arguments, Option.toList_none, Option.toList_some, List.map_nil, List.map_cons,
      List.nil_append, List.cons_append, ofCallback, Argument.name, hparams, hret, ok_bind] <;>
    rfl

private theorem ofSize_arguments {name : String} {least : Nat} (h : (size name least).IsWritten) :
    ofSize (size name least).arguments = .ok (.size name least) := by
  have hleast : (Argument.ofSize least).size = .ok least := Argument.size_eq_ok.2 ⟨h, rfl⟩
  simp only [arguments, ofSize, Argument.name, hleast, ok_bind]
  rfl

private theorem ofFunction_arguments {f : FunctionDecl} (h : (function f).IsWritten) :
    ofFunction (function f).arguments = .ok (.function f) := by
  obtain ⟨name, native, params, ret⟩ := f
  have hparams : (Argument.list (params.map TypeRef.argument)).types = .ok params :=
    Argument.types_eq_ok.2 ⟨h.1, rfl⟩
  have hret : ret.argument.type = .ok ret := Argument.type_eq_ok.2 ⟨h.2, rfl⟩
  cases native <;>
    simp only [arguments, Option.toList_none, Option.toList_some, List.map_nil, List.map_cons,
      List.nil_append, List.cons_append, ofFunction, Argument.name, hparams, hret, ok_bind] <;>
    rfl

private theorem ofVariable_arguments {v : VariableDecl} (h : (global v).IsWritten) :
    ofVariable (global v).arguments = .ok (.global v) := by
  obtain ⟨name, native, type⟩ := v
  have htype : type.argument.type = .ok type := Argument.type_eq_ok.2 ⟨h, rfl⟩
  cases native <;>
    simp only [arguments, Option.toList_none, Option.toList_some, List.map_nil, List.map_cons,
      List.nil_append, List.cons_append, ofVariable, Argument.name, htype, ok_bind] <;>
    rfl

/-- A composite is read from exactly its canonical arguments. -/
theorem ofComposite_eq_ok {kind : CompositeKind} {args : List Argument} {d : Declaration} :
    ofComposite kind args = .ok d ↔
      ∃ name layout, d = .composite kind name layout ∧ d.IsWritten ∧ args = d.arguments := by
  constructor
  · intro h
    unfold ofComposite at h
    split at h
    · obtain ⟨n, hn, heq⟩ := bind_eq_ok.1 h
      cases heq
      obtain rfl := Argument.name_eq_ok.1 hn
      exact ⟨n, none, rfl, by simp [IsWritten], rfl⟩
    · obtain ⟨n, hn, hlayout⟩ := bind_eq_ok.1 h
      obtain ⟨l, hl, heq⟩ := bind_eq_ok.1 hlayout
      cases heq
      obtain rfl := Argument.name_eq_ok.1 hn
      obtain ⟨hwritten, rfl⟩ := Argument.layout_eq_ok.1 hl
      exact ⟨n, some l, rfl, by simpa [IsWritten] using hwritten, rfl⟩
    · cases h
  · rintro ⟨name, layout, rfl, h, rfl⟩
    cases layout with
    | none => rfl
    | some l =>
        have hl : l.argument.layout = .ok l := Argument.layout_eq_ok.2 ⟨h l rfl, rfl⟩
        simp only [arguments, Option.toList_some, List.map_cons, List.map_nil, ofComposite,
          Argument.name, hl, ok_bind]
        rfl

private theorem read_composite (kind : CompositeKind) (args : List Argument) :
    read kind.word args = ofComposite kind args := by
  cases kind <;> rfl

private theorem read_arguments {d : Declaration} (h : d.IsWritten) :
    read d.kind d.arguments = .ok d := by
  cases d with
  | libraries names => exact ofLibraries_arguments h
  | convention c => exact ofConvention_arguments c
  | typedef existing name => exact ofTypedef_arguments h
  | enumeration name items => exact ofEnum_arguments h
  | callback name params ret => exact ofCallback_arguments h
  | composite kind name layout =>
      exact (read_composite kind _).trans (ofComposite_eq_ok.2 ⟨name, layout, rfl, h, rfl⟩)
  | size name least => exact ofSize_arguments h
  | function f => exact ofFunction_arguments h
  | global v => exact ofVariable_arguments h

theorem parse_eq_ok {kind : String} {args : List Argument} {d : Declaration} :
    parse kind args = .ok d ↔ read kind args = .ok d := by
  rw [parse]
  cases read kind args with
  | ok d' =>
      constructor
      · intro h
        cases h
        rfl
      · intro h
        cases h
        rfl
  | error f =>
      constructor
      · intro h
        cases h
      · intro h
        cases h

private theorem parse_layout {kind : CompositeKind} {name layout : Argument} {d : Declaration}
    (h : parse kind.word [name, layout] = .ok d) :
    ∃ n l, name = .symbol n ∧ layout = l.argument ∧ d = .composite kind n (some l) := by
  rw [parse_eq_ok, read_composite] at h
  obtain ⟨n, layout, rfl, -, hargs⟩ := ofComposite_eq_ok.1 h
  cases layout with
  | none => cases hargs
  | some l =>
      cases hargs
      exact ⟨n, l, rfl, rfl, rfl⟩

/-- Every declaration that can be written is read back from its canonical arguments. The layout
argument of a composite is the canonical one of the layout read, so no other gives that layout. -/
theorem parse_canonical :
    (∀ d : Declaration, d.IsWritten → parse d.kind d.arguments = .ok d) ∧
    (∀ (kind : CompositeKind) (name layout : Argument) (d : Declaration),
      parse kind.word [name, layout] = .ok d →
        ∃ n l, d = .composite kind n (some l) ∧ layout = l.argument) ∧
    ∀ (kind kind' : CompositeKind) (name name' layout layout' : Argument) (n n' : String)
      (l : LayoutSpec),
      parse kind.word [name, layout] = .ok (.composite kind n (some l)) →
        parse kind'.word [name', layout'] = .ok (.composite kind' n' (some l)) →
          layout = layout' := by
  refine ⟨fun d h => parse_eq_ok.2 (read_arguments h), ?_, ?_⟩
  · intro kind name layout d h
    obtain ⟨n, l, -, hlayout, hd⟩ := parse_layout h
    exact ⟨n, l, hd, hlayout⟩
  · intro kind kind' name name' layout layout' n n' l h h'
    obtain ⟨m, k, -, rfl, heq⟩ := parse_layout h
    obtain ⟨m', k', -, rfl, heq'⟩ := parse_layout h'
    cases heq
    cases heq'
    rfl

end Declaration

namespace Sample

/-- An offset before an array, so that both a number and a list with a number follow a type. -/
def datagram : LayoutSpec :=
  .ordered [⟨"kind", .single (.named "uint8"), none⟩,
    ⟨"origin", .single (.byValue (.named "point")), some 8⟩,
    ⟨"body", .array (.named "char") 16, none⟩]

def datagramArgument : Argument :=
  .list [.symbol "kind", .symbol "uint8",
    .symbol "origin", .map [("by_value", .symbol "point")], .int 8,
    .symbol "body", .list [.symbol "char", .int 16]]

private theorem datagram_isWritten : datagram.IsWritten := by
  intro f hf
  simp only [datagram, LayoutSpec.fields, List.mem_cons, List.not_mem_nil, or_false] at hf
  rcases hf with rfl | rfl | rfl
  · exact ⟨.named _, by simp⟩
  · exact ⟨.byValue _, by simp⟩
  · exact ⟨⟨.named _, by decide⟩, by simp⟩

end Sample

theorem Declaration.parse_canonical_datagram :
    (Declaration.composite .struct "datagram" (some Sample.datagram)).IsWritten ∧
      parse "struct" [.symbol "datagram", Sample.datagramArgument] =
        .ok (.composite .struct "datagram" (some Sample.datagram)) ∧
      parse "union" [.symbol "overlay", Sample.datagramArgument] =
        .ok (.composite .union "overlay" (some Sample.datagram)) ∧
      Sample.datagramArgument = Sample.datagram.argument := by
  have hwritten : ∀ kind name,
      (Declaration.composite kind name (some Sample.datagram)).IsWritten := by
    intro kind name l hl
    cases hl
    exact Sample.datagram_isWritten
  obtain ⟨hparse, -, hunique⟩ := parse_canonical
  have hstruct := hparse _ (hwritten .struct "datagram")
  have hunion := hparse _ (hwritten .union "overlay")
  exact ⟨hwritten _ _, hstruct, hunion, hunique .struct .union _ _ _ _ _ _ _ hstruct hunion⟩

end ForeignBinding
