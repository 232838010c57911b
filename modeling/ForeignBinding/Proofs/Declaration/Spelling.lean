import ForeignBinding.Declaration.Parse
import ForeignBinding.Proofs.Attempt

/-!
# Spellings of enumerations

The value of a symbol may be written behind it, or together with it in a list, and all items may be
wrapped in one more list. The items are the same in all spellings. Only a symbol in front of a single
list is read differently: it is the name of the enumeration.
-/

namespace ForeignBinding

open Attempt

/-- An item of an enumeration as it may be written. -/
inductive EnumSpelling where
  | symbol (s : String)
  /-- The value is the argument behind the symbol. -/
  | followed (s : String) (value : Int64)
  /-- Symbol and value are one argument. -/
  | paired (s : String) (value : Int64)
  deriving DecidableEq, Repr

namespace EnumSpelling

def item : EnumSpelling → EnumItem
  | symbol s => .implicit s
  | followed s v | paired s v => .explicit s v

def arguments : EnumSpelling → List Argument
  | symbol s => [.symbol s]
  | followed s v => [.symbol s, .int v]
  | paired s v => [.list [.symbol s, .int v]]

def items (ws : List EnumSpelling) : List EnumItem := ws.map item

/-- The arguments of all items, one after the other. -/
def written (ws : List EnumSpelling) : List Argument := ws.flatMap arguments

/-- The items are written like a name and the list of what has it. -/
def Named (ws : List EnumSpelling) : Prop :=
  ∃ name s v, ws = [symbol name, paired s v]

private theorem written_ne_nil {ws : List EnumSpelling} (h : ws ≠ []) : written ws ≠ [] := by
  obtain ⟨w, rest, rfl⟩ := List.exists_cons_of_ne_nil h
  cases w <;> simp [written, arguments]

/-- Every spelling of an item is read as the item. -/
theorem enumItems_written (ws : List EnumSpelling) :
    Argument.enumItems (written ws) = .ok (items ws) := by
  induction ws with
  | nil => rfl
  | cons w rest ih =>
      cases w with
      | symbol s =>
          cases rest with
          | nil => rfl
          | cons next rest =>
              -- what is written next is no value, whatever the spelling
              cases next <;>
                simp_all [written, items, arguments, item, Argument.enumItems, pure, Except.pure]
      | followed s v | paired s v =>
          have hrest : Argument.enumItems (rest.flatMap arguments) = .ok (items rest) := ih
          simp only [written, List.flatMap_cons, arguments, List.cons_append, List.nil_append,
            Argument.enumItems, hrest]
          rfl

private theorem enumParts_written {ws : List EnumSpelling} (h : ¬ Named ws) :
    ∃ ws', items ws' = items ws ∧ Argument.enumParts (written ws) = (none, written ws') := by
  match ws with
  | [] | [.symbol _] | [.followed _ _] => exact ⟨_, rfl, rfl⟩
  | [.paired s v] => exact ⟨[followed s v], rfl, rfl⟩
  | .followed _ _ :: _ :: _ => exact ⟨_, rfl, rfl⟩
  | .paired _ _ :: next :: _ =>
      refine ⟨_, rfl, ?_⟩
      cases next <;> rfl
  | .symbol _ :: .symbol _ :: _ | .symbol _ :: .followed _ _ :: _ => exact ⟨_, rfl, rfl⟩
  | [.symbol name, .paired s v] => exact absurd ⟨name, s, v, rfl⟩ h
  | .symbol _ :: .paired _ _ :: third :: _ =>
      refine ⟨_, rfl, ?_⟩
      cases third <;> rfl

end EnumSpelling

namespace Declaration

open EnumSpelling

private theorem parse_enum_of_parts {args : List Argument} {name : Option String}
    {ws : List EnumSpelling} (hparts : Argument.enumParts args = (name, written ws))
    (hne : ws ≠ []) :
    parse "enum" args = .ok (.enumeration name (items ws)) := by
  have hread : ofEnum args = .ok (.enumeration name (items ws)) := by
    have hitems := enumItems_written ws
    obtain ⟨a, rest, hcons⟩ := List.exists_cons_of_ne_nil (written_ne_nil hne)
    rw [hcons] at hparts hitems
    simp only [ofEnum, hparts, hitems]
    rfl
  have hkind : read "enum" args = ofEnum args := rfl
  rw [parse, hkind, hread]
  rfl

/-- However the items of an enumeration are spelled, it is read as the enumeration without a name of
these items, wrapped in a list as well as bare. Bare items that are written like a name and a list
are read as that instead. -/
theorem parse_enum_spelled {ws : List EnumSpelling} (hne : ws ≠ []) :
    parse "enum" [.list (written ws)] = .ok (.enumeration none (items ws)) ∧
      (¬ Named ws → parse "enum" (written ws) = .ok (.enumeration none (items ws))) ∧
      (∀ name s v, ws = [.symbol name, .paired s v] →
        parse "enum" (written ws) = .ok (.enumeration (some name) [.explicit s v])) ∧
      ∀ ws', items ws' = items ws →
        parse "enum" [.list (written ws')] = parse "enum" [.list (written ws)] ∧
          (¬ Named ws → ¬ Named ws' →
            parse "enum" (written ws') = parse "enum" (written ws)) := by
  have hwrapped : ∀ ws, ws ≠ [] →
      parse "enum" [.list (written ws)] = .ok (.enumeration none (items ws)) :=
    fun ws hne => parse_enum_of_parts rfl hne
  have hne_of_items : ∀ {ws ws'}, items ws' = items ws → ws ≠ [] → ws' ≠ [] := by
    rintro ws ws' hsame hne rfl
    exact hne (List.map_eq_nil_iff.1 hsame.symm)
  have hbare : ∀ ws, ws ≠ [] → ¬ Named ws →
      parse "enum" (written ws) = .ok (.enumeration none (items ws)) := by
    intro ws hne hnot
    obtain ⟨ws', hsame, hparts⟩ := enumParts_written hnot
    rw [parse_enum_of_parts hparts (hne_of_items hsame hne), hsame]
  refine ⟨hwrapped ws hne, hbare ws hne, ?_, ?_⟩
  · rintro name s v rfl
    have hparts : Argument.enumParts (written [.symbol name, .paired s v]) =
        (some name, written [.followed s v]) := rfl
    exact parse_enum_of_parts hparts (by simp)
  · intro ws' hsame
    have hne' : ws' ≠ [] := hne_of_items hsame hne
    refine ⟨by rw [hwrapped ws hne, hwrapped ws' hne', hsame], fun hnot hnot' => ?_⟩
    rw [hbare ws hne hnot, hbare ws' hne' hnot', hsame]

/-- With the value behind it the second color is one of two items, but in a list with its value it
makes the first symbol a name. -/
theorem parse_enum_spelled_colors :
    let colors : List EnumSpelling := [.symbol "red", .followed "blue" 5]
    let respelled : List EnumSpelling := [.symbol "red", .paired "blue" 5]
    colors ≠ [] ∧ items respelled = items colors ∧
      parse "enum" (written colors) =
        .ok (.enumeration none [.implicit "red", .explicit "blue" 5]) ∧
      parse "enum" [.list (written respelled)] = parse "enum" [.list (written colors)] ∧
      parse "enum" (written respelled) = .ok (.enumeration (some "red") [.explicit "blue" 5]) := by
  intro colors respelled
  have hne : colors ≠ [] := by simp [colors]
  have hne' : respelled ≠ [] := by simp [respelled]
  have hnot : ¬ Named colors := by simp [colors, Named]
  obtain ⟨-, hbare, -, hsame⟩ := parse_enum_spelled hne
  exact ⟨hne, rfl, hbare hnot, (hsame respelled rfl).1,
    (parse_enum_spelled hne').2.2.1 "red" "blue" 5 rfl⟩

theorem not_parse_enum_spelled :
    ¬ ∀ ws, ws ≠ [] → parse "enum" (written ws) = .ok (.enumeration none (items ws)) := by
  intro h
  cases h [.symbol "red", .paired "blue" 5] (by simp)

end Declaration

end ForeignBinding
