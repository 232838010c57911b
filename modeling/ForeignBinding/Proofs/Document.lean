import ForeignBinding.Document

/-!
# Fields of documents

The field of a record under a key, and what is listed there. A list that is left out has no field,
and so no items either.
-/

namespace ForeignBinding.Document

/-- The field of a record. -/
def field? (key : String) : Document → Option Document
  | record fields => fields.lookup key
  | _ => none

theorem lookup_listField {key name : String} (h : key ≠ name) (items : List Document) :
    (listField name items).lookup key = none := by
  cases items with
  | nil => rfl
  | cons d ds =>
      have hkey : (key == name) = false := beq_false_of_ne h
      simp [listField, List.lookup_cons, hkey]

/-- What is listed under a key; nothing where the list is left out. -/
def items (d : Document) (key : String) : List Document :=
  match d.field? key with
  | some (.list items) => items
  | _ => []

theorem items_eq {d : Document} {key : String} {items : List Document}
    (h : d.field? key = (listField key items).lookup key) : d.items key = items := by
  rw [Document.items, h]
  cases items with
  | nil => rfl
  | cons x xs => simp [listField]

end ForeignBinding.Document
