import ForeignBinding.Declaration.Argument
import ForeignBinding.Declaration.Basic

/-!
# Reading declarations

A declaration is a kind and a list of arguments. Only the shape of the arguments is looked at; what
the names mean does not matter here.
-/

namespace ForeignBinding

namespace Argument

/-- The word that stands for the process itself among libraries. -/
def currentProcessWord : String := "current_process"

/-- An argument that must be a name. -/
def name : Argument → Attempt ArgumentError String
  | symbol s => .ok s
  | a => .fail (.expectedName a.shape)

/-- An argument that must be a whole number that is not negative. -/
def size : Argument → Attempt ArgumentError Nat
  | int n => if n < 0 then .fail (.negative n.toInt) else .ok n.toInt.toNat
  | a => .fail (.expectedInteger a.shape)

/-- A type: a name, or a map of `by_value` to a name. -/
def type : Argument → Attempt ArgumentError TypeRef
  | symbol s => .ok (.named s)
  | map [(key, symbol s)] =>
      if key = "by_value" then .ok (.byValue (.named s)) else .fail .typeMap
  | map _ => .fail .typeMap
  | a => .fail (.expectedType a.shape)

def types : Argument → Attempt ArgumentError (List TypeRef)
  | list items => items.mapM type
  | a => .fail (.expectedTypes a.shape)

/-- The type of a field: a type, or a list of an element type and a count. -/
def fieldType : Argument → Attempt ArgumentError FieldType
  | list [element, count] => do
      let element ← element.type
      let count ← count.size
      return .array element count
  | list _ => .fail .arrayShape
  | a => a.type.map .single

/-- Ordered fields: name, type and, where there is one, offset, over and over. -/
def orderedFields : List Argument → Attempt ArgumentError (List FieldSpec)
  | [] => .ok []
  | [a] => do
      let n ← a.name.noting "In a layout field name position"
      .fail (.fieldWithoutType n)
  | a :: t :: rest => do
      let n ← a.name.noting "In a layout field name position"
      let type ← t.fieldType.noting s!"In the type of field `{n}`"
      match rest with
      | int offset :: rest => do
          let offset ← (int offset).size
          let fields ← orderedFields rest
          return ⟨n, type, some offset⟩ :: fields
      | rest => do
          let fields ← orderedFields rest
          return ⟨n, type, none⟩ :: fields

/-- A field under its key, which cannot have an offset. -/
def keyedField (entry : String × Argument) : Attempt ArgumentError (String × FieldType) :=
  match entry with
  | (n, int _) => .fail (.offsetInKeyed n)
  | (n, t) => do
      let type ← t.fieldType.noting s!"In the type of field `{n}`"
      return (n, type)

/-- The fields of a composite: a list, or a map from names to types. -/
def layout : Argument → Attempt ArgumentError LayoutSpec
  | list items => (orderedFields items).map .ordered
  | map entries => (entries.mapM keyedField).map .keyed
  | a => .fail (.expectedLayout a.shape)

/-- The items of an enumeration: symbols, each with its value behind it or without, and pairs. -/
def enumItems : List Argument → Attempt ArgumentError (List EnumItem)
  | [] => .ok []
  | symbol s :: int v :: rest => do
      let items ← enumItems rest
      return .explicit s v :: items
  | symbol s :: rest => do
      let items ← enumItems rest
      return .implicit s :: items
  | list [symbol s, int v] :: rest => do
      let items ← enumItems rest
      return .explicit s v :: items
  | list _ :: _ => .fail .enumPair
  | a :: _ => .fail (.expectedEnumSymbol a.shape)

/-- The name of an enumeration, if it has one, and its items: a name and a list, a list alone, or
the items themselves. -/
def enumParts : List Argument → Option String × List Argument
  | [symbol name, list items] => (some name, items)
  | [list items] => (none, items)
  | items => (none, items)

/-- A library: a name, the word for the process itself, or a list of alternatives. -/
def library : Argument → Attempt ArgumentError LibraryName
  | symbol s => .ok (if s = currentProcessWord then .currentProcess else .named s)
  | list [] => .fail .noAlternative
  | list alternatives => (alternatives.mapM name).map .alternatives
  | a => .fail (.expectedLibrary a.shape)

end Argument

namespace Declaration

/-- The failure of a wrong number of arguments. -/
def wrongArity {α : Type} (kind : String) (least most : Nat) (args : List Argument) :
    Attempt ArgumentError α :=
  .fail (.arity kind least most args.length)

/-- Reads an enumeration, which has at least one symbol. -/
def ofEnum (args : List Argument) : Attempt ArgumentError Declaration :=
  match Argument.enumParts args with
  | (_, []) => .fail .noEnumSymbol
  | (name, items) => (Argument.enumItems items).map (.enumeration name)

/-- Reads libraries, at least one. -/
def ofLibraries (args : List Argument) : Attempt ArgumentError Declaration :=
  if args.isEmpty then .fail .noLibrary else (args.mapM Argument.library).map .libraries

/-- Reads the name of a calling convention. -/
def ofConvention : List Argument → Attempt ArgumentError Declaration
  | [a] => do
      let n ← a.name
      match Convention.ofName? n with
      | some c => return .convention c
      | none => .fail (.unknownConvention n)
  | args => wrongArity "convention" 1 1 args

def ofTypedef : List Argument → Attempt ArgumentError Declaration
  | [existing, name] => do
      let existing ← existing.type
      let name ← name.name
      return .typedef existing name
  | args => wrongArity "typedef" 2 2 args

/-- Reads a callback with a name or without. -/
def ofCallback : List Argument → Attempt ArgumentError Declaration
  | [params, ret] => do
      let params ← params.types
      let ret ← ret.type
      return .callback none params ret
  | [name, params, ret] => do
      let name ← name.name
      let params ← params.types
      let ret ← ret.type
      return .callback (some name) params ret
  | args => wrongArity "callback" 2 3 args

/-- Reads a composite with a layout or without. -/
def ofComposite (kind : CompositeKind) : List Argument → Attempt ArgumentError Declaration
  | [name] => do
      let name ← name.name
      return .composite kind name none
  | [name, layout] => do
      let name ← name.name
      let layout ← layout.layout
      return .composite kind name (some layout)
  | args => wrongArity kind.word 1 2 args

/-- Reads a name and a least size. -/
def ofSize : List Argument → Attempt ArgumentError Declaration
  | [name, least] => do
      let name ← name.name
      let least ← least.size
      return .size name least
  | args => wrongArity "size" 2 2 args

/-- Reads a function, whose symbol may be given after its name. -/
def ofFunction : List Argument → Attempt ArgumentError Declaration
  | [name, params, ret] => do
      let name ← name.name
      let params ← params.types
      let ret ← ret.type
      return .function { name, native := none, params, ret }
  | [name, native, params, ret] => do
      let name ← name.name
      let native ← native.name
      let params ← params.types
      let ret ← ret.type
      return .function { name, native := some native, params, ret }
  | args => wrongArity "function" 3 4 args

/-- Reads a variable, whose symbol may be given after its name. -/
def ofVariable : List Argument → Attempt ArgumentError Declaration
  | [name, type] => do
      let name ← name.name
      let type ← type.type
      return .global { name, native := none, type }
  | [name, native, type] => do
      let name ← name.name
      let native ← native.name
      let type ← type.type
      return .global { name, native := some native, type }
  | args => wrongArity "variable" 2 3 args

/-- Reads the arguments of a declaration of the given kind. -/
def read (kind : String) (args : List Argument) : Attempt ArgumentError Declaration :=
  match kind with
  | "library" => ofLibraries args
  | "convention" => ofConvention args
  | "typedef" => ofTypedef args
  | "enum" => ofEnum args
  | "callback" => ofCallback args
  | "struct" => ofComposite .struct args
  | "union" => ofComposite .union args
  | "size" => ofSize args
  | "function" => ofFunction args
  | "variable" => ofVariable args
  | _ => .fail (.unknownKind kind)

/-- The declaration of the given kind and arguments. -/
def parse (kind : String) (args : List Argument) : Attempt DeclError Declaration :=
  (read kind args).mapError fun f => { f with cause := .argument f.cause }

end Declaration

end ForeignBinding
