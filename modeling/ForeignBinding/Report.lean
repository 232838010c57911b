import ForeignBinding.Document.Json
import ForeignBinding.Document.Yaml
import ForeignBinding.Scope

/-!
# Reports

What a scope has declared, as a document. Empty sections are left out. The name of an enumeration
or callback is not listed again among the typedefs.
-/

namespace ForeignBinding

inductive Format where
  | yaml
  | json
  deriving DecidableEq, Repr

namespace Format

/-- The part of a path after its last slash, not counting slashes and dots at its end. -/
def fileName? (path : List Char) : Option (List Char) :=
  let segments := (path.splitOn '/').filter (fun s => s != [] && s != ['.'])
  match segments.getLast? with
  | some name => if name = ['.', '.'] then none else some name
  | none => none

/-- What follows the last dot of a file name, if something precedes it. -/
def extension? (name : List Char) : Option (List Char) :=
  let ending := (name.reverse.takeWhile (· != '.')).reverse
  if ending.length + 1 < name.length then some ending else none

/-- The format of a file: JSON if its name ends in `.json`, else YAML. -/
def ofPath (path : String) : Format :=
  match (fileName? path.toList).bind extension? with
  | some ending => if ending = "json".toList then .json else .yaml
  | none => .yaml

end Format

namespace Report

def namedType (entry : String × String) : Document :=
  .record [("name", .text entry.1), ("type", .text entry.2)]

/-- Whether a name's alias is not that of a callback or an enumeration. -/
def isTypedef (r : Registry) (name : String) : Bool :=
  (r.callbacks.get? name).isNone && (r.findEnum? name).isNone

/-- The aliases that are not those of callbacks or enumerations. -/
def typedefs (r : Registry) : List Document :=
  (r.aliases.entries.filter (isTypedef r ·.1)).map fun e => namedType (e.1, e.2.display)

/-- An enumeration with its symbols and values. -/
def enumeration (e : Enumeration) : Document :=
  .record <|
    e.name.toList.map (fun n => ("name", .text n)) ++
      [("values", .list (e.enumerators.map fun p =>
        .record [("name", .text p.1), ("value", .number p.2.toInt)]))]

def member (f : Field) : Document :=
  .record [("name", .text f.name), ("offset", .number f.offset), ("size", .number f.size),
    ("type", .text f.kind.display)]

/-- The fields of a composite that has a layout. -/
def members (p : Progress) : List Document :=
  match p.layout? with
  | some l => l.fields.map member
  | none => []

/-- A composite with what is known of its layout. -/
def composite (defs : Definitions) (c : Composite) : Document :=
  let p := defs.progress c
  .record <|
    [("name", .text c.name), ("kind", .text c.kind.word), ("size", .number p.size),
      ("align", .number p.alignment), ("complete", .bool p.layout?.isSome)] ++
      Document.listField "members" (members p)

def callback (entry : String × Signature) : Document :=
  namedType (entry.1, entry.2.toDescriptor.display)

/-- A function under the name it is attached to. -/
def functionEntry? (entry : String × Binding) : Option Document :=
  match entry.2 with
  | .ofFunction f => some <| .record
      [("name", .text entry.1), ("symbol", .text f.symbol), ("library", .text f.library.display),
        ("signature", .text f.signature.display), ("address", .text f.invoker.address.display)]
  | .ofVariable _ => none

/-- A variable under the name it is attached to. -/
def variableEntry? (entry : String × Binding) : Option Document :=
  match entry.2 with
  | .ofFunction _ => none
  | .ofVariable v => some <| .record
      [("name", .text entry.1), ("symbol", .text v.symbol), ("library", .text v.library.display),
        ("type", .text v.type.display), ("address", .text v.address.display)]

/-- The names of the libraries that are open. -/
def libraries (f : Frame) : List Document :=
  match f.libraries with
  | some set => set.names.map .text
  | none => []

/-- What a scope itself has declared, section by section. -/
def ofFrame (f : Frame) (defs : Definitions) : Document :=
  let r := f.registry
  .record <|
    ("scope", .text f.name) ::
      (Document.listField "libraries" (libraries f) ++
        Document.listField "typedefs" (typedefs r) ++
        Document.listField "enums" (r.enumerations.map enumeration) ++
        Document.listField "structs" (r.composites.entries.map (composite defs ·.2)) ++
        Document.listField "callbacks" (r.callbacks.entries.map callback) ++
        Document.listField "functions" (f.bindings.entries.filterMap functionEntry?) ++
        Document.listField "variables" (f.bindings.entries.filterMap variableEntry?))

def ofScope (s : Scope) (defs : Definitions) : Document :=
  ofFrame s.frame defs

def render (d : Document) : Format → String
  | .yaml => d.toYaml
  | .json => d.toJson

/-- The text of a report, whose last line is ended. -/
def renderLines (d : Document) (f : Format) : String :=
  let s := render d f
  if s.toList.getLast? = some '\n' then s else s.push '\n'

end Report

end ForeignBinding
