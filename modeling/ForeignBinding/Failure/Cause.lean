import ForeignBinding.Type.Composite

/-!
# Causes of failure

What can go wrong, one type for each part of the library, with the message of each cause.
-/

namespace ForeignBinding

inductive TypeError where
  | unknownType (name : String)
  /-- Something other than a struct or union was asked for by value. -/
  | notComposite (shown : String)
  deriving DecidableEq, Repr

/-- Why a composite cannot be declared, sized or laid out. -/
inductive LayoutError where
  | alreadyComputed (name : String)
  | sizeAlreadySet
  /-- A composite without a layout is embedded. -/
  | incomplete (name : String)
  | duplicateField (field : String)
  /-- The name already stands for the other kind of composite. -/
  | kindClash (name : String) (declared : CompositeKind)
  | notDeclaredHere (name scope : String)
  /-- A size, an offset or their sum does not fit into an address. -/
  | overflow (field : String)
  | fieldType (field : String)
  deriving DecidableEq, Repr

inductive LibraryError where
  /-- Nothing opened; one cause for each candidate tried. -/
  | load (causes : List String)
  | notDeclared
  deriving DecidableEq, Repr

/-- Why an invoker could not be built against one library. -/
inductive InvokerError where
  | notFound (symbol library : String)
  | other (text : String)
  deriving DecidableEq, Repr

inductive InvokeError where
  | arity (expected got : Nat)
  | native (text : String)
  deriving DecidableEq, Repr

/-- Why a function or variable could not be attached. -/
inductive AttachError where
  | ofType (name : String)
  | ofFunction (name : String)
  | ofVariable (name : String)
  | notFound (symbol : String) (libraries : List String)
  | noInvokerBuilder
  deriving DecidableEq, Repr

/-- Why a typed access to memory is refused. -/
inductive MemoryError where
  | unknownField (name : String)
  | incomplete (name : String)
  /-- Values of the type cannot be read or written. -/
  | unsupported (shownType : String)
  | mismatch (valueKind shownType : String)
  deriving DecidableEq, Repr

/-- The shapes of a declaration's arguments. -/
inductive ArgumentShape where
  | symbol
  | integer
  | list
  | map
  deriving DecidableEq, Repr

/-- How an argument list can fail to be a declaration. -/
inductive ArgumentError where
  | unknownKind (kind : String)
  | arity (kind : String) (least most got : Nat)
  | unknownConvention (name : String)
  | expectedName (got : ArgumentShape)
  | expectedInteger (got : ArgumentShape)
  | negative (value : Int)
  | expectedType (got : ArgumentShape)
  | expectedTypes (got : ArgumentShape)
  /-- A map in type position is not `by_value` with a name. -/
  | typeMap
  /-- A list in field type position is not a type and a count. -/
  | arrayShape
  | expectedLayout (got : ArgumentShape)
  | fieldWithoutType (field : String)
  | offsetInKeyed (field : String)
  | noEnumSymbol
  | enumPair
  | expectedEnumSymbol (got : ArgumentShape)
  | noLibrary
  | noAlternative
  | expectedLibrary (got : ArgumentShape)
  deriving DecidableEq, Repr

/-- Why a declaration failed: it has no meaning, or it could not be carried out. -/
inductive DeclError where
  | argument (e : ArgumentError)
  | declaration (what : String)
  deriving DecidableEq, Repr

/-- Why a manifest has no declarations to give. -/
inductive ManifestError where
  | notFound
  | read
  | parse
  | declaration (index : Nat)
  deriving DecidableEq, Repr

/-- Why the layouts of a manifest could not be reported. -/
inductive LayoutRunError where
  | manifest
  | declare
  | report
  deriving DecidableEq, Repr

inductive CheckError where
  | manifest
  | declare (index : Nat)
  | report
  deriving DecidableEq, Repr

/-- Why a report could not be written. -/
inductive ReportError where
  | write
  deriving DecidableEq, Repr

namespace TypeError

def message : TypeError → String
  | unknownType n => s!"Unknown type `{n}`"
  | notComposite t => s!"Type `{t}` is not a struct or union and cannot be passed by value"

end TypeError

namespace LayoutError

def message : LayoutError → String
  | alreadyComputed n => s!"Layout of `{n}` is already computed"
  | sizeAlreadySet => "Size already set"
  | incomplete n => s!"`{n}` has no layout and cannot be embedded"
  | duplicateField f => s!"Invalid layout: duplicate field `{f}`"
  | kindClash n k => s!"Invalid layout: `{n}` is already declared as a {k.word}"
  | notDeclaredHere n s => s!"Invalid layout: no struct or union `{n}` in scope `{s}`"
  | overflow f => s!"Size of field `{f}` overflows"
  | fieldType f => s!"Cannot resolve type of field `{f}`"

end LayoutError

namespace LibraryError

def message : LibraryError → String
  | load causes => ". ".intercalate causes
  | notDeclared => "no library specified"

end LibraryError

namespace InvokerError

def message : InvokerError → String
  | notFound s l => s!"Function \'{s}\' not found in [{l}]"
  | other t => t

/-- Whether the search for the function goes on in the next library. -/
def isLoadError : InvokerError → Bool
  | notFound .. => true
  | other _ => false

end InvokerError

namespace InvokeError

def message : InvokeError → String
  | arity e g => s!"Expected {e} arguments, got {g}"
  | native t => t

end InvokeError

namespace AttachError

def message : AttachError → String
  | ofType n => s!"Cannot resolve the types of `{n}`"
  | ofFunction n => s!"Cannot attach function `{n}`"
  | ofVariable n => s!"Cannot attach variable `{n}`"
  | notFound s ls => s!"Symbol `{s}` not found in [" ++ ", ".intercalate ls ++ "]"
  | noInvokerBuilder => "No invoker builder is configured to attach functions"

end AttachError

namespace MemoryError

def message : MemoryError → String
  | unknownField n => s!"No field `{n}`"
  | incomplete n => s!"`{n}` has no layout"
  | unsupported t => s!"Cannot access a value of type {t} in memory"
  | mismatch v t => s!"Cannot store {v} as {t}"

end MemoryError

def ArgumentShape.describe : ArgumentShape → String
  | symbol => "a name"
  | integer => "an integer"
  | list => "a list"
  | map => "a map"

namespace ArgumentError

def message : ArgumentError → String
  | unknownKind k => s!"unknown declaration kind `{k}`"
  | arity k least most got =>
      let expected := if least = most then s!"{least}" else s!"{least} to {most}"
      s!"`{k}` takes {expected} arguments, got {got}"
  | unknownConvention n => s!"unknown calling convention `{n}`"
  | expectedName g => s!"expected a name, got {g.describe}"
  | expectedInteger g => s!"expected an integer, got {g.describe}"
  | negative v => s!"expected a non-negative integer, got {v}"
  | expectedType g => s!"expected a type, got {g.describe}"
  | expectedTypes g => s!"expected a list of types, got {g.describe}"
  | typeMap => "a type map must be `\x7bby_value: name\x7d`"
  | arrayShape => "an array field must be `[type, count]`"
  | expectedLayout g => s!"expected a layout list or map, got {g.describe}"
  | fieldWithoutType f => s!"field `{f}` has no type"
  | offsetInKeyed f => s!"field `{f}`: offsets are not allowed in a keyed layout"
  | noEnumSymbol => "an enum needs at least one symbol"
  | enumPair => "an enum value must be `[symbol, integer]`"
  | expectedEnumSymbol g => s!"expected an enum symbol, got {g.describe}"
  | noLibrary => "`library` needs at least one library"
  | noAlternative => "empty list of alternative library names"
  | expectedLibrary g => s!"expected a library name, got {g.describe}"

end ArgumentError

namespace DeclError

def message : DeclError → String
  | argument e => "Invalid declaration: " ++ e.message
  | declaration what => "Failed to declare " ++ what

end DeclError

namespace ManifestError

def message : ManifestError → String
  | notFound => "Manifest not found"
  | read => "Failed to read manifest"
  | parse => "Failed to parse manifest"
  | declaration i => s!"Invalid declaration #{i}"

end ManifestError

namespace LayoutRunError

def message : LayoutRunError → String
  | manifest => "Failed to load manifest"
  | declare => "Failed to declare types"
  | report => "Failed to write report"

end LayoutRunError

namespace CheckError

def message : CheckError → String
  | manifest => "Failed to load manifest"
  | declare i => s!"Declaration #{i} failed"
  | report => "Failed to write report"

end CheckError

namespace ReportError

def message : ReportError → String
  | write => "Failed to write report"

end ReportError

inductive Cause where
  | ofType (e : TypeError)
  | ofLayout (e : LayoutError)
  | ofLibrary (e : LibraryError)
  | ofInvoker (e : InvokerError)
  | ofInvoke (e : InvokeError)
  | ofAttach (e : AttachError)
  | ofMemory (e : MemoryError)
  | ofDecl (e : DeclError)
  | ofManifest (e : ManifestError)
  | ofLayoutRun (e : LayoutRunError)
  | ofCheck (e : CheckError)
  | ofReport (e : ReportError)
  deriving DecidableEq, Repr

def Cause.message : Cause → String
  | ofType e => e.message
  | ofLayout e => e.message
  | ofLibrary e => e.message
  | ofInvoker e => e.message
  | ofInvoke e => e.message
  | ofAttach e => e.message
  | ofMemory e => e.message
  | ofDecl e => e.message
  | ofManifest e => e.message
  | ofLayoutRun e => e.message
  | ofCheck e => e.message
  | ofReport e => e.message

end ForeignBinding
