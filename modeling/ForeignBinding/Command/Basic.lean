import ForeignBinding.Files.Basic
import ForeignBinding.Manifest.Check
import ForeignBinding.Manifest.Types
import ForeignBinding.Report

/-!
# Commands

`layout` reports the types of a manifest; `check` carries out all of it and may report it too. A
manifest that is not named is looked for in the current directory and those around it. A report is
printed, or written to a file, in the format that is asked for or that the file's name tells.
-/

namespace ForeignBinding

/-- What `layout` is told. -/
structure LayoutOptions where
  manifest : Option String := none
  output : Option String := none
  format : Option Format := none
  deriving DecidableEq, Repr

/-- What `check` is told. -/
structure CheckOptions where
  manifest : Option String := none
  output : Option String := none
  deriving DecidableEq, Repr

inductive Command where
  | layout (o : LayoutOptions)
  | check (o : CheckOptions)
  deriving DecidableEq, Repr

namespace Manifest

variable {m : Type → Type} [Monad m] [Files m]

def locate (path : Option String) : m (Attempt ManifestError String) := do
  match path with
  | some p => return .ok p
  | none =>
      match ← Files.findUpward? "." fileName with
      | some p => return .ok p
      | none =>
          return (Attempt.fail .notFound).noting <|
            s!"Please run where `{fileName}` is in the current or a parent directory" ++
              ", or specify the path"

/-- The manifest of a text, which is an outside failure if it cannot be read. -/
def parse (text : String) : Attempt ManifestError Manifest :=
  match ofText? text with
  | some x => .ok x
  | none => .error (.ofExternal .parse)

def load (path : String) : m (Attempt ManifestError Manifest) := do
  match ← Files.read? path with
  | some text => return (parse text).noting s!"Path: {path}"
  | none => return .error ((Failure.ofExternal .read).note s!"Path: {path}")

def find (path : Option String) : m (Attempt ManifestError Manifest) := do
  match ← locate path with
  | .ok p => load p
  | .error f => return .error f

end Manifest

namespace Report

variable {m : Type → Type} [Monad m] [Files m]

/-- Writes a report to a file, and tells so. -/
def writeFile (d : Document) (path : String) (f : Format) : m (Attempt ReportError Unit) := do
  let refused := .error ((Failure.ofExternal .write).note s!"Path: {path}")
  if !(← Files.ensureParent path) then return refused
  else if !(← Files.write path (render d f)) then return refused
  else
    Files.print s!"Output written to {path}\n"
    return .ok ()

/-- Writes a report to a file, or prints it. -/
def write (d : Document) (path : Option String) (f : Format) : m (Attempt ReportError Unit) := do
  match path with
  | some p => writeFile d p f
  | none =>
      Files.print (renderLines d f)
      return .ok ()

end Report

namespace LayoutOptions

/-- The format of the report: the one asked for, else that of the file, else YAML. -/
def reportFormat (o : LayoutOptions) : Format :=
  (o.format <|> o.output.map Format.ofPath).getD .yaml

variable {m : Type → Type} [Monad m] [Files m]

/-- Carries out `layout`. -/
def run (o : LayoutOptions) (host : Host) : m (Attempt LayoutRunError Unit) := do
  match ← Manifest.find o.manifest with
  | .error f => return .error (f.under LayoutRunError.manifest)
  | .ok manifest =>
      match manifest.declareTypes host with
      | .error f => return .error f
      | .ok w =>
          let result ← Report.write (Report.ofScope w.scope w.definitions) o.output o.reportFormat
          return result.under LayoutRunError.report

end LayoutOptions

namespace CheckOptions

variable {m : Type → Type} [Monad m] [Files m]

/-- Carries out `check`. -/
def run (o : CheckOptions) (host : Host) : m (Attempt CheckError Unit) := do
  match ← Manifest.find o.manifest with
  | .error f => return .error (f.under CheckError.manifest)
  | .ok manifest =>
      let (result, lines) := manifest.check host
      Files.print (String.join (lines.map (· ++ "\n")))
      match result, o.output with
      | .error f, _ => return .error f
      | .ok _, none => return .ok ()
      | .ok w, some path =>
          let written ←
            Report.writeFile (Report.ofScope w.scope w.definitions) path (Format.ofPath path)
          return written.under CheckError.report

end CheckOptions

end ForeignBinding
