import ForeignBinding.Address
import ForeignBinding.Failure
import ForeignBinding.Library.Name
import ForeignBinding.Library.Platform

/-!
# Opening libraries

For each declared library its candidates are tried in order and the first that opens is kept. A
library that does not open at all is skipped and its causes are recorded; only when none opens is
that a failure. The names tried are part of the answer, so that the order of the search can be
stated.
-/

namespace ForeignBinding

/-- An opened library, with the addresses of its symbols. -/
structure Library where
  /-- The name it was opened with; the process itself has none. -/
  name : Option String
  symbol? : String → Option Address

/-- A library as it is shown. -/
def Library.display (l : Library) : String :=
  l.name.getD LibraryName.currentProcessName

/-- The address of a symbol that is not null. -/
def Library.find? (l : Library) (symbol : String) : Option Address :=
  (l.symbol? symbol).filter (fun a => !a.isNull)

/-- Opens a library by name, or the process itself where there is no name, or tells why not. -/
abbrev Loader := Option String → Except String Library

/-- A candidate that did not open, and why. -/
structure LoadFailure where
  candidate : String
  cause : String
  deriving DecidableEq, Repr

/-- The opened libraries of a scope in declaration order, and the failures of those skipped. -/
structure LibrarySet where
  libraries : List Library
  failures : List LoadFailure

namespace LibrarySet

/-- The libraries as they are shown. -/
def names (s : LibrarySet) : List String :=
  s.libraries.map Library.display

/-- The first library with a symbol that is not null, and the symbol's address. -/
def find? (s : LibrarySet) (symbol : String) : Option (Library × Address) :=
  s.libraries.findSome? fun l => (l.find? symbol).map (l, ·)

end LibrarySet

/-- The attempt to open one declared library: the names tried, and what came of it. -/
structure Trial where
  tried : List (Option String)
  result : Except (List LoadFailure) Library

namespace Trial

/-- The library, if one opened. -/
def library? (t : Trial) : Option Library :=
  t.result.toOption

/-- The failures, if none opened. -/
def failures (t : Trial) : List LoadFailure :=
  match t.result with
  | .ok _ => []
  | .error fs => fs

end Trial

namespace Loader

/-- Tries one name, shown as `shown`, and if it does not open goes on as `next` does. -/
def orElse (load : Loader) (name : Option String) (shown : String) (next : Trial) : Trial :=
  match load name with
  | .ok l => ⟨[name], .ok l⟩
  | .error cause => ⟨name :: next.tried, next.result.mapError (⟨shown, cause⟩ :: ·)⟩

/-- Tries names in order until one opens. -/
def openFirst (load : Loader) : List String → Trial
  | [] => ⟨[], .error []⟩
  | n :: rest => orElse load (some n) n (openFirst load rest)

/-- Tries the candidates of a declared library. -/
def openName (load : Loader) (platform : Platform) : LibraryName → Trial
  | .currentProcess => orElse load none LibraryName.currentProcessName ⟨[], .error []⟩
  | name =>
      match platform.candidates name.names with
      | [] => ⟨[], .error [⟨"[]", "no alternative names given"⟩]⟩
      | candidates => openFirst load candidates

end Loader

/-- What came of opening several libraries: the opened ones, or a failure with a note for each
candidate, the last one first. -/
def LibrarySet.ofTrials (trials : List Trial) : Attempt LibraryError LibrarySet :=
  let failures := trials.flatMap Trial.failures
  match trials.filterMap Trial.library? with
  | [] => .error
      { cause := .load (failures.map (·.cause))
        notes := (failures.map fun f => s!"{f.candidate}: {f.cause}").reverse }
  | libraries => .ok ⟨libraries, failures⟩

/-- Opens every declared library, of which there must be one. Also gives the names tried. -/
def resolveLibraries (load : Loader) (platform : Platform) (names : List LibraryName) :
    Attempt LibraryError LibrarySet × List (Option String) :=
  match names with
  | [] => (.fail .notDeclared, [])
  | names =>
      let trials := names.map (Loader.openName load platform)
      (LibrarySet.ofTrials trials, trials.flatMap Trial.tried)

end ForeignBinding
