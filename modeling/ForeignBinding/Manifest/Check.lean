import ForeignBinding.Declaration.Apply
import ForeignBinding.Manifest.Declarations

/-!
# Checking a manifest

Carries out every declaration, opening libraries and looking up symbols, and prints a line for
each that did so. The lines printed before a failure stay.
-/

namespace ForeignBinding

namespace Declared

/-- The line for a declaration that has to do with native code. -/
def summary? : Declared → Option String
  | .libraries names => some ("libraries: " ++ ", ".intercalate names)
  | .function f => some
      s!"function {f.name}{f.signature.display} = {f.invoker.address.display} in {f.library.display}"
  | .global v => some
      s!"variable {v.name}: {v.type.display} = {v.address.display} in {v.library.display}"
  | _ => none

end Declared

namespace Workspace

/-- Carries out declarations until one fails, the first of which has the given number. Also gives
the lines printed. -/
def check (w : Workspace) (index : Nat) :
    List Declaration → Attempt CheckError Workspace × List String
  | [] => (.ok w, [])
  | d :: ds =>
      match w.declare d with
      | (.ok declared, w) =>
          let (result, lines) := w.check (index + 1) ds
          (result, declared.summary?.toList ++ lines)
      | (.error f, _) => (.error (f.under (CheckError.declare index)), [])

end Workspace

namespace Manifest

/-- The scope of all that a manifest declares, and the lines printed. Functions are only looked
up, so they cannot be called. -/
def check (m : Manifest) (host : Host) : Attempt CheckError Workspace × List String :=
  match m.read.under CheckError.manifest with
  | .error f => (.error f, [])
  | .ok ds =>
      (Workspace.new (.new m.name { host with invokers := some .probe })).check 0 ds

end Manifest

end ForeignBinding
