import ForeignBinding.Declaration.Apply
import ForeignBinding.Manifest.Declarations

/-!
# The types of a manifest

Carries out the declarations that are about types alone, so that layouts can be told without any
library.
-/

namespace ForeignBinding

namespace Workspace

/-- Carries out declarations until one fails. -/
def declareAll (w : Workspace) : List Declaration → Attempt DeclError Workspace
  | [] => .ok w
  | d :: ds =>
      match w.declare d with
      | (.ok _, w) => w.declareAll ds
      | (.error f, _) => .error f

end Workspace

namespace Manifest

def declareTypes (m : Manifest) (host : Host) : Attempt LayoutRunError Workspace := do
  let ds ← m.read.under LayoutRunError.manifest
  ((Workspace.new (.new m.name host)).declareAll (ds.filter Declaration.isType)).under
    LayoutRunError.declare

end Manifest

end ForeignBinding
