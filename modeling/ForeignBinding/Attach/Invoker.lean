import ForeignBinding.Library.Search
import ForeignBinding.Memory.Value
import ForeignBinding.NameMap

/-!
# Invokers

An invoker calls one native function. A builder makes one for a symbol and a signature against one
library, or tells why it cannot. The probe is a builder that only looks the symbol up.
-/

namespace ForeignBinding

/-- What performs the calls of one native function. -/
structure Invoker where
  address : Address
  invoke : List Value → Attempt InvokeError Value

/-- What a builder is asked for. The symbols of the scope's enumerations are for arguments that
are given as symbols. -/
structure InvokerRequest where
  library : Library
  symbol : String
  signature : Signature
  enums : NameMap Int64

/-- Makes an invoker, or tells why there is none. -/
abbrev InvokerBuilder := InvokerRequest → Attempt InvokerError Invoker

/-- The address of the function asked for, which must not be null. -/
def InvokerRequest.locate (q : InvokerRequest) : Attempt InvokerError Address :=
  match q.library.find? q.symbol with
  | some a => .ok a
  | none => .fail (.notFound q.symbol q.library.display)

/-- A builder whose invokers have an address and cannot be called. -/
def InvokerBuilder.probe : InvokerBuilder := fun q => do
  let address ← q.locate
  return {
    address
    invoke := fun _ => .fail
      (.native s!"`{q.symbol}` {q.signature.display} was only probed and cannot be called") }

end ForeignBinding
