import ForeignBinding.Attach.Invoker
import ForeignBinding.Resolver

/-!
# Attaching functions

The signature is resolved first. Then the libraries are asked in order; one that lacks the symbol
is passed over, any other failure ends the search. Where every library lacks the symbol, the first
library's failure is reported.
-/

namespace ForeignBinding

structure FunctionDecl where
  name : String
  /-- The symbol, where it is not the name. -/
  native : Option String
  params : List TypeRef
  ret : TypeRef
  deriving DecidableEq, Repr

def FunctionDecl.symbol (d : FunctionDecl) : String :=
  d.native.getD d.name

structure FunctionBinding where
  name : String
  symbol : String
  signature : Signature
  library : Library
  invoker : Invoker

/-- Calls an attached function, with as many arguments as it has parameters. -/
def FunctionBinding.call (b : FunctionBinding) (args : List Value) : Attempt InvokeError Value :=
  if args.length = b.signature.params.length then b.invoker.invoke args
  else (Attempt.fail (.arity b.signature.params.length args.length)).noting
    s!"Calling `{b.name}`"

/-- What came of asking libraries for a function. -/
inductive Inquiry where
  | found (library : Library) (invoker : Invoker)
  /-- A library failed for another reason than lacking the symbol. -/
  | refused (f : Failure InvokerError)
  /-- All lack the symbol; the failure of the first, if there was a library at all. -/
  | missing (first : Option (Failure InvokerError))

/-- Asks libraries in order. Also gives the requests made. -/
def inquire (build : InvokerBuilder) (request : Library → InvokerRequest) :
    List Library → Inquiry × List InvokerRequest
  | [] => (.missing none, [])
  | l :: rest =>
      match build (request l) with
      | .ok i => (.found l i, [request l])
      | .error f =>
          if f.cause.isLoadError then
            let (inquiry, made) := inquire build request rest
            match inquiry with
            | .missing _ => (.missing (some f), request l :: made)
            | found => (found, request l :: made)
          else (.refused f, [request l])

/-- The binding of a function, given what came of asking the libraries. -/
def FunctionDecl.bind (d : FunctionDecl) (signature : Signature) (libraries : LibrarySet) :
    Inquiry → Attempt AttachError FunctionBinding
  | .found library invoker =>
      .ok { name := d.name, symbol := d.symbol, signature, library, invoker }
  | .refused f => .error (f.under (AttachError.ofFunction d.name))
  | .missing (some f) => .error (f.under (AttachError.ofFunction d.name))
  | .missing none => .fail (.notFound d.symbol libraries.names)

/-- Attaches a function. Also gives the requests made. -/
def attachFunction (d : FunctionDecl) (r : Resolver) (convention : Convention)
    (libraries : LibrarySet) (build : InvokerBuilder) (enums : NameMap Int64) :
    Attempt AttachError FunctionBinding × List InvokerRequest :=
  match (r.signature d.params d.ret convention).under (AttachError.ofType d.name) with
  | .error f => (.error f, [])
  | .ok signature =>
      let (inquiry, made) :=
        inquire build (fun library => ⟨library, d.symbol, signature, enums⟩) libraries.libraries
      (d.bind signature libraries inquiry, made)

end ForeignBinding
