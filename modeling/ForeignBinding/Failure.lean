import ForeignBinding.Failure.Cause

/-!
# Failures

A failure is a cause with an account of how it came about: remarks made on the way out, and the
earlier causes that it stands for. Its chain lists them newest first.
-/

namespace ForeignBinding

inductive Failure.Entry where
  | note (text : String)
  | cause (c : Cause)
  /-- A cause outside the library, such as an unreadable file. -/
  | external
  deriving DecidableEq, Repr

def Failure.Entry.text : Failure.Entry → String
  | .note text => text
  | .cause c => c.message
  | .external => "Refused by the system, or not well-formed"

/-- A cause, the notes made about it (newest first) and what led to it. -/
structure Failure (ε : Type) where
  cause : ε
  notes : List String := []
  history : List Failure.Entry := []
  deriving DecidableEq, Repr

/-- Causes that can stand in the account of a failure. -/
class IsCause (ε : Type) where
  toCause : ε → Cause

instance : IsCause TypeError := ⟨.ofType⟩
instance : IsCause LayoutError := ⟨.ofLayout⟩
instance : IsCause LibraryError := ⟨.ofLibrary⟩
instance : IsCause InvokerError := ⟨.ofInvoker⟩
instance : IsCause InvokeError := ⟨.ofInvoke⟩
instance : IsCause AttachError := ⟨.ofAttach⟩
instance : IsCause MemoryError := ⟨.ofMemory⟩
instance : IsCause DeclError := ⟨.ofDecl⟩
instance : IsCause ManifestError := ⟨.ofManifest⟩
instance : IsCause LayoutRunError := ⟨.ofLayoutRun⟩
instance : IsCause CheckError := ⟨.ofCheck⟩
instance : IsCause ReportError := ⟨.ofReport⟩

namespace Failure

variable {ε δ : Type}

/-- The whole account, newest entry first. -/
def chain [IsCause ε] (f : Failure ε) : List Entry :=
  f.notes.map .note ++ .cause (IsCause.toCause f.cause) :: f.history

/-- What the account says, an entry a line. -/
def account [IsCause ε] (f : Failure ε) : List String := f.chain.map Entry.text

/-- The failure with one more note in front. -/
def note (f : Failure ε) (text : String) : Failure ε :=
  { f with notes := text :: f.notes }

/-- The failure as the reason for another one. -/
def under [IsCause ε] (f : Failure ε) (cause : δ) : Failure δ :=
  { cause, history := f.chain }

/-- A failure that something outside the library led to. -/
def ofExternal (cause : ε) : Failure ε :=
  { cause, history := [.external] }

@[simp]
theorem chain_note [IsCause ε] (f : Failure ε) (text : String) :
    (f.note text).chain = .note text :: f.chain := rfl

@[simp]
theorem chain_under [IsCause ε] [IsCause δ] (f : Failure ε) (cause : δ) :
    (f.under cause).chain = .cause (IsCause.toCause cause) :: f.chain := rfl

end Failure

/-- A result, or a failure with a cause of the given type. -/
abbrev Attempt (ε α : Type) := Except (Failure ε) α

namespace Attempt

variable {ε δ α : Type}

def fail (cause : ε) : Attempt ε α :=
  .error { cause }

/-- Adds a note if the attempt failed. -/
def noting (a : Attempt ε α) (text : String) : Attempt ε α :=
  a.mapError (·.note text)

/-- Gives the failure, if any, a new cause in front. -/
def under [IsCause ε] (a : Attempt ε α) (cause : δ) : Attempt δ α :=
  a.mapError (·.under cause)

@[simp]
theorem noting_ok (x : α) (text : String) : noting (.ok x : Attempt ε α) text = .ok x := rfl

@[simp]
theorem noting_error (f : Failure ε) (text : String) :
    noting (.error f : Attempt ε α) text = .error (f.note text) := rfl

@[simp]
theorem under_ok [IsCause ε] (x : α) (cause : δ) : under (.ok x : Attempt ε α) cause = .ok x := rfl

@[simp]
theorem under_error [IsCause ε] (f : Failure ε) (cause : δ) :
    under (.error f : Attempt ε α) cause = .error (f.under cause) := rfl

end Attempt

end ForeignBinding
