import ForeignBinding.Scope

/-!
# Libraries known beforehand

A loader that opens the libraries of a table, and a host with the few symbols that every process
on Linux has.
-/

namespace ForeignBinding

namespace Loader

/-- A loader that opens the names of a table; the process itself has none. -/
def ofTable (table : List (Option String × List (String × Address))) : Loader := fun name =>
  match table.lookup name with
  | some symbols => .ok ⟨name, fun s => symbols.lookup s⟩
  | none =>
      .error (name.getD "process" ++
        ": cannot open shared object file: No such file or directory")

end Loader

namespace Host

def librarySymbols : List (String × Address) :=
  [("getpid", ⟨0x7f0000001000⟩), ("malloc", ⟨0x7f0000002000⟩), ("free", ⟨0x7f0000003000⟩),
    ("environ", ⟨0x7f0000004000⟩)]

/-- A Linux host on which the C library is the only library. -/
def minimal : Host where
  platform := .linux
  load := .ofTable [(some "libc.so.6", librarySymbols), (none, librarySymbols)]
  base := .standard
  invokers := none

end Host

end ForeignBinding
