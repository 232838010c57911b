import ForeignBinding.Command.Line
import ForeignBinding.Library.Table

/-!
# The program

The command line on the files of the system. Here alone something outside is read or written.
-/

namespace ForeignBinding

/-- Whether an action ends without an error. -/
def succeedsIO (act : IO Unit) : IO Bool := do
  try
    act
    return true
  catch _ => return false

/-- The result of an action, unless it ends with an error. -/
def resultIO? {α : Type} (act : IO α) : IO (Option α) := do
  try return some (← act)
  catch _ => return none

/-- Whether a path leads to anything. With `/.` at its end, it leads to directories only. -/
def isPresentIO (path : String) : IO Bool := do
  return (← resultIO? (IO.FS.realPath path)).isSome

/-- The files of the system, and its standard streams. -/
instance : Files IO where
  canonical? path := do return (← resultIO? (IO.FS.realPath path)).map toString
  isFile path := do return (← isPresentIO path) && !(← isPresentIO (path ++ "/."))
  isPresent := isPresentIO
  read? path := resultIO? (IO.FS.readFile path)
  createDirectories path := succeedsIO (IO.FS.createDirAll path)
  write path text := succeedsIO (IO.FS.writeFile path text)
  print text := IO.print text
  complain text := IO.eprintln text

end ForeignBinding

/-- Runs the command line on a host that has the C library. -/
def main (args : List String) : IO UInt32 :=
  ForeignBinding.Command.runLine args ForeignBinding.Host.minimal
