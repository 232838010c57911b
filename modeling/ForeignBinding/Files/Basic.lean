import ForeignBinding.Files.Path

/-!
# Access to files

What commands ask of a file system, in whatever monad answers it.
-/

namespace ForeignBinding

/-- A file system, a place to print and one to complain. Where an operation can fail, why it did is
not told. -/
class Files (m : Type → Type) where
  /-- The path of an existing file or directory from the root, without detours. -/
  canonical? : String → m (Option String)
  /-- Whether a path leads to a file that is no directory. -/
  isFile : String → m Bool
  /-- Whether a path leads to anything. -/
  isPresent : String → m Bool
  /-- The text of a file. -/
  read? : String → m (Option String)
  /-- Makes a directory and those around it that are missing; some may be made before one cannot. -/
  createDirectories : String → m Bool
  /-- Makes a file with the given text, or replaces its text. -/
  write : String → String → m Bool
  print : String → m Unit
  /-- Shows a line apart from what is printed. -/
  complain : String → m Unit

namespace Files

variable {m : Type → Type} [Monad m] [Files m]

/-- The first of several paths that leads to a file. -/
def firstFile? : List String → m (Option String)
  | [] => return none
  | p :: ps => do
      if ← isFile p then return some p else firstFile? ps

/-- The file of a name in a directory or in the closest one around it that has such a file. -/
def findUpward? (start name : String) : m (Option String) := do
  match ← canonical? start with
  | none => return none
  | some directory => firstFile? ((Path.upward directory).map (Path.join · name))

/-- Makes the directory that a path lies in, unless it is there. -/
def ensureParent (path : String) : m Bool := do
  let directory := Path.parent path
  if directory = "" then return true
  else if ← isPresent directory then return true
  else createDirectories directory

end Files

end ForeignBinding
