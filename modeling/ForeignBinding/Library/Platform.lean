/-!
# Names of library files

How a platform decorates the bare name of a library, and the names that are tried for the names a
declaration gives: each as it is given, then decorated.
-/

namespace ForeignBinding

structure Platform where
  /-- What a library's file name starts with. -/
  lead : List Char
  /-- What it ends with, without the dot. -/
  ending : List Char
  /-- The file of the C library, whose bare name is `c`. -/
  libc : List Char
  /-- Whether a version may follow the ending, as in `.so.6`. -/
  versioned : Bool
  deriving DecidableEq, Repr

namespace Platform

def linux : Platform := ⟨"lib".toList, "so".toList, "libc.so.6".toList, true⟩

def macos : Platform := ⟨"lib".toList, "dylib".toList, "libc.dylib".toList, false⟩

def windows : Platform := ⟨[], "dll".toList, "msvcrt.dll".toList, false⟩

/-- A bare name has no directory and is the name of a file. -/
def isBare (name : List Char) : Bool :=
  !name.contains '/' && name != [] && name != ['.'] && name != ['.', '.']

/-- Whether what follows the ending is nothing, or a version: a dot and a digit. -/
def isVersion : List Char → Bool
  | [] => true
  | '.' :: c :: _ => c.isDigit
  | _ => false

/-- What stands behind each match of a pattern in a text. The matches are disjoint: after a match
the search goes on behind it, what is left of the match being skipped. -/
def behindMatches (pattern : List Char) : (skipped : Nat) → List Char → List (List Char)
  | _, [] => []
  | skipped + 1, _ :: text => behindMatches pattern skipped text
  | 0, c :: text =>
      if pattern.isPrefixOf (c :: text) then
        (c :: text).drop pattern.length :: behindMatches pattern (pattern.length - 1) text
      else behindMatches pattern 0 text

/-- Whether the ending stands somewhere in the name, followed by nothing or a version. -/
def hasVersionedEnding (ending name : List Char) : Bool :=
  (behindMatches ending 0 name).any isVersion

/-- Whether a name counts as having the platform's ending. -/
def hasEnding (p : Platform) (name : List Char) : Bool :=
  if p.versioned then hasVersionedEnding ('.' :: p.ending) name
  else ('.' :: p.ending).isSuffixOf name

/-- Puts what is missing of the platform's lead and ending around a bare name. -/
def decorate (p : Platform) (name : List Char) : List Char :=
  let led := if p.lead.isPrefixOf name then name else p.lead ++ name
  if p.hasEnding led then led else led ++ '.' :: p.ending

/-- The file name of a library; a name with a directory is one already. -/
def mapName (p : Platform) (name : List Char) : List Char :=
  let file := if name = ['c'] then p.libc else name
  if isBare file then p.decorate file else file

/-- The list with `x` at its end, unless it is there already. -/
def addNew (xs : List String) (x : String) : List String :=
  if xs.contains x then xs else xs ++ [x]

/-- The file name of a library, as text. -/
def fileName (p : Platform) (name : String) : String :=
  String.ofList (p.mapName name.toList)

/-- The names to try for the given alternatives, in order and without repetition. -/
def candidates (p : Platform) (names : List String) : List String :=
  (names.flatMap fun n => [n, p.fileName n]).foldl addNew []

end Platform

end ForeignBinding
