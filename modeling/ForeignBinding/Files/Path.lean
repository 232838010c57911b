/-!
# Paths

Paths as text, with slashes between their parts. Not every text leads somewhere: the empty one does
not, nor one that holds a zero character or is too long, as a whole or in one part.
-/

namespace ForeignBinding.Path

def parts (path : String) : List (List Char) :=
  path.toList.splitOn '/'

def ofParts (ps : List (List Char)) : String :=
  String.ofList (['/'].intercalate ps)

/-- Whether a part names nothing of its own. -/
def isTrivial (part : List Char) : Bool := part == [] || part == ['.']

/-- The part that stands for the directory around the one before it. -/
def outward : List Char := ['.', '.']

/-- Whether a part can be the name of something: it has at most 255 bytes. -/
def isName (part : List Char) : Bool := (String.ofList part).utf8ByteSize ≤ 255

/-- Whether a text can be a path at all. A path has less than 4096 bytes. -/
def isPath (path : String) : Bool :=
  path ≠ "" && path.utf8ByteSize < 4096 && !path.toList.contains (Char.ofNat 0)

/-- The directory that a path lies in; empty where the path does not name one. -/
def parent (path : String) : String :=
  let ps := ((parts path).reverse.dropWhile isTrivial).drop 1
  ofParts (ps.dropWhile isTrivial).reverse

/-- A path inside a directory; one that starts at the root stays as it is. -/
def join (directory path : String) : String :=
  if path.toList.head? = some '/' then path
  else if directory.toList.getLast? = some '/' then directory ++ path
  else directory ++ "/" ++ path

/-- The directories around the last of the given parts, which come last one first: the innermost
first. -/
def upwardParts : List (List Char) → List String
  | [] => []
  | [root] => if root.isEmpty then ["/"] else [String.ofList root]
  | p :: ps => ofParts (p :: ps).reverse :: upwardParts ps

/-- A directory and those around it, innermost first. -/
def upward (directory : String) : List String :=
  if directory = "/" then ["/"] else upwardParts (parts directory).reverse

end ForeignBinding.Path
