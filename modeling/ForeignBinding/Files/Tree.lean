import ForeignBinding.Files.Basic

/-!
# Files in memory

A directory with all that is in it, held as a list of its files and directories, and the text that
was printed; complaints are not kept. Paths are taken from the current directory, from the top if
they start with the name that the top is mounted under, or else from the root. Nothing is known of
what lies around the top but two devices, and what paths of the tree make there.
-/

namespace ForeignBinding

inductive FileTree.Entry where
  | directory
  | file (text : String)
  /-- A device that is empty, whatever is written to it. -/
  | sink
  /-- A device that prints what is written to it. -/
  | printer
  deriving DecidableEq, Repr

/-- A place: the names on the way there from the top. The way leads outward first if the place is
not below the top, or starts with an empty name if it is told from the root. -/
abbrev FileTree.Place := List (List Char)

/-- The devices, and the directory that they are in. -/
def FileTree.devices : List (FileTree.Place × FileTree.Entry) :=
  let directory := [[], "dev".toList]
  [(directory, .directory), (directory ++ ["null".toList], .sink),
    (directory ++ ["stdout".toList], .printer)]

structure FileTree where
  /-- The name of the top in paths from the root. -/
  mount : String
  /-- The current directory, from the top. -/
  current : FileTree.Place := []
  entries : List (FileTree.Place × FileTree.Entry) := FileTree.devices
  /-- What was printed, the last text first. -/
  printed : List String := []

namespace FileTree

def root : Place := [[]]

/-- Whether a place is the top, or a directory around it. -/
def isAround (place : Place) : Bool := place == root || place.all (· == Path.outward)

/-- The directory around a place. The root has none but itself. -/
def outer (place : Place) : Place :=
  if place = root then root
  else if isAround place then Path.outward :: place
  else place.dropLast

def entry? (t : FileTree) (place : Place) : Option Entry :=
  if isAround place then some .directory else t.entries.lookup place

def isDirectory (t : FileTree) (place : Place) : Bool :=
  t.entry? place == some .directory

def put (t : FileTree) (place : Place) (e : Entry) : FileTree :=
  { t with entries := (place, e) :: t.entries.filter (fun x => x.1 != place) }

/-- Follows the parts of a path from a place. All but the last must lead to directories. -/
def follow? (t : FileTree) (place : Place) : List (List Char) → Option Place
  | [] => some place
  | p :: ps =>
      if !t.isDirectory place || !Path.isName p then none
      else if Path.isTrivial p then t.follow? place ps
      else if p = Path.outward then t.follow? (outer place) ps
      else t.follow? (place ++ [p]) ps

/-- Where a path starts, and the parts that follow. -/
def start? (t : FileTree) (path : String) : Option (Place × List (List Char)) :=
  if !Path.isPath path then none
  else
    match Path.parts path with
    | p :: ps =>
        if String.ofList p = t.mount then some ([], ps)
        else if p.isEmpty then some (root, ps)
        else some (t.current, p :: ps)
    | [] => none

/-- The place that a path leads to, whether there is something or not. -/
def place? (t : FileTree) (path : String) : Option Place := do
  let (place, ps) ← t.start? path
  t.follow? place ps

def find? (t : FileTree) (path : String) : Option (Place × Entry) := do
  let place ← t.place? path
  return (place, ← t.entry? place)

/-- The path of a place from the root, unless it lies around the top. -/
def pathOf? (t : FileTree) (place : Place) : Option String :=
  if place = root then some "/"
  else if place.head? = some Path.outward then none
  else if place.head? = some [] then some (Path.ofParts place)
  else some (Path.ofParts (t.mount.toList :: place))

/-- Makes the directories that the parts of a path lead through, one after the other, and tells
whether that was possible. Those before one that cannot be made stay. -/
def createFrom (t : FileTree) (place : Place) : List (List Char) → Bool × FileTree
  | [] => (true, t)
  | p :: ps =>
      if Path.isTrivial p then t.createFrom place ps
      else if p = Path.outward then t.createFrom (outer place) ps
      else if !Path.isName p then (false, t)
      else
        let inner := place ++ [p]
        match t.entry? inner with
        | some .directory => t.createFrom inner ps
        | some _ => (false, t)
        | none => (t.put inner .directory).createFrom inner ps

/-- Makes a directory and those around it, as far as that is possible. -/
def create (t : FileTree) (path : String) : Bool × FileTree :=
  match t.start? path with
  | some (place, ps) => t.createFrom place ps
  | none => (false, t)

def print (t : FileTree) (text : String) : FileTree := { t with printed := text :: t.printed }

/-- Writes a file, whose directory must be there. -/
def write? (t : FileTree) (path text : String) : Option FileTree := do
  let place ← t.place? path
  match t.entry? place with
  | some .directory => none
  | some .sink => return t
  | some .printer => return t.print text
  | _ => return t.put place (.file text)

/-- Writes a file if that is possible, and tells whether it was. -/
def write (t : FileTree) (path text : String) : Bool × FileTree :=
  match t.write? path text with
  | some t => (true, t)
  | none => (false, t)

/-- Puts a file into the tree, with the directories around it. -/
def addFile (t : FileTree) (path text : String) : FileTree :=
  ((t.create (Path.parent path)).2.write path text).2

/-- Puts a directory into the tree, with those around it. -/
def addDirectory (t : FileTree) (path : String) : FileTree := (t.create path).2

def text? (t : FileTree) (path : String) : Option String :=
  match t.find? path with
  | some (_, .file text) => some text
  | some (_, .sink) => some ""
  | _ => none

/-- Whether a path leads to a file, and not to a directory or a device. -/
def isFile (t : FileTree) (path : String) : Bool :=
  match t.find? path with
  | some (_, .file _) => true
  | _ => false

def output (t : FileTree) : String := String.join t.printed.reverse

instance : Files (StateM FileTree) where
  canonical? path := fun t => ((t.find? path).bind fun e => t.pathOf? e.1, t)
  isFile path := fun t => (t.isFile path, t)
  isPresent path := fun t => ((t.find? path).isSome, t)
  read? path := fun t => (t.text? path, t)
  createDirectories path := fun t => t.create path
  write path text := fun t => t.write path text
  print text := fun t => ((), t.print text)
  complain _ := return ()

end FileTree

end ForeignBinding
