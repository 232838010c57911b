import ForeignBinding.Command.Basic

/-!
# The command line

Options may be short or long, with their value attached or behind them. A value behind an option
does not start with a dash, unless it is nothing else. No option with a value is given twice, and
after `--` everything is a path.
-/

namespace ForeignBinding

namespace Command

inductive Name where
  | layout
  | check
  deriving DecidableEq, Repr

def Name.ofWord? : String → Option Name
  | "layout" => some .layout
  | "check" => some .check
  | _ => none

inductive Valued where
  | output
  | format
  deriving DecidableEq, Repr

/-- What has been read of a command's arguments. -/
structure Arguments where
  manifest : Option String := none
  output : Option String := none
  format : Option Format := none

def formatOf? : String → Option Format
  | "yaml" => some .yaml
  | "json" => some .json
  | _ => none

def Name.knows : Name → Valued → Bool
  | _, .output => true
  | .layout, .format => true
  | .check, .format => false

/-- The option of a letter, if the command knows it. -/
def Name.short? (n : Name) (c : Char) : Option Valued :=
  let v := if c = 'o' then some .output else if c = 'f' then some .format else none
  v.filter n.knows

/-- The option of a word, if the command knows it. -/
def Name.long? (n : Name) (w : List Char) : Option Valued :=
  let v := if w = "output".toList then some .output
    else if w = "format".toList then some .format
    else none
  v.filter n.knows

namespace Arguments

/-- Takes a path, unless there is one already. -/
def path? (a : Arguments) (p : String) : Option Arguments :=
  if a.manifest.isSome then none else some { a with manifest := some p }

/-- Takes the value of an option, unless there is one already. -/
def set? (a : Arguments) (v : Valued) (value : String) : Option Arguments :=
  match v with
  | .output => if a.output.isSome then none else some { a with output := some value }
  | .format =>
      if a.format.isSome then none else (formatOf? value).map fun f => { a with format := some f }

/-- Takes paths, of which there is room for one. -/
def paths? (a : Arguments) : List String → Option Arguments
  | [] => some a
  | p :: ps => do (← a.path? p).paths? ps

end Arguments

/-- What a group of short options asks for: nothing more, or a value, which may be attached. -/
inductive Group where
  | flags
  | value (v : Valued) (attached : Option String)

/-- Reads the letters of a group. `v` is for more messages, where that can be asked for. -/
def group? (n : Name) (verbose : Bool) : List Char → Option Group
  | [] => some .flags
  | c :: rest =>
      if c = 'v' ∧ verbose then group? n verbose rest
      else
        (n.short? c).map fun v =>
          match rest with
          | [] => .value v none
          | '=' :: value => .value v (some (String.ofList value))
          | value => .value v (some (String.ofList value))

/-- Whether an argument can be the value of the option before it. -/
def isValue (s : String) : Bool :=
  match s.toList with
  | '-' :: _ :: _ => false
  | _ => true

/-- Splits a long option at the first equals sign. -/
def splitLong (w : List Char) : List Char × Option String :=
  match w.dropWhile (· != '=') with
  | '=' :: value => (w.takeWhile (· != '='), some (String.ofList value))
  | _ => (w, none)

def longGroup? (n : Name) (verbose : Bool) (w : List Char) : Option Group :=
  match splitLong w with
  | (name, attached) =>
      if verbose ∧ name = "verbose".toList then if attached.isSome then none else some .flags
      else (n.long? name).map fun v => .value v attached

def arguments? (n : Name) (verbose : Bool) (a : Arguments) : List String → Option Arguments
  | [] => some a
  | s :: rest =>
      let group := match s.toList with
        | '-' :: '-' :: w => if w.isEmpty then none else some (longGroup? n verbose w)
        | '-' :: c :: w => some (group? n verbose (c :: w))
        | _ => none
      match group with
      | none => if s = "--" then a.paths? rest else do arguments? n verbose (← a.path? s) rest
      | some none => none
      | some (some .flags) => arguments? n verbose a rest
      | some (some (.value v (some value))) => do arguments? n verbose (← a.set? v value) rest
      | some (some (.value v none)) =>
          match rest with
          | value :: rest =>
              if isValue value then do arguments? n verbose (← a.set? v value) rest else none
          | [] => none

/-- The command of a name and its arguments. -/
def ofArguments (a : Arguments) : Name → Command
  | .layout => .layout { manifest := a.manifest, output := a.output, format := a.format }
  | .check => .check { manifest := a.manifest, output := a.output }

/-- Reads the name of a command and its arguments. -/
def ofWords? (verbose : Bool) : List String → Option Command
  | [] => none
  | w :: args => do
      let n ← Name.ofWord? w
      let a ← arguments? n verbose {} args
      return ofArguments a n

/-- Whether an argument only asks for more messages. -/
def isVerbose (s : String) : Bool :=
  s == "--verbose" ||
    match s.toList with
    | '-' :: c :: rest => (c :: rest).all (· == 'v')
    | _ => false

/-- Reads a command line. More messages can be asked for anywhere. -/
def ofLine? (args : List String) : Option Command :=
  ofWords? true (args.dropWhile isVerbose)

variable {m : Type → Type} [Monad m] [Files m]

/-- Whether an attempt succeeded; if it did not, its account is shown. -/
def concludes {ε : Type} [IsCause ε] : Attempt ε Unit → m Bool
  | .ok _ => return true
  | .error f => do
      f.account.forM Files.complain
      return false

/-- Carries out a command, and tells whether it succeeded. -/
def succeeds (c : Command) (host : Host) : m Bool := do
  match c with
  | .layout o => concludes (← o.run host)
  | .check o => concludes (← o.run host)

def usage : List String :=
  ["Usage: layout [MANIFEST] [-o OUTPUT] [-f yaml|json]", "       check [MANIFEST] [-o OUTPUT]"]

/-- Carries out a command line. The exit code is 0, or 1 after a failure, or 2 if the arguments do
not make a command. -/
def runLine (args : List String) (host : Host) : m UInt32 := do
  match ofLine? args with
  | none =>
      usage.forM Files.complain
      return 2
  | some c => return if ← c.succeeds host then 0 else 1

end Command

end ForeignBinding
