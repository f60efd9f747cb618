import Marginalia.Path.Basic
import Marginalia.Text.Digit

/-!
# The command line

Options have a long name and, most of them, a letter; flags can be
bundled behind one dash, and a value can follow its option as the next
argument or be attached to it. All other arguments are files.

Arguments are read from left to right and the first problem wins. A
value in an argument of its own, and a row of files, are only looked at
when the next option or flag is read, or at the end: an argument that is
not known at all is reported before a bad value that waits.
-/

namespace Marginalia

/-- What was asked for on the command line. -/
structure Arguments where
  files : List Path := []
  base : Option Path := none
  config : Option Path := none
  fileName : Option String := none
  padding : Option Nat := none
  verbose : Bool := false
  stdout : Bool := false
  deriving DecidableEq

namespace CommandLine

/-- Why a command line is not carried out. -/
inductive Usage where
  | unknownArgument
  /-- A value is missing, or is empty where a path is wanted. -/
  | invalidValue
  /-- A value is not a number. -/
  | valueValidation
  /-- An option or flag is given twice. -/
  | argumentConflict
  /-- A value is attached to a flag. -/
  | tooManyValues
  /-- The help was asked for. -/
  | displayHelp
  /-- The version was asked for. -/
  | displayVersion
  deriving DecidableEq

/-- An option that takes a value. -/
inductive Choice where
  | base
  | config
  | fileName
  | padding
  deriving DecidableEq

/-- An option that takes none. -/
inductive Flag where
  | verbose
  | stdout
  | help
  | version
  deriving DecidableEq

/-- The option or flag with a long name. -/
def long? : List Char → Option (Choice ⊕ Flag)
  | ['b', 'a', 's', 'e'] => some (.inl .base)
  | ['c', 'o', 'n', 'f', 'i', 'g'] => some (.inl .config)
  | ['f', 'i', 'l', 'e', '-', 'n', 'a', 'm', 'e'] => some (.inl .fileName)
  | ['p', 'a', 'd', 'd', 'i', 'n', 'g'] => some (.inl .padding)
  | ['v', 'e', 'r', 'b', 'o', 's', 'e'] => some (.inr .verbose)
  | ['s', 't', 'd', 'o', 'u', 't'] => some (.inr .stdout)
  | ['h', 'e', 'l', 'p'] => some (.inr .help)
  | ['v', 'e', 'r', 's', 'i', 'o', 'n'] => some (.inr .version)
  | _ => none

/-- The option or flag with a letter. -/
def short? : Char → Option (Choice ⊕ Flag)
  | 'b' => some (.inl .base)
  | 'c' => some (.inl .config)
  | 'f' => some (.inl .fileName)
  | 'p' => some (.inl .padding)
  | 'v' => some (.inr .verbose)
  | 'h' => some (.inr .help)
  | 'V' => some (.inr .version)
  | _ => none

/-- Reads decimal digits, of which there must be one at least. -/
def digits? (s : List Char) : Option Nat :=
  if s = [] then none
  else s.foldlM (fun n c => (Text.digit? c).map (n * 10 + ·)) 0

/-- Reads a count: decimal digits, with a plus sign before them or
without. -/
def count? (s : String) : Option Nat :=
  let digits := match s.toList with
    | '+' :: rest => digits? rest
    | s => digits? s
  digits.filter (· ≤ Text.maxCount)

/-- Takes a value as a path. -/
def path (value : String) : Except Usage Path :=
  if value.isEmpty then .error .invalidValue else .ok ⟨value⟩

/-- What was read and waits to be looked at. -/
inductive Pending where
  | nothing
  /-- An option whose value has not been read. -/
  | awaiting (choice : Choice)
  /-- An option with its value. -/
  | value (choice : Choice) (value : String)
  /-- A row of files. -/
  | files (paths : List String)

/-- How far the reading has come. -/
structure Reading where
  arguments : Arguments := {}
  pending : Pending := .nothing

namespace Reading

/-- Whether an option has been given. -/
def has (a : Arguments) : Choice → Bool
  | .base => a.base.isSome
  | .config => a.config.isSome
  | .fileName => a.fileName.isSome
  | .padding => a.padding.isSome

/-- Gives an option its value. -/
def assign (a : Arguments) (choice : Choice) (value : String) : Except Usage Arguments :=
  if has a choice then .error .argumentConflict
  else
    match choice with
    | .base => return { a with base := some (← path value) }
    | .config => return { a with config := some (← path value) }
    | .fileName => return { a with fileName := some value }
    | .padding =>
      match count? value with
      | some n => return { a with padding := some n }
      | none => .error .valueValidation

/-- Looks at what waits. -/
def settle (r : Reading) : Except Usage Arguments :=
  match r.pending with
  | .nothing => return r.arguments
  | .awaiting _ => .error .invalidValue
  | .value choice value => assign r.arguments choice value
  | .files paths => return { r.arguments with files := r.arguments.files ++ (← paths.mapM path) }

/-- Reads an option with a value attached. -/
def attach (r : Reading) (choice : Choice) (value : String) : Except Usage Reading := do
  return { arguments := ← assign (← r.settle) choice value }

/-- Reads an option whose value is to follow. -/
def await (r : Reading) (choice : Choice) : Except Usage Reading := do
  return { arguments := ← r.settle, pending := .awaiting choice }

/-- Reads a flag. -/
def raise (r : Reading) (flag : Flag) : Except Usage Reading := do
  let a ← r.settle
  match flag with
  | .verbose =>
    if a.verbose then .error .argumentConflict else return { arguments := { a with verbose := true } }
  | .stdout =>
    if a.stdout then .error .argumentConflict else return { arguments := { a with stdout := true } }
  | .help => .error .displayHelp
  | .version => .error .displayVersion

/-- Reads a file. -/
def file (r : Reading) (path : String) : Except Usage Reading :=
  match r.pending with
  | .files paths => return { r with pending := .files (paths ++ [path]) }
  | _ => return { arguments := ← r.settle, pending := .files [path] }

/-- Reads an argument that starts with two dashes, after these. -/
def long (r : Reading) (s : List Char) : Except Usage Reading :=
  match long? (s.takeWhile (· ≠ '=')), s.dropWhile (· ≠ '=') with
  | none, _ => .error .unknownArgument
  | some (.inl choice), [] => r.await choice
  | some (.inl choice), _ :: value => r.attach choice (String.ofList value)
  | some (.inr flag), [] => r.raise flag
  | some (.inr _), _ :: _ => .error .tooManyValues

/-- Reads an argument that starts with one dash, after it: flags, and at
most one option, which takes the rest as its value. -/
def short (r : Reading) : List Char → Except Usage Reading
  | [] => return r
  | c :: rest =>
    match short? c with
    | none => .error .unknownArgument
    | some (.inr flag) => do short (← r.raise flag) rest
    | some (.inl choice) =>
      match rest with
      | [] => r.await choice
      | '=' :: value => r.attach choice (String.ofList value)
      | value => r.attach choice (String.ofList value)

/-- Reads an argument that is no option: the value of the option before
it, or a file. -/
def plain (r : Reading) (s : String) : Except Usage Reading :=
  match r.pending with
  | .awaiting choice => return { r with pending := .value choice s }
  | _ => r.file s

/-- Reads the arguments one by one. Behind two dashes alone there are
only files. -/
def all (r : Reading) : List String → Except Usage Reading
  | [] => return r
  | s :: rest =>
    match s.toList with
    | ['-', '-'] => rest.foldlM file r
    | '-' :: '-' :: name => do all (← r.long name) rest
    | '-' :: c :: letters => do all (← r.short (c :: letters)) rest
    | _ => do all (← r.plain s) rest

end Reading

/-- What a command line asks for. -/
def read (args : List String) : Except Usage Arguments := do
  (← Reading.all {} args).settle

end CommandLine

end Marginalia
