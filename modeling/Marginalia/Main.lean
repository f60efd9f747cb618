import Marginalia.Disk.Basic
import Marginalia.Host
import Marginalia.Text.Utf8

/-!
# The program

The host on the real disk: reports go to files or standard output,
messages to standard error.
-/

namespace Marginalia.Program

/-- What the system reports, as a fault of the disk. The number of a
fault may come negated. -/
def faultOf : IO.Error → Disk.Fault
  | .noFileOrDirectory .. => .notFound
  | .alreadyExists .. => .alreadyExists
  | .inappropriateType _ code _ =>
    if code = 20 ∨ code + 20 = 0 then .notDirectory else .isDirectory
  | e@(.invalidArgument _ code _) =>
    if code = 36 ∨ code + 36 = 0 then .nameTooLong else .other (toString e)
  | e => .other (toString e)

/-- An action of the system on a path, whose errors are faults of the
disk. -/
def attempt {α : Type} (p : Path) (act : IO α) : IO (Except Disk.Fault α) := do
  match Disk.accept p with
  | .error fault => return .error fault
  | .ok () =>
    match ← act.toBaseIO with
    | .ok a => return .ok a
    | .error e => return .error (faultOf e)

/-- The content of a file; a directory has none. -/
def readContent (p : Path) : IO Content := do
  let here ← IO.currentDir
  let about ← (here / p.spelling).metadata
  match about.type with
  | .dir => return .placeholder
  | _ => return .buffered (← IO.FS.readBinFile p.spelling).toList

/-- The text of a file. -/
def readText (p : Path) : IO (Except Disk.Fault String) := do
  match ← attempt p (IO.FS.readBinFile p.spelling) with
  | .error fault => return .error fault
  | .ok bytes =>
    match Utf8.decode? bytes.toList with
    | some s => return .ok (String.ofList s)
    | none => return .error .notText

/-- Creates the innermost of the given directories. -/
def makeDirectories : List Path → IO (Except Disk.Fault Unit)
  | [] => return .ok ()
  | p :: _ => attempt p (IO.FS.createDirAll p.spelling)

/-- The host's surroundings on the real disk, with a place to note
whether an error was told. -/
def surroundings (workingDirectory : Path) (failed : IO.Ref Bool) : Surroundings IO where
  workingDirectory
  readContent p := attempt p (readContent p)
  readText := readText
  makeDirectories := makeDirectories
  writeText p s := attempt p (IO.FS.writeFile p.spelling s)
  print s := IO.print s
  tell m := do
    if m.isError then failed.set true
    match m.line? with
    | some line => IO.eprintln line
    | none => pure ()

/-- How the program is called. -/
def help : String :=
  "Usage: marginalia [OPTIONS] [FILES]...\n\n" ++
  "Compiles the TODO and FIXME comments of source files into a report.\n\n" ++
  "  -b, --base <DIR>        directory of the report, and base of the paths it shows\n" ++
  "  -c, --config <FILE>     JSON file with fileName, padding, newLine and verbose\n" ++
  "  -f, --file-name <NAME>  name of the report\n" ++
  "  -p, --padding <COUNT>   empty lines around each header\n" ++
  "  -v, --verbose           announce every note\n" ++
  "      --stdout            print the report instead of writing it\n" ++
  "  -h, --help              print this help\n" ++
  "  -V, --version           print the version"

/-- What is said of a command line that is not carried out. -/
def explain : CommandLine.Usage → String
  | .unknownArgument => "error: unexpected argument"
  | .invalidValue => "error: a value is required"
  | .valueValidation => "error: invalid value"
  | .argumentConflict => "error: an argument cannot be used multiple times"
  | .tooManyValues => "error: unexpected value"
  | .displayHelp => help
  | .displayVersion => "marginalia 0.1.0"

/-- Carries out a command line and answers with the exit status. -/
def run (args : List String) : IO UInt32 := do
  match CommandLine.read args with
  | .error .displayHelp => IO.println (explain .displayHelp); return 0
  | .error .displayVersion => IO.println (explain .displayVersion); return 0
  | .error u => IO.eprintln (explain u); return 2
  | .ok a =>
    let here ← IO.currentDir
    let failed ← IO.mkRef false
    Host.run (surroundings ⟨here.toString⟩ failed) a
    return if ← failed.get then 1 else 0

end Marginalia.Program

def main (args : List String) : IO UInt32 :=
  Marginalia.Program.run args
