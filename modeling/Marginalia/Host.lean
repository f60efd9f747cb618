import Marginalia.CommandLine
import Marginalia.Path.Ancestors
import Marginalia.Progress.Message
import Marginalia.Settings.Document

/-!
# The host

The host carries out a command line: it reads the settings and the
files, drives a run over them, and writes or prints the report. What it
needs from outside is given as a record of operations, so that the same
code works on a real disk and on a simulated one.
-/

namespace Marginalia

/-- What the host can do outside of itself. -/
structure Surroundings (m : Type → Type) where
  /-- The directory that relative paths start from. -/
  workingDirectory : Path
  /-- The content of a file; a directory has none. -/
  readContent : Path → m (Except Disk.Fault Content)
  /-- The text of a file. -/
  readText : Path → m (Except Disk.Fault String)
  /-- Creates a directory and those that it lies in, innermost first. -/
  makeDirectories : List Path → m (Except Disk.Fault Unit)
  /-- Writes a text to a file. -/
  writeText : Path → String → m (Except Disk.Fault Unit)
  /-- Prints a text. -/
  print : String → m Unit
  /-- Tells the user something. -/
  tell : Message → m Unit

namespace Host

variable {m : Type → Type} [Monad m]

/-- An access to the disk, as a part of the host's work. -/
def onDisk {α : Type} (access : m (Except Disk.Fault α)) : ExceptT Error m α :=
  ExceptT.mk do return (← access).mapError .disk

/-- Tells the events of a call and goes on with its result. -/
def heed {α : Type} (w : Surroundings m) (step : Step α) : ExceptT Error m (Run × α) := do
  for e in step.events do
    w.tell (.event e)
  match step.result with
  | .ok a => return (step.run, a)
  | .error e => throw e

/-- What the command line changes in the settings. -/
def override (a : Arguments) (s : Settings) : Settings :=
  { s with
    fileName := a.fileName.getD s.fileName
    padding := a.padding.getD s.padding
    verbose := s.verbose || a.verbose }

/-- The settings to work with. -/
def settings (w : Surroundings m) (a : Arguments) : ExceptT Error m Settings :=
  match a.config with
  | none => return override a {}
  | some path => do
    let text ← onDisk (w.readText path)
    match Settings.ofText text with
    | .ok s => return override a s
    | .error failure => throw (.badSettings failure)

/-- Reads and submits the files one by one. -/
def submitFiles (w : Surroundings m) (base : Path) (r : Run) : List Path → ExceptT Error m Run
  | [] => return r
  | p :: rest => do
    let path := base.join p
    let content ← onDisk (w.readContent path)
    let (r, ()) ← heed w (r.submit ⟨base, path, content⟩)
    submitFiles w base r rest

/-- Writes the report where it belongs. -/
def writeReport (w : Surroundings m) (report : Artifact) : ExceptT Error m Unit := do
  match report.path.parent? with
  | some parent => onDisk (w.makeDirectories parent.ancestors)
  | none => pure ()
  onDisk (w.writeText report.path report.contents)

/-- Carries out a command line, up to the first error. -/
def work (w : Surroundings m) (a : Arguments) : ExceptT Error m Unit := do
  let s ← settings w a
  w.tell (.starting a.files.length)
  let base := a.base.getD w.workingDirectory
  let r ← submitFiles w base { settings := s } a.files
  let (_, artifact) ← heed w r.finish
  match artifact with
  | none => return
  | some report => if a.stdout then w.print report.contents else writeReport w report

/-- Carries out a command line and tells how it ended. -/
def run (w : Surroundings m) (a : Arguments) : m Unit := do
  match ← (work w a).run with
  | .ok () => w.tell .goodbye
  | .error e => w.tell (.error e)

end Host

end Marginalia
