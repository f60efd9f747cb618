import Marginalia.Collection
import Marginalia.Comment.Extract
import Marginalia.Grammar.Registry
import Marginalia.Report.Render
import Marginalia.Text.Utf8

/-!
# Runs

A run takes a batch of files one by one and ends in a report or in none.
Each file is read with the grammar of its extension and its notes are
collected; the end of the batch renders what was collected. An error
closes the run, and so does its end: a closed run answers every further
call with the stage it is in and changes no more.

Every operation answers with a `Step`: the run after it, the result of
the call, and the events that happened on the way.
-/

namespace Marginalia

/-- What is known of the content of a file. -/
inductive Content where
  /-- All of its bytes. -/
  | buffered (bytes : List UInt8)
  /-- The content is still arriving. -/
  | streamed
  /-- There is no content at all, as for a directory. -/
  | placeholder
  deriving DecidableEq

/-- A file handed to a run. -/
structure SourceFile where
  /-- The directory that the report is shown from. -/
  base : Path
  path : Path
  content : Content
  deriving DecidableEq

namespace SourceFile

/-- How the report names the file. -/
def shown (f : SourceFile) : String :=
  (f.path.relativeTo f.base).spelling

/-- The notes of a file with the given bytes, read with a grammar. -/
def notes (f : SourceFile) (g : Grammar) (bytes : List UInt8) : List Note :=
  extract g f.shown (Utf8.decodeLossy bytes)

end SourceFile

/-- A finished report. -/
structure Artifact where
  base : Path
  relativePath : Path
  contents : String
  deriving DecidableEq

/-- Where the report belongs. -/
def Artifact.path (a : Artifact) : Path :=
  a.base.join a.relativePath

/-- What can be heard of a run while it goes on. -/
inductive Event where
  /-- A note was found; told only if the settings ask for it. -/
  | found (note : Note)
  /-- A placeholder was passed over. -/
  | skipped (path : String)
  /-- The report was rendered. -/
  | rendered (files notes : Nat)
  /-- The run ended with nothing to report. -/
  | noReport
  deriving DecidableEq

/-- A batch of files being worked on. -/
structure Run where
  settings : Settings
  stage : Stage := .idle
  /-- The base of the first file that was read. -/
  firstBase : Option Path := none
  collected : Collection := {}

/-- What a call does: the run after it, its result, and what was heard
during it. -/
structure Step (α : Type) where
  run : Run
  result : Except Error α
  events : List Event := []

namespace Run

/-- The notes found so far. -/
def notes (r : Run) : List Note :=
  r.collected.notes

/-- The events of finding the given notes. -/
def announce (s : Settings) (notes : List Note) : List Event :=
  if s.verbose then notes.map .found else []

/-- Takes in a file that the run is open for. -/
def accept (r : Run) (f : SourceFile) : Step Unit :=
  match f.content with
  | .placeholder => { run := r, result := .ok (), events := [.skipped f.path.spelling] }
  | .streamed => { run := r, result := .error (.streamingNotSupported f.path.spelling) }
  | .buffered bytes =>
    let extension := f.path.extension
    match Registry.builtin.resolve extension with
    | none => { run := r, result := .error (.unsupportedExtension f.path.spelling extension) }
    | some g =>
      let notes := f.notes g bytes
      { run :=
          { r with
            firstBase := r.firstBase.or (some f.base)
            collected := r.collected.append notes }
        result := .ok ()
        events := announce r.settings notes }

/-- Submits one file. An error closes the run for good. -/
def submit (r : Run) (f : SourceFile) : Step Unit :=
  if r.stage.isOpen then
    let step := accept { r with stage := .collecting } f
    match step.result with
    | .ok () => step
    | .error _ => { step with run := { step.run with stage := .errored } }
  else
    { run := r, result := .error (.runClosed r.stage) }

/-- Works on the end of the batch: renders the report, if there is a
base for it and a note in it. -/
def conclude (r : Run) : Step (Option Artifact) :=
  match r.firstBase, r.collected.isEmpty with
  | some base, false =>
    match Report.render r.settings r.notes with
    | .error e => { run := { r with stage := .errored }, result := .error e }
    | .ok contents =>
      { run := { r with stage := .done }
        result := .ok (some ⟨base, ⟨r.settings.fileName⟩, contents⟩)
        events := [.rendered r.collected.fileCount r.collected.size] }
  | _, _ => { run := { r with stage := .done }, result := .ok none, events := [.noReport] }

/-- Signals the end of the batch. The result is the report, or none when
no note was found. -/
def finish (r : Run) : Step (Option Artifact) :=
  if r.stage.isOpen then
    conclude { r with stage := .finalizing }
  else
    { run := r, result := .error (.runClosed r.stage) }

/-- Submits the files in order, up to the first error. -/
def submitAll (r : Run) : List SourceFile → Step Unit
  | [] => { run := r, result := .ok () }
  | f :: rest =>
    let step := r.submit f
    match step.result with
    | .error _ => step
    | .ok () =>
      let later := submitAll step.run rest
      { later with events := step.events ++ later.events }

/-- Works on a whole batch: all its files, then the end. -/
def batch (s : Settings) (files : List SourceFile) : Step (Option Artifact) :=
  let step := submitAll { settings := s } files
  match step.result with
  | .error e => { run := step.run, result := .error e, events := step.events }
  | .ok () =>
    let last := step.run.finish
    { last with events := step.events ++ last.events }

end Run

/-- Who listens to a run. -/
inductive Listener where
  /-- Hears every event. -/
  | all
  /-- Hears of notes only. -/
  | notes
  /-- Hears nothing. -/
  | none
  deriving DecidableEq

/-- Whether a listener hears of an event. -/
def Listener.hears : Listener → Event → Bool
  | all, _ => true
  | notes, .found _ => true
  | notes, _ => false
  | none, _ => false

end Marginalia
