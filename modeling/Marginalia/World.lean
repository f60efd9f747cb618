import Marginalia.Disk.Basic
import Marginalia.Host
import Marginalia.Text.Utf8

/-!
# A simulated world

Surroundings for the host that are a value: a disk, a place to work in,
what was printed, and the messages told so far.
-/

namespace Marginalia

/-- All that the host can see and change. -/
structure World where
  disk : Disk
  /-- Where relative paths start. -/
  cwd : Disk.Place
  stdout : String := ""
  printer : Printer := {}

namespace World

/-- The path of the place to work in. -/
def workingDirectory (w : World) : Path :=
  ⟨String.ofList ('/' :: Text.joinWith '/' w.cwd)⟩

/-- The content of the file that a path leads to. -/
def content (w : World) (p : Path) : Except Disk.Fault Content := do
  match ← w.disk.find w.cwd p with
  | .directory => return .placeholder
  | .file bytes => return .buffered bytes

/-- The text of the file that a path leads to. -/
def text (w : World) (p : Path) : Except Disk.Fault String := do
  match ← w.disk.find w.cwd p with
  | .directory => .error .isDirectory
  | .file bytes =>
    match Utf8.decode? bytes with
    | some s => return String.ofList s
    | none => .error .notText

/-- Creates directories. -/
def makeDirectories (w : World) (paths : List Path) : Except Disk.Fault Unit × World :=
  let (result, disk) := Disk.makeDirectories w.cwd paths w.disk
  (result, { w with disk })

/-- Writes a text to a file. -/
def writeText (w : World) (p : Path) (s : String) : Except Disk.Fault Unit × World :=
  match w.disk.write w.cwd p (Utf8.encode s.toList) with
  | .ok disk => (.ok (), { w with disk })
  | .error fault => (.error fault, w)

/-- A world as the surroundings of the host. -/
def surroundings (start : World) : Surroundings (StateM World) where
  workingDirectory := start.workingDirectory
  readContent p := fun w => (w.content p, w)
  readText p := fun w => (w.text p, w)
  makeDirectories paths := fun w => w.makeDirectories paths
  writeText p s := fun w => w.writeText p s
  print s := fun w => ((), { w with stdout := w.stdout ++ s })
  tell m := fun w => ((), { w with printer := w.printer.print m })

/-- The world after the host has carried out a command line in it. -/
def after (w : World) (a : Arguments) : World :=
  ((Host.run w.surroundings a).run w).2

end World

end Marginalia
