import Marginalia.Error
import Marginalia.Report.Group
import Marginalia.Settings.Basic

/-!
# The report

A report is a title and the groups of its notes: empty lines, the header
of the group, as many empty lines, and a line for each note. Every line
is ended alike. A hook of the settings may write the headers and another
the lines of the notes; the first of them to fail, in the order of the
lines, ends the rendering and nothing of the report is left.
-/

namespace Marginalia.Report

/-- The first line of every report. -/
def title : String := "# TODOs"

/-- The header of a group where no hook writes it. -/
def defaultHeader (h : Header) : String :=
  "### " ++ h.file

/-- The line of a note where no hook writes it. -/
def defaultEntry (n : Note) : String :=
  let place := "- " ++ n.keyword.name ++ " (line " ++ toString n.line ++ ")"
  if n.text.isEmpty then place else place ++ ": " ++ n.text

/-- The header line of a group. -/
def headerLine (s : Settings) (h : Header) : Except Error String :=
  match s.headerHook with
  | none => .ok (defaultHeader h)
  | some hook => (hook h).mapError (.hookFailed .header)

/-- The line of a note. -/
def entryLine (s : Settings) (n : Note) : Except Error String :=
  match s.noteHook with
  | none => .ok (defaultEntry n)
  | some hook => (hook n).mapError (.hookFailed .note)

/-- The lines of a group. -/
def groupLines (s : Settings) (g : Group) : Except Error (List String) := do
  let header ← headerLine s g.header
  let entries ← g.notes.mapM (entryLine s)
  let pad := List.replicate s.padding ""
  return pad ++ [header] ++ pad ++ entries

/-- The report on the given notes. -/
def render (s : Settings) (notes : List Note) : Except Error String := do
  let groups ← (Group.byFile notes).mapM (groupLines s)
  return String.join ((title :: groups.flatten).map (· ++ s.newLine))

end Marginalia.Report
