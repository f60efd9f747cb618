import Marginalia.Report.Group
import Marginalia.Text.Quoted

/-!
# Settings

What can be chosen for one run: where the report goes, how its lines are
spaced and joined, whether each note is announced when it is found, and
two hooks that replace the lines of the report.
-/

namespace Marginalia

/-- A function that writes a line of the report, or fails with a reason. -/
abbrev Hook (α : Type) := α → Except String String

/-- The settings of a run. -/
structure Settings where
  /-- The name of the report, seen from the base of the first file. -/
  fileName : String := "TODO.md"
  /-- How many empty lines stand before a header and after it. -/
  padding : Nat := 2
  /-- What ends each line of the report. -/
  newLine : String := "\n"
  /-- Whether each note is announced when it is found. -/
  verbose : Bool := false
  /-- Writes the line of a note. -/
  noteHook : Option (Hook Note) := none
  /-- Writes the header of a group. -/
  headerHook : Option (Hook Header) := none

namespace Settings

/-- The settings as a log shows them. Of the hooks it is only shown
whether they are there. -/
def describe (s : Settings) : String :=
  "Config \x7b file_name: " ++ Text.quoted s.fileName ++
    ", padding: " ++ toString s.padding ++
    ", new_line: " ++ Text.quoted s.newLine ++
    ", verbose: " ++ toString s.verbose ++
    ", transform_comment: " ++ toString s.noteHook.isSome ++
    ", transform_header: " ++ toString s.headerHook.isSome ++ " \x7d"

end Settings

end Marginalia
