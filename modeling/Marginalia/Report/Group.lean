import Marginalia.Note

/-!
# Notes by file

A report shows the notes of each file together. Groups stand in the
order in which their files first appear, and the notes of a group in the
order in which they were found.
-/

namespace Marginalia

/-- The notes of one file. -/
structure Group where
  file : String
  notes : List Note
  deriving DecidableEq

/-- What is said of a group in its header. -/
structure Header where
  file : String
  /-- How many notes the group holds. -/
  count : Nat
  deriving DecidableEq

namespace Group

/-- The header of a group. -/
def header (g : Group) : Header :=
  ⟨g.file, g.notes.length⟩

/-- Adds a note at the end of its file's group, which is the last one if
the file is new. -/
def insert (n : Note) : List Group → List Group
  | [] => [⟨n.file, [n]⟩]
  | g :: rest =>
    if g.file = n.file then ⟨g.file, g.notes ++ [n]⟩ :: rest else g :: insert n rest

/-- The notes grouped by file. -/
def byFile (notes : List Note) : List Group :=
  notes.foldl (fun groups n => insert n groups) []

end Group

end Marginalia
