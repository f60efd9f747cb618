import Marginalia.Note

/-!
# Collections

The notes found so far in a batch, in the order in which their files
were submitted. Nothing is dropped or merged.
-/

namespace Marginalia

/-- The notes found so far. -/
structure Collection where
  notes : List Note := []
  deriving DecidableEq

namespace Collection

/-- Adds the notes of one more file at the end. -/
def append (c : Collection) (notes : List Note) : Collection :=
  ⟨c.notes ++ notes⟩

/-- How many notes there are. -/
def size (c : Collection) : Nat :=
  c.notes.length

/-- Whether there are none. -/
def isEmpty (c : Collection) : Bool :=
  c.notes.isEmpty

/-- How many different files have a note. -/
def fileCount (c : Collection) : Nat :=
  (c.notes.map (·.file)).eraseDups.length

end Collection

end Marginalia
