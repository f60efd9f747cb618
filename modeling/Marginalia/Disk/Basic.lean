import Marginalia.Disk.Fault
import Marginalia.Path.Basic
import Marginalia.Text.Utf8

/-!
# The disk

Files and directories, each at its place: the names that lead to it from
the root. A path is walked segment by segment. Every segment is looked
up in a directory, so that a file on the way is a fault, as is a place
that does not exist; where the walk ends there may be anything or
nothing. A path that is too long is refused before the walk, a name that
is too long when the walk comes to it.

Creating a directory and writing a file follow the walk to the directory
above, and differ in what they make of the last segment: a directory may
be named with a slash behind it, a file may not.
-/

namespace Marginalia

namespace Disk

/-- What stands at a place. -/
inductive Entry where
  | file (bytes : List UInt8)
  | directory
  deriving DecidableEq

/-- The names that lead from the root to a place. -/
abbrev Place := List (List Char)

end Disk

/-- What is stored: all that stands anywhere but at the root, which is a
directory. -/
structure Disk where
  entries : List (Disk.Place × Disk.Entry) := []

namespace Disk

/-- What stands at a place. -/
def get? (d : Disk) (place : Place) : Option Entry :=
  if place = [] then some .directory else d.entries.lookup place

/-- Puts an entry at a place, in the stead of what stood there. -/
def set (d : Disk) (place : Place) (entry : Entry) : Disk :=
  ⟨(place, entry) :: d.entries.filter (·.1 ≠ place)⟩

/-- The places above a place, from the root down. -/
def above (place : Place) : List Place :=
  (List.range place.length).map place.take

/-- Puts an entry at a place, with the directories that lead there. -/
def add (d : Disk) (place : Place) (entry : Entry) : Disk :=
  let d := (above place).foldl (fun d p => if (d.get? p).isNone then d.set p .directory else d) d
  if entry = .directory ∧ d.get? place = some .directory then d else d.set place entry

/-! ## Limits -/

/-- The most bytes that a name has. -/
def maxName : Nat := 255

/-- The most bytes that a path has. -/
def maxPath : Nat := 4095

/-- Takes a path for a walk: it is free of NUL and not too long. -/
def accept (p : Path) : Except Fault Unit :=
  if '\x00' ∈ p.spelling.toList then .error .nulInPath
  else if maxPath < (Utf8.encode p.spelling.toList).length then .error .nameTooLong
  else .ok ()

/-- The place that a name stands for in a directory. -/
def child (directory : Place) (name : List Char) : Except Fault Place :=
  if maxName < (Utf8.encode name).length then .error .nameTooLong
  else .ok (directory ++ [name])

/-! ## Walking -/

/-- Goes into a directory. -/
def enter (d : Disk) (place : Place) : Except Fault Unit :=
  match d.get? place with
  | some .directory => .ok ()
  | some (.file _) => .error .notDirectory
  | none => .error .notFound

/-- Follows one segment of a path from a place, which has to be a
directory. -/
def follow (d : Disk) (place : Place) (segment : List Char) : Except Fault Place := do
  d.enter place
  if segment = [] ∨ segment = ['.'] then return place
  else if segment = ['.', '.'] then return place.dropLast
  else child place segment

/-- Where a path starts and the segments to follow from there. The empty
path leads nowhere. -/
def route (cwd : Place) (p : Path) : Except Fault (Place × List (List Char)) := do
  accept p
  match Text.splitOn '/' p.spelling.toList with
  | [[]] => .error .notFound
  | [] :: segments => .ok ([], segments)
  | segments => .ok (cwd, segments)

/-- The place that a path leads to. -/
def locate (d : Disk) (cwd : Place) (p : Path) : Except Fault Place := do
  let (start, segments) ← route cwd p
  segments.foldlM d.follow start

/-- What stands where a path leads to. -/
def find (d : Disk) (cwd : Place) (p : Path) : Except Fault Entry := do
  match d.get? (← d.locate cwd p) with
  | some entry => return entry
  | none => .error .notFound

/-- Whether a path leads to a directory. -/
def isDirectory (d : Disk) (cwd : Place) (p : Path) : Bool :=
  match d.find cwd p with
  | .ok .directory => true
  | _ => false

/-! ## Changing -/

/-- The last segment of a path, after the walk to the directory it
stands in. Slashes behind it do not count as segments; `slashed` tells
whether there are any. -/
structure Target where
  directory : Place
  segment : List Char
  slashed : Bool

/-- Walks to the directory of the last segment of a path. The root has
no last segment. -/
def target (d : Disk) (cwd : Place) (p : Path) : Except Fault (Option Target) := do
  let (start, segments) ← route cwd p
  match segments.reverse.dropWhile (· == []) with
  | [] => return none
  | segment :: before =>
    let directory ← before.reverse.foldlM d.follow start
    d.enter directory
    return some ⟨directory, segment, segments.getLast? == some []⟩

/-- Whether a segment is one or two dots. -/
def isDots (segment : List Char) : Bool :=
  segment == ['.'] || segment == ['.', '.']

/-- Creates a directory where nothing stands. -/
def makeDirectory (d : Disk) (cwd : Place) (p : Path) : Except Fault Disk := do
  match ← d.target cwd p with
  | none => .error .alreadyExists
  | some t =>
    if isDots t.segment then .error .alreadyExists
    else
      let place ← child t.directory t.segment
      if (d.get? place).isSome then .error .alreadyExists
      else return d.set place .directory

/-- Creates the first of the given directories, each of which lies in
the next one, with those that it lies in. What was created stays, also
when a later step fails. -/
def makeDirectories (cwd : Place) : List Path → Disk → Except Fault Unit × Disk
  | [], d => (.ok (), d)
  | p :: outer, d =>
    match d.makeDirectory cwd p with
    | .ok d' => (.ok (), d')
    | .error .notFound =>
      match makeDirectories cwd outer d with
      | (.error fault, d') => (.error fault, d')
      | (.ok (), d') =>
        match d'.makeDirectory cwd p with
        | .ok d'' => (.ok (), d'')
        | .error fault => (if d'.isDirectory cwd p then .ok () else .error fault, d')
    | .error fault => (if d.isDirectory cwd p then .ok () else .error fault, d)

/-- Writes a file, over the one that stands there or as a new one. -/
def write (d : Disk) (cwd : Place) (p : Path) (bytes : List UInt8) : Except Fault Disk := do
  match ← d.target cwd p with
  | none => .error .isDirectory
  | some t =>
    if t.slashed || isDots t.segment then .error .isDirectory
    else
      let place ← child t.directory t.segment
      if d.get? place = some .directory then .error .isDirectory
      else return d.set place (.file bytes)

/-! ## Comparing -/

/-- The spelling of a place seen from a directory above it. -/
def spellFrom (top place : Place) : List Char :=
  Text.joinWith '/' (place.drop top.length)

/-- What stands beneath `top` now and did not stand there before, by its
spelling. -/
def changes (before after : Disk) (top : Place) : List (List Char × Entry) :=
  let changed := after.entries.filter fun (place, entry) =>
    top.isPrefixOf place && before.get? place ≠ some entry
  (changed.map fun (place, entry) => (spellFrom top place, entry)).mergeSort
    fun a b => !(String.ofList b.1 < String.ofList a.1)

end Disk

end Marginalia
