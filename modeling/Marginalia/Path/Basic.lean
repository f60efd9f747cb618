import Marginalia.Text.Find

/-!
# Paths

A path is kept as it was spelled and read as a list of components. The
slashes divide it into segments; a segment that is empty or a single dot
counts for nothing, except that a leading slash is the root and a
leading dot is a component of its own. So `parts` splits off how the
path starts, and what remains is a list of segments of which only some
are components.

Operations that shorten a path keep the spelling of what they leave:
only the segments that count for nothing at its ends are lost.
-/

namespace Marginalia

/-- A path, as it was spelled. -/
structure Path where
  spelling : String
  deriving DecidableEq

namespace Path

/-- One step of a path. -/
inductive Component where
  /-- The leading slash. -/
  | root
  /-- The leading dot. -/
  | current
  /-- Two dots: the directory above. -/
  | parent
  /-- A name in a directory. -/
  | name (letters : List Char)
  deriving DecidableEq

/-- The component that a segment other than the first stands for, if it
counts. -/
def Component.ofSegment? (segment : List Char) : Option Component :=
  if segment = [] ∨ segment = ['.'] then none
  else if segment = ['.', '.'] then some parent
  else some (name segment)

/-- How a path starts. -/
inductive Anchor where
  | root
  | current
  | relative
  deriving DecidableEq

/-- The component that the start of a path stands for. -/
def Anchor.components : Anchor → List Component
  | root => [.root]
  | current => [.current]
  | relative => []

/-- A path taken apart at its slashes. -/
structure Parts where
  anchor : Anchor
  segments : List (List Char)

/-- Takes a path apart. -/
def parts (p : Path) : Parts :=
  match Text.splitOn '/' p.spelling.toList with
  | [] :: segment :: segments => ⟨.root, segment :: segments⟩
  | ['.'] :: segments => ⟨.current, segments⟩
  | segments => ⟨.relative, segments⟩

namespace Parts

/-- The components of a path taken apart. -/
def components (q : Parts) : List Component :=
  q.anchor.components ++ q.segments.filterMap Component.ofSegment?

/-- The path that has these parts. -/
def toPath (q : Parts) : Path :=
  match q.anchor with
  | .root => ⟨String.ofList ('/' :: Text.joinWith '/' q.segments)⟩
  | .current => ⟨String.ofList (Text.joinWith '/' (['.'] :: q.segments))⟩
  | .relative => ⟨String.ofList (Text.joinWith '/' q.segments)⟩

end Parts

/-- The components of a path. -/
def components (p : Path) : List Component :=
  p.parts.components

/-- Whether a segment counts for nothing. -/
def isIdle (segment : List Char) : Bool :=
  (Component.ofSegment? segment).isNone

/-- The segments without the idle ones at the end. -/
def dropIdleEnd (segments : List (List Char)) : List (List Char) :=
  (segments.reverse.dropWhile isIdle).reverse

/-- Whether a path starts at the root. -/
def isAbsolute (p : Path) : Bool :=
  p.spelling.toList.head? == some '/'

/-- The path `p` seen from the directory `base`. An absolute path stays
what it is. -/
def join (base p : Path) : Path :=
  if p.isAbsolute then p
  else if base.spelling.toList = [] ∨ base.spelling.toList.getLast? = some '/' then
    ⟨base.spelling ++ p.spelling⟩
  else
    ⟨base.spelling ++ "/" ++ p.spelling⟩

/-- The segments after those that spell the given components, if they
start with them. -/
def dropComponents : List Component → List (List Char) → Option (List (List Char))
  | [], segments => some segments
  | _ :: _, [] => none
  | c :: cs, segment :: segments =>
    match Component.ofSegment? segment with
    | none => dropComponents (c :: cs) segments
    | some d => if c = d then dropComponents cs segments else none

/-- What is left of a path after the components of `base`, if it starts
with them. -/
def after? (base p : Path) : Option Path :=
  match base.components, p.parts with
  | [], q => some (Parts.toPath ⟨q.anchor, dropIdleEnd q.segments⟩)
  | c :: cs, q =>
    let left := match q.anchor.components with
      | [] => dropComponents (c :: cs) q.segments
      | a :: _ => if c = a then dropComponents cs q.segments else none
    left.map fun segments => Parts.toPath ⟨.relative, dropIdleEnd (segments.dropWhile isIdle)⟩

/-- How a path is shown to a reader in `base`: without the components of
`base`, or as it was given when it does not lie beneath. -/
def relativeTo (p base : Path) : Path :=
  (after? base p).getD p

/-- The extension of the last name of a path: what follows its last dot,
unless that dot starts the name. -/
def extension? (p : Path) : Option (List Char) :=
  match p.components.getLast? with
  | some (.name letters) =>
    match letters.reverse.dropWhile (· ≠ '.') with
    | _ :: _ :: _ => some (letters.reverse.takeWhile (· ≠ '.')).reverse
    | _ => none
  | _ => none

/-- The path without its last component; none for the root and for the
empty path. -/
def parent? (p : Path) : Option Path :=
  match p.parts, dropIdleEnd p.parts.segments with
  | ⟨.root, _⟩, [] => none
  | ⟨.relative, _⟩, [] => none
  | ⟨.current, _⟩, [] => some ⟨""⟩
  | ⟨anchor, _⟩, segments => some (Parts.toPath ⟨anchor, dropIdleEnd segments.dropLast⟩)

end Path

end Marginalia
