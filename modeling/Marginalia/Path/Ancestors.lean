import Marginalia.Path.Basic

/-!
# The directories that a path lies in

The path itself and every directory above it, innermost first, as far as
they have a spelling: a path from the root goes up to the root, one from
a leading dot up to the dot, and the empty path is left out.
-/

namespace Marginalia.Path

/-- The paths with the given start and the segments up to each
component, the segments being in reverse. -/
def ancestorsFrom (anchor : Anchor) : List (List Char) → List Path
  | [] => if anchor = .relative then [] else [Parts.toPath ⟨anchor, []⟩]
  | segment :: before =>
    if isIdle segment then ancestorsFrom anchor before
    else Parts.toPath ⟨anchor, (segment :: before).reverse⟩ :: ancestorsFrom anchor before

/-- The path and the directories it lies in, innermost first. -/
def ancestors (p : Path) : List Path :=
  ancestorsFrom p.parts.anchor p.parts.segments.reverse

end Marginalia.Path
