import Marginalia.Text.Blank
import Marginalia.Text.Find

/-!
# Borders

The lines of a block comment often carry an ornament, such as a star at
the start of each. Trimming a line removes blanks and such borders from
both ends: each border in turn from the start, as often as it stands
there, then each from the end, with the blanks around them.
-/

namespace Marginalia.Comment

/-- The line without the blanks and the borders at its ends. -/
def trimBorders (borders : List (List Char)) (s : List Char) : List Char :=
  let fromStart := borders.foldl (fun s b => Text.trim (Text.dropLeading b s)) (Text.trim s)
  borders.foldl (fun s b => Text.trim (Text.dropTrailing b s)) fromStart

end Marginalia.Comment
