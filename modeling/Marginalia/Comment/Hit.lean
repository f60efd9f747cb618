import Marginalia.Comment.Tag
import Marginalia.Text.Alphanumeric

/-!
# Keywords in the lines of a comment

Where the tags of a comment stand. A tag is sought at every place of a
line that does not follow an identifier character, but not inside the
separator of the tag before it.
-/

namespace Marginalia.Comment

/-- A tag found in the lines of a comment. Offsets count characters of
the line. -/
structure Hit where
  keyword : Keyword
  /-- The line the tag stands on, counted from zero. -/
  line : Nat
  /-- Where the keyword starts. -/
  start : Nat
  /-- Where the text after the separator starts. -/
  textStart : Nat
  deriving DecidableEq

/-- The tags from the offset `pos` of a line on, where `previous` is the
character before that offset and no tag is sought before the offset
`resume`. -/
def hitsFrom (line : Nat) (previous : Option Char) (pos resume : Nat) : List Char → List Hit
  | [] => []
  | c :: rest =>
    if pos < resume || previous.any Text.isIdentChar then
      hitsFrom line (some c) (pos + 1) resume rest
    else
      match readTag (c :: rest) with
      | .ok (k, after) =>
        let textStart := pos + ((c :: rest).length - after.length)
        ⟨k, line, pos, textStart⟩ :: hitsFrom line (some c) (pos + 1) textStart rest
      | .error _ => hitsFrom line (some c) (pos + 1) resume rest

/-- The tags of one line. -/
def hitsOnLine (line : Nat) (text : List Char) : List Hit :=
  hitsFrom line none 0 0 text

/-- The tags of a list of lines, the first of which has the given
number. -/
def hitsFromLine (line : Nat) : List (List Char) → List Hit
  | [] => []
  | text :: rest => hitsOnLine line text ++ hitsFromLine (line + 1) rest

/-- The tags of the lines of a comment, in order. -/
def hits (lines : List (List Char)) : List Hit :=
  hitsFromLine 0 lines

end Marginalia.Comment
