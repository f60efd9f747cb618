import Marginalia.Comment.Border
import Marginalia.Comment.Hit
import Marginalia.Comment.Region

/-!
# Notes of a source text

Every tag in a comment is a note. Its text runs from the separator to
the next tag of the same comment, or to the end of the comment; it is
read line by line, trimmed, and put on one line with single spaces
between the parts that are not empty.
-/

namespace Marginalia

namespace Comment

/-- The lines of a comment, without carriage returns at their ends. -/
def lines (body : List Char) : List (List Char) :=
  (Text.splitOn '\n' body).map (Text.dropTrailing ['\r'])

/-- The part of a list of lines from one place to another. -/
def excerpt (lines : List (List Char)) (fromLine fromOffset toLine toOffset : Nat) :
    List (List Char) :=
  let upTo := lines.take toLine ++ [(lines.getD toLine []).take toOffset]
  (upTo.drop fromLine).modifyHead (·.drop fromOffset)

/-- The part of the lines that belongs to a tag, `next` being the tag
after it. -/
def excerptOf (lines : List (List Char)) (hit : Hit) (next : Option Hit) : List (List Char) :=
  match next with
  | some n => excerpt lines hit.line hit.textStart n.line n.start
  | none =>
    excerpt lines hit.line hit.textStart (lines.length - 1) (lines.getLast?.getD []).length

/-- The lines of a text put on one: the first is trimmed of blanks, the
others of borders as well, and what is left of them stands between
single spaces. -/
def unfoldLines (borders : List (List Char)) (lines : List (List Char)) : List Char :=
  let trimmed := match lines with
    | [] => []
    | first :: others => Text.trim first :: others.map (trimBorders borders)
  Text.joinWith ' ' (trimmed.filter (!·.isEmpty))

/-- The notes of the given tags. -/
def notesOf (g : Grammar) (file : String) (firstLine : Nat) (lines : List (List Char)) :
    List Hit → List Note
  | [] => []
  | hit :: rest =>
    let text := unfoldLines g.borders (excerptOf lines hit rest.head?)
    ⟨hit.keyword, String.ofList text, file, firstLine + hit.line⟩ ::
      notesOf g file firstLine lines rest

/-- The notes of one comment, in order. -/
def notes (g : Grammar) (file : String) (region : Region) : List Note :=
  notesOf g file region.line (lines region.body) (hits (lines region.body))

end Comment

/-- The notes of a source text, in the order in which they stand there. -/
def extract (g : Grammar) (file : String) (content : List Char) : List Note :=
  (Region.all g content).flatMap (Comment.notes g file)

end Marginalia
