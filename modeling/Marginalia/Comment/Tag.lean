import Marginalia.Comment.Span
import Marginalia.Note
import Marginalia.Text.Blank
import Marginalia.Text.Find

/-!
# Tags

A tag is a keyword with its separator. A keyword counts where a colon, a
blank or the end of the line follows it; the separator that goes with it
is a colon between any spaces and tabs, or the spaces and tabs alone.
-/

namespace Marginalia.Comment

/-- Whether a character sets a keyword apart from what follows. -/
def isSeparator (c : Char) : Bool :=
  c == ':' || Text.isBlank c

/-- Whether a character is a space or a tab. -/
def isGap (c : Char) : Bool :=
  c == ' ' || c == '\t'

/-- The text without one colon at its start. -/
def dropColon : List Char → List Char
  | ':' :: rest => rest
  | s => s

/-- The text without the separator at its start. -/
def dropSeparator (s : List Char) : List Char :=
  (dropColon (s.dropWhile isGap)).dropWhile isGap

/-- The keyword that a text starts with, and what follows it. -/
def keyword? (s : List Char) : Option (Keyword × List Char) :=
  Keyword.all.findSome? fun k => (Text.after? k.letters s).map fun rest => (k, rest)

/-- Reads a tag: the keyword, and the text after its separator. -/
def readTag (s : List Char) : Except Mismatch (Keyword × List Char) :=
  match keyword? s with
  | none => .error ⟨.opening, s⟩
  | some (k, rest) =>
    if rest.head?.all isSeparator then .ok (k, dropSeparator rest)
    else .error ⟨.separator, rest⟩

end Marginalia.Comment
