/-!
# Spans

What the readers of comments and literals answer with: a piece of text
divided into what opens it, what it holds and what closes it, together
with the text that follows; or the place where the text did not go on as
it had to.
-/

namespace Marginalia

/-- A piece of text between what opens it and what closes it. -/
structure Span where
  opening : List Char
  body : List Char
  closing : List Char
  deriving DecidableEq

namespace Span

/-- The whole piece as it stands in the text. -/
def text (s : Span) : List Char :=
  s.opening ++ s.body ++ s.closing

end Span

/-- What a reader was looking for. -/
inductive Expected where
  /-- The word or sign that opens what is to be read. -/
  | opening
  /-- A separator, or the end, after a keyword. -/
  | separator
  /-- An apostrophe. -/
  | quote
  /-- A character that may stand between apostrophes. -/
  | character
  deriving DecidableEq

/-- A text that cannot be read: what was expected, and the text from
there on. -/
structure Mismatch where
  expected : Expected
  rest : List Char
  deriving DecidableEq

end Marginalia
