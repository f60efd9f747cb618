/-!
# Notes

A note is a remark that someone left in the margin of a source file: a
comment marked by one of two keywords. It keeps the keyword, what was
said, and where it stands.
-/

namespace Marginalia

/-- The word that marks a comment as a note. -/
inductive Keyword where
  | todo
  | fixme
  deriving DecidableEq

namespace Keyword

/-- Every keyword, in the order in which they are tried. -/
def all : List Keyword := [todo, fixme]

/-- The letters of a keyword; capitals only match capitals. -/
def letters : Keyword → List Char
  | todo => ['T', 'O', 'D', 'O']
  | fixme => ['F', 'I', 'X', 'M', 'E']

/-- The keyword as it is written in a report. -/
def name (k : Keyword) : String :=
  String.ofList k.letters

end Keyword

/-- One marked comment of a source file. -/
structure Note where
  /-- The keyword that marks it. -/
  keyword : Keyword
  /-- What follows the keyword and its separator, on one line. -/
  text : String
  /-- The path of the file, as the report shows it. -/
  file : String
  /-- The line of the keyword, counted from one. -/
  line : Nat
  deriving DecidableEq

end Marginalia
