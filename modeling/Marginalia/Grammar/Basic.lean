/-!
# Comment grammars

A grammar is a family of languages that write comments and literals
alike. It says what opens a comment that runs to the end of the line,
what encloses a comment that may span lines, which ornaments such a
comment draws along its lines, and which literals have to be passed over
because a comment delimiter inside them means nothing.
-/

namespace Marginalia

/-- What encloses a comment. -/
structure Delimiters where
  opening : List Char
  closing : List Char
  deriving DecidableEq

/-- A family of languages with the same comments and literals. -/
inductive Grammar where
  /-- Slashes to the end of the line, and slash-star blocks. -/
  | cStyle
  /-- As `cStyle`, with apostrophes around single characters only. -/
  | rust
  /-- Slash-star blocks only. -/
  | css
  /-- A hash to the end of the line. -/
  | hash
  /-- A hash to the end of the line, and triple-quoted strings. -/
  | python
  /-- A hash to the end of the line, and blocks between words. -/
  | ruby
  /-- A hash to the end of the line, and blocks between three hashes. -/
  | coffee
  /-- Two dashes to the end of the line. -/
  | doubleDash
  /-- Two dashes to the end of the line, and brace-dash blocks. -/
  | haskell
  /-- Two dashes to the end of the line, and blocks in doubled brackets. -/
  | lua
  /-- Blocks between angle brackets only. -/
  | markup
  /-- Slashes to the end of the line. -/
  | jade
  /-- Blocks in doubled braces only, in a long and a short form. -/
  | handlebars
  deriving DecidableEq

namespace Grammar

/-- What starts a comment that runs to the end of the line. -/
def lineOpening? : Grammar → Option (List Char)
  | cStyle | rust | jade => some ['/', '/']
  | hash | python | ruby | coffee => some ['#']
  | doubleDash | haskell | lua => some ['-', '-']
  | css | markup | handlebars => none

/-- Something opens every comment to the end of the line. -/
theorem ne_nil_of_lineOpening? {g : Grammar} {o : List Char} (h : g.lineOpening? = some o) :
    o ≠ [] := by
  rintro rfl
  cases g <;> simp [lineOpening?] at h

/-- What encloses a block comment, in the order in which the forms are
tried: of two openings that start alike the longer comes first. -/
def blocks : Grammar → List Delimiters
  | cStyle | rust | css => [⟨['/', '*'], ['*', '/']⟩]
  | ruby => [⟨['=', 'b', 'e', 'g', 'i', 'n'], ['=', 'e', 'n', 'd']⟩]
  | coffee => [⟨['#', '#', '#'], ['#', '#', '#']⟩]
  | haskell => [⟨['\x7b', '-'], ['-', '\x7d']⟩]
  | lua => [⟨['-', '-', '[', '['], [']', ']']⟩]
  | markup => [⟨['<', '!', '-', '-'], ['-', '-', '>']⟩]
  | handlebars => [
      ⟨['\x7b', '\x7b', '!', '-', '-'], ['-', '-', '\x7d', '\x7d']⟩,
      ⟨['\x7b', '\x7b', '!'], ['\x7d', '\x7d']⟩]
  | hash | python | doubleDash | jade => []

/-- Something opens every block comment. -/
theorem opening_ne_nil_of_mem_blocks {g : Grammar} {d : Delimiters} (h : d ∈ g.blocks) :
    d.opening ≠ [] := by
  have all : ∀ g : Grammar, g.blocks.all (·.opening ≠ []) := by
    intro g
    cases g <;> rfl
  simpa using List.all_eq_true.mp (all g) d h

/-- The ornaments that the lines of a block comment may carry at either
end. -/
def borders : Grammar → List (List Char)
  | cStyle | rust | css => [['*']]
  | haskell => [['|']]
  | _ => []

/-- The characters that open a string literal, which the same character
closes. -/
def quotes : Grammar → List Char
  | cStyle => ['"', '\'', '\x60']
  | css | hash | python | ruby | coffee | lua => ['"', '\'']
  | doubleDash => ['\'']
  | rust | haskell | jade => ['"']
  | markup | handlebars => []

/-- The delimiters of string literals that may span lines and know no
escapes. They are tried before the quotes. -/
def longStrings : Grammar → List (List Char)
  | python => [['"', '"', '"'], ['\'', '\'', '\'']]
  | _ => []

/-- Something delimits every long string. -/
theorem ne_nil_of_mem_longStrings {g : Grammar} {d : List Char} (h : d ∈ g.longStrings) :
    d ≠ [] := by
  have all : ∀ g : Grammar, g.longStrings.all (· ≠ []) := by
    intro g
    cases g <;> rfl
  simpa using List.all_eq_true.mp (all g) d h

/-- Whether an apostrophe opens a single character, and is plain code
where none follows. -/
def charLiterals : Grammar → Bool
  | rust => true
  | _ => false

/-- Whether a string literal opened by `quote` may span lines. One that
may not, and is open at the end of its line, is no literal at all. -/
def spansLines (g : Grammar) (quote : Char) : Bool :=
  quote == '\x60' || g == rust

end Grammar

end Marginalia
