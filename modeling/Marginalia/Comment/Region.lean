import Marginalia.Comment.Token

/-!
# Comments of a source text

The comments among the tokens of a text, each with the line it starts
on: one more than the line feeds in the tokens before it.
-/

namespace Marginalia

/-- What a comment holds, without its delimiters. -/
structure Region where
  body : List Char
  /-- The line the comment starts on, counted from one. -/
  line : Nat
  /-- Whether it is a block comment. -/
  block : Bool
  deriving DecidableEq

namespace Region

/-- The comments among the tokens of a text that starts on the given
line. -/
def ofTokens (line : Nat) : List Token → List Region
  | [] => []
  | t :: rest =>
    let next := line + t.text.count '\n'
    match t with
    | .block span => ⟨span.body, line, true⟩ :: ofTokens next rest
    | .line span => ⟨span.body, line, false⟩ :: ofTokens next rest
    | .literal _ | .code _ => ofTokens next rest

/-- The comments of a text, in order. -/
def all (g : Grammar) (content : List Char) : List Region :=
  ofTokens 1 (Token.divide g content)

end Region

end Marginalia
