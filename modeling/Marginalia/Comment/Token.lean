import Marginalia.Comment.Enclosed
import Marginalia.Comment.Line
import Marginalia.Comment.Literal
import Marginalia.Grammar.Basic

/-!
# Tokens of a source text

A source text is divided into comments, literals and single characters
of code. At each point the forms are tried in a fixed order: block
comments, a comment to the end of the line, long strings, character
literals where the grammar has them, strings; where none of them
matches, one character of code is passed over. Every token is at least
one character long, so the division comes to the end of the text, and
the tokens put together are the text.
-/

namespace Marginalia

/-- A piece of a source text. -/
inductive Token where
  /-- A comment between delimiters. -/
  | block (span : Span)
  /-- A comment to the end of its line, closed by the line ending. -/
  | line (span : Span)
  /-- A literal. -/
  | literal (span : Span)
  /-- A character that starts none of these. -/
  | code (c : Char)
  deriving DecidableEq

namespace Token

/-- The token as it stands in the text. -/
def text : Token → List Char
  | block s | line s | literal s => s.text
  | code c => [c]

open Comment

/-- What a reader found, if it found anything. -/
def found? : Except Mismatch (Span × List Char) → Option (Span × List Char)
  | .ok found => some found
  | .error _ => none

theorem eq_ok_of_found? {r : Except Mismatch (Span × List Char)} {found : Span × List Char}
    (h : found? r = some found) : r = .ok found := by
  cases r with
  | ok a => exact congrArg _ (Option.some.inj h)
  | error _ => simp [found?] at h

/-- The comment that a text starts with. -/
def comment? (g : Grammar) (s : List Char) : Option (Token × List Char) :=
  match g.blocks.findSome? fun d => found? (readEnclosed d.opening d.closing s) with
  | some (span, rest) => some (block span, rest)
  | none =>
    match g.lineOpening?.bind fun opening => found? (readLine opening s) with
    | some (span, rest) => some (line span, rest)
    | none => none

/-- The literal between two quotes that a text starts with. -/
def quoted? (g : Grammar) : List Char → Option (Span × List Char)
  | [] => none
  | c :: rest =>
    if g.charLiterals && c == '\'' then found? (readChar (c :: rest))
    else if g.quotes.contains c then found? (readString c (g.spansLines c) (c :: rest))
    else none

/-- The literal that a text starts with. -/
def literal? (g : Grammar) (s : List Char) : Option (Token × List Char) :=
  match g.longStrings.findSome? fun d => found? (readEnclosed d d s) with
  | some (span, rest) => some (literal span, rest)
  | none =>
    match quoted? g s with
    | some (span, rest) => some (literal span, rest)
    | none => none

/-- The first token of the text `c :: rest`, and what follows it. -/
def first (g : Grammar) (c : Char) (rest : List Char) : Token × List Char :=
  match comment? g (c :: rest) with
  | some found => found
  | none =>
    match literal? g (c :: rest) with
    | some found => found
    | none => (code c, rest)

/-! ## Nothing is lost -/

/-- A span with something to open it is not empty. -/
theorem text_ne_nil {span : Span} {opening : List Char} (ho : span.opening = opening)
    (hne : opening ≠ []) : span.text ≠ [] := by
  simp [Span.text, ho, hne]

/-- A comment and what follows it are the text. -/
theorem text_append_of_comment? {g : Grammar} {s rest : List Char} {t : Token}
    (h : comment? g s = some (t, rest)) : t.text ++ rest = s ∧ t.text ≠ [] := by
  unfold comment? at h
  split at h
  · next span rest' hb =>
    obtain ⟨rfl, rfl⟩ := Prod.mk.inj (Option.some.inj h)
    obtain ⟨d, hd, hr⟩ := List.exists_of_findSome?_eq_some hb
    obtain ⟨ho, hs⟩ := text_append_of_readEnclosed (eq_ok_of_found? hr)
    exact ⟨hs, text_ne_nil ho (Grammar.opening_ne_nil_of_mem_blocks hd)⟩
  · split at h
    · next span rest' hl =>
      obtain ⟨rfl, rfl⟩ := Prod.mk.inj (Option.some.inj h)
      obtain ⟨opening, hg, hr⟩ := Option.bind_eq_some_iff.mp hl
      obtain ⟨ho, hs⟩ := text_append_of_readLine (eq_ok_of_found? hr)
      exact ⟨hs, text_ne_nil ho (Grammar.ne_nil_of_lineOpening? hg)⟩
    · simp at h

/-- A literal between two quotes and what follows it are the text. -/
theorem text_append_of_quoted? {g : Grammar} {s rest : List Char} {span : Span}
    (h : quoted? g s = some (span, rest)) : span.text ++ rest = s ∧ span.text ≠ [] := by
  unfold quoted? at h
  split at h
  · simp at h
  · split at h
    · obtain ⟨ho, hs⟩ := text_append_of_readChar (eq_ok_of_found? h)
      exact ⟨hs, text_ne_nil ho (by simp)⟩
    · split at h
      · obtain ⟨ho, hs⟩ := text_append_of_readString (eq_ok_of_found? h)
        exact ⟨hs, text_ne_nil ho (by simp)⟩
      · simp at h

/-- A literal and what follows it are the text. -/
theorem text_append_of_literal? {g : Grammar} {s rest : List Char} {t : Token}
    (h : literal? g s = some (t, rest)) : t.text ++ rest = s ∧ t.text ≠ [] := by
  unfold literal? at h
  split at h
  · next span rest' hl =>
    obtain ⟨rfl, rfl⟩ := Prod.mk.inj (Option.some.inj h)
    obtain ⟨d, hd, hr⟩ := List.exists_of_findSome?_eq_some hl
    obtain ⟨ho, hs⟩ := text_append_of_readEnclosed (eq_ok_of_found? hr)
    exact ⟨hs, text_ne_nil ho (Grammar.ne_nil_of_mem_longStrings hd)⟩
  · split at h
    · next span rest' hq =>
      obtain ⟨rfl, rfl⟩ := Prod.mk.inj (Option.some.inj h)
      exact text_append_of_quoted? hq
    · simp at h

/-- **Nothing is lost.** The first token and what follows it are the
text. -/
theorem first_append (g : Grammar) (c : Char) (rest : List Char) :
    (first g c rest).1.text ++ (first g c rest).2 = c :: rest := by
  unfold first
  split
  · next found h => exact (text_append_of_comment? h).1
  · split
    · next found h => exact (text_append_of_literal? h).1
    · rfl

/-- No token is empty. -/
theorem text_first_ne_nil (g : Grammar) (c : Char) (rest : List Char) :
    (first g c rest).1.text ≠ [] := by
  unfold first
  split
  · next found h => exact (text_append_of_comment? h).2
  · split
    · next found h => exact (text_append_of_literal? h).2
    · simp [text]

/-- What follows a token is shorter than the text. -/
theorem length_first_lt (g : Grammar) (c : Char) (rest : List Char) :
    (first g c rest).2.length < (c :: rest).length := by
  have h := congrArg List.length (first_append g c rest)
  have := List.length_pos_iff.mpr (text_first_ne_nil g c rest)
  rw [List.length_append] at h
  omega

/-! ## The division -/

/-- The tokens of a text, after those in `done`, which are in reverse. -/
def divideOnto (g : Grammar) (done : List Token) : List Char → List Token
  | [] => done.reverse
  | c :: rest => divideOnto g ((first g c rest).1 :: done) (first g c rest).2
termination_by s => s.length
decreasing_by exact length_first_lt g c rest

/-- The tokens of a text. -/
def divide (g : Grammar) (s : List Char) : List Token :=
  divideOnto g [] s

end Token

end Marginalia
