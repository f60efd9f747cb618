import Marginalia.Comment.Span
import Marginalia.Text.Find

/-!
# Enclosed text

Block comments and long strings: everything from an opening to the first
closing after it. One that is never closed runs to the end of the text.
-/

namespace Marginalia.Comment

/-- Reads a text enclosed in the given delimiters. -/
def readEnclosed (opening closing s : List Char) : Except Mismatch (Span × List Char) :=
  match Text.after? opening s with
  | none => .error ⟨.opening, s⟩
  | some inner =>
    match Text.cut? closing inner with
    | some (body, rest) => .ok (⟨opening, body, closing⟩, rest)
    | none => .ok (⟨opening, inner, []⟩, [])

/-- What was read and what follows it are the text. -/
theorem text_append_of_readEnclosed {opening closing s rest : List Char} {span : Span}
    (h : readEnclosed opening closing s = .ok (span, rest)) :
    span.opening = opening ∧ span.text ++ rest = s := by
  unfold readEnclosed at h
  split at h
  · simp at h
  · next inner hi =>
    have hs := Text.eq_append_of_after? hi
    split at h
    · next body rest' hc =>
      obtain ⟨rfl, rfl⟩ := Prod.mk.inj (Except.ok.inj h)
      simp [Span.text, hs, Text.eq_append_of_cut? hc]
    · obtain ⟨rfl, rfl⟩ := Prod.mk.inj (Except.ok.inj h)
      simp [Span.text, hs]

end Marginalia.Comment
