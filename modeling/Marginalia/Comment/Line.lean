import Marginalia.Comment.Span
import Marginalia.Text.Find

/-!
# Comments to the end of the line

A line goes on to the first carriage return or line feed. A line feed,
alone or after a carriage return, ends it and is eaten; a carriage
return without one ends the line as well and stays.
-/

namespace Marginalia.Comment

/-- Whether a character ends a line. -/
def isLineEnd (c : Char) : Bool :=
  c == '\r' || c == '\n'

/-- The line ending at the start of a text, and what follows it. -/
def takeLineEnd : List Char → List Char × List Char
  | '\n' :: rest => (['\n'], rest)
  | '\r' :: '\n' :: rest => (['\r', '\n'], rest)
  | s => ([], s)

/-- The line at the start of a text, closed by its ending, and what
follows. -/
def takeLine (s : List Char) : Span × List Char :=
  let tail := takeLineEnd (s.dropWhile (!isLineEnd ·))
  (⟨[], s.takeWhile (!isLineEnd ·), tail.1⟩, tail.2)

theorem takeLineEnd_append (s : List Char) : (takeLineEnd s).1 ++ (takeLineEnd s).2 = s := by
  unfold takeLineEnd
  split <;> rfl

/-- The line and what follows it are the text. -/
theorem takeLine_append (s : List Char) : (takeLine s).1.text ++ (takeLine s).2 = s := by
  have h := takeLineEnd_append (s.dropWhile (!isLineEnd ·))
  simp only [takeLine, Span.text, List.nil_append, List.append_assoc, h]
  exact List.takeWhile_append_dropWhile

/-- Reads a comment that runs from `opening` to the end of the line. -/
def readLine (opening s : List Char) : Except Mismatch (Span × List Char) :=
  match Text.after? opening s with
  | none => .error ⟨.opening, s⟩
  | some rest =>
    let line := takeLine rest
    .ok (⟨opening, line.1.body, line.1.closing⟩, line.2)

/-- What was read and what follows it are the text. -/
theorem text_append_of_readLine {opening s rest : List Char} {span : Span}
    (h : readLine opening s = .ok (span, rest)) :
    span.opening = opening ∧ span.text ++ rest = s := by
  unfold readLine at h
  split at h
  · simp at h
  · next inner hi =>
    obtain ⟨rfl, rfl⟩ := Prod.mk.inj (Except.ok.inj h)
    have hs := Text.eq_append_of_after? hi
    have hl := takeLine_append inner
    rw [Span.text, show (takeLine inner).1.opening = [] from rfl, List.nil_append,
      List.append_assoc] at hl
    simp only [Span.text, List.append_assoc, hl, hs, and_self]

end Marginalia.Comment
