import Marginalia.Comment.Span
import Marginalia.Text.Digit
import Marginalia.Text.Find

/-!
# Literals

String literals between two equal quotes, where a backslash hides the
character after it, and character literals between apostrophes. Both are
read only so that the scanner can pass over them: a comment delimiter
inside a literal opens nothing.
-/

namespace Marginalia.Comment

open Text (isHexDigit)

/-! ## Strings -/

/-- The offset of the quote that closes a string, in what follows the
opening quote. `escaped` says that a backslash stands right before the
text, and `n` is the offset the text starts at. Unless the string may
span lines, a line feed that is not escaped leaves it open. -/
def closingQuote (quote : Char) (spans : Bool) (escaped : Bool) (n : Nat) : List Char → Option Nat
  | [] => none
  | c :: rest =>
    if escaped then closingQuote quote spans false (n + 1) rest
    else if c = '\\' then closingQuote quote spans true (n + 1) rest
    else if c = quote then some n
    else if c = '\n' && !spans then none
    else closingQuote quote spans false (n + 1) rest

/-- The quote stands at the offset found. -/
theorem drop_of_closingQuote {quote : Char} {spans escaped : Bool} {k n : Nat} {s : List Char}
    (h : closingQuote quote spans escaped k s = some n) :
    k ≤ n ∧ s.drop (n - k) = quote :: s.drop (n - k + 1) := by
  induction s generalizing k escaped with
  | nil => simp [closingQuote] at h
  | cons c s ih =>
    have step {e : Bool} (h : closingQuote quote spans e (k + 1) s = some n) :
        k ≤ n ∧ (c :: s).drop (n - k) = quote :: (c :: s).drop (n - k + 1) := by
      obtain ⟨hk, hd⟩ := ih h
      rw [show n - k = (n - (k + 1)) + 1 by omega]
      exact ⟨by omega, by simpa using hd⟩
    unfold closingQuote at h
    split at h
    · exact step h
    · split at h
      · exact step h
      · split at h
        · next hq => exact ⟨by simp_all, by simp_all⟩
        · split at h
          · simp at h
          · exact step h

/-- Reads a string literal in the given quotes. A text that does not
start with one is left alone. -/
def readString (quote : Char) (spans : Bool) (s : List Char) :
    Except Mismatch (Span × List Char) :=
  match s with
  | [] => .error ⟨.quote, s⟩
  | c :: inner =>
    if c = quote then
      match closingQuote quote spans false 0 inner with
      | some n => .ok (⟨[quote], inner.take n, [quote]⟩, inner.drop (n + 1))
      | none => .error ⟨.quote, s⟩
    else
      .error ⟨.quote, s⟩

/-- What was read and what follows it are the text. -/
theorem text_append_of_readString {quote : Char} {spans : Bool} {s rest : List Char} {span : Span}
    (h : readString quote spans s = .ok (span, rest)) :
    span.opening = [quote] ∧ span.text ++ rest = s := by
  unfold readString at h
  split at h
  · simp at h
  · next c inner =>
    split at h
    · next hc =>
      split at h
      · next n hn =>
        obtain ⟨rfl, rfl⟩ := Prod.mk.inj (Except.ok.inj h)
        have hd := (drop_of_closingQuote hn).2
        rw [Nat.sub_zero] at hd
        simp only [Span.text, List.cons_append, List.nil_append, List.append_assoc, true_and]
        rw [hc, ← hd, List.take_append_drop]
      · simp at h
    · simp at h

/-! ## Single characters -/

/-- How many characters after a backslash an escape by code point takes:
the letter u and one or more hexadecimal digits in braces. -/
def codePointEscape? (s : List Char) : Option Nat :=
  match s with
  | 'u' :: '\x7b' :: digits =>
    match digits.takeWhile isHexDigit, digits.dropWhile isHexDigit with
    | d :: ds, '\x7d' :: _ => some ((d :: ds).length + 3)
    | _, _ => none
  | _ => none

/-- How many characters after a backslash an escape by byte takes: the
letter x and one or more hexadecimal digits. -/
def byteEscape? (s : List Char) : Option Nat :=
  match s with
  | 'x' :: digits =>
    match digits.takeWhile isHexDigit with
    | [] => none
    | ds => some (ds.length + 1)
  | _ => none

/-- How many characters after a backslash an escape takes: the longer
forms where they match, and else any one character. -/
def escape? (s : List Char) : Option Nat :=
  match codePointEscape? s, byteEscape? s, s with
  | some n, _, _ => some n
  | none, some n, _ => some n
  | none, none, _ :: _ => some 1
  | none, none, [] => none

/-- How many characters the one thing between two apostrophes takes: an
escape, or a character that is no backslash, apostrophe or line feed. -/
def charSize? : List Char → Option Nat
  | [] => none
  | c :: rest =>
    if c = '\\' then (escape? rest).map (· + 1)
    else if c = '\'' || c = '\n' then none
    else some 1

/-- Reads a character literal. -/
def readChar (s : List Char) : Except Mismatch (Span × List Char) :=
  match s with
  | '\'' :: inner =>
    match charSize? inner with
    | none => .error ⟨.character, inner⟩
    | some n =>
      match inner.drop n with
      | '\'' :: rest => .ok (⟨['\''], inner.take n, ['\'']⟩, rest)
      | rest => .error ⟨.quote, rest⟩
  | _ => .error ⟨.quote, s⟩

/-- What was read and what follows it are the text. -/
theorem text_append_of_readChar {s rest : List Char} {span : Span}
    (h : readChar s = .ok (span, rest)) :
    span.opening = ['\''] ∧ span.text ++ rest = s := by
  unfold readChar at h
  split at h
  · next inner =>
    split at h
    · simp at h
    · next n hn =>
      split at h
      · next rest' hr =>
        obtain ⟨rfl, rfl⟩ := Prod.mk.inj (Except.ok.inj h)
        simp only [Span.text, List.cons_append, List.nil_append, List.append_assoc, true_and]
        rw [← hr, List.take_append_drop]
      · simp at h
  · simp at h

end Marginalia.Comment
