import Marginalia.Comment.Enclosed
import Marginalia.Comment.Line
import Marginalia.Proofs.Text.Occurrence
import Mathlib.Data.List.TakeWhile

/-!
# The forms of comments

What a text between delimiters is, and a text to the end of its line,
said without the readers: `Enclosed` and `ToLineEnd` relate what was read
to the text that follows it, since where either ends depends on that.
`readEnclosed_eq_ok_iff` and `readLine_eq_ok_iff` say that the readers
answer with these and nothing else.
-/

namespace Marginalia.Comment

/-- **A text between delimiters.** It ends at the first closing after the
opening; where there is none it goes on to the end of the text. -/
inductive Enclosed (opening closing : List Char) : Span → List Char → Prop
  | closed {body rest : List Char} :
      Text.FirstOccurrence closing body rest →
      Enclosed opening closing ⟨opening, body, closing⟩ rest
  | unclosed {body : List Char} :
      ¬ closing <:+: body → Enclosed opening closing ⟨opening, body, []⟩ []

/-- What ends a line before `rest`: a line feed, alone or after a carriage
return; or nothing, at the end of the text and before a carriage return
without a line feed. -/
inductive LineEnd : List Char → List Char → Prop
  | feed (rest : List Char) : LineEnd ['\n'] rest
  | returnFeed (rest : List Char) : LineEnd ['\r', '\n'] rest
  | endOfText : LineEnd [] []
  | loneReturn {rest : List Char} : rest.head? ≠ some '\n' → LineEnd [] ('\r' :: rest)

/-- A text from its opening to the end of the line. -/
inductive ToLineEnd (opening : List Char) : Span → List Char → Prop
  | mk {body closing rest : List Char} :
      (∀ c ∈ body, c ≠ '\r' ∧ c ≠ '\n') → LineEnd closing rest →
      ToLineEnd opening ⟨opening, body, closing⟩ rest

/-! ## The readers, against the forms -/

/-- **The enclosed texts that are read.** -/
theorem readEnclosed_eq_ok_iff {opening closing s rest : List Char} {span : Span} :
    readEnclosed opening closing s = .ok (span, rest) ↔
      Enclosed opening closing span rest ∧ span.text ++ rest = s := by
  constructor
  · intro h
    refine ⟨?_, (text_append_of_readEnclosed h).2⟩
    unfold readEnclosed at h
    split at h
    · simp at h
    · split at h
      · next hc =>
        obtain ⟨rfl, rfl⟩ := Prod.mk.inj (Except.ok.inj h)
        exact .closed (Text.firstOccurrence_of_cut? hc)
      · next hc =>
        obtain ⟨rfl, rfl⟩ := Prod.mk.inj (Except.ok.inj h)
        exact .unclosed (Text.cut?_eq_none_iff.mp hc)
  · rintro ⟨h, rfl⟩
    cases h with
    | @closed body _ hf =>
      have hc : Text.cut? closing (body ++ closing ++ rest) = some (body, rest) :=
        Text.cut?_eq_some_iff.mpr ⟨rfl, hf⟩
      have hs : Span.text ⟨opening, body, closing⟩ ++ rest =
          opening ++ (body ++ closing ++ rest) := by
        simp [Span.text]
      rw [hs]
      simp only [readEnclosed, Text.after?_append, hc]
    | @unclosed body hn =>
      have hc : Text.cut? closing body = none := Text.cut?_eq_none_iff.mpr hn
      have hs : Span.text ⟨opening, body, []⟩ ++ [] = opening ++ body := by
        simp [Span.text]
      rw [hs]
      simp only [readEnclosed, Text.after?_append, hc]

/-- Something is read wherever the opening stands. -/
theorem exists_readEnclosed {opening s : List Char} (closing : List Char)
    (h : opening <+: s) : ∃ found, readEnclosed opening closing s = .ok found := by
  obtain ⟨inner, rfl⟩ := h
  simp only [readEnclosed, Text.after?_append]
  cases Text.cut? closing inner with
  | none => exact ⟨_, rfl⟩
  | some found => exact ⟨_, rfl⟩

theorem exists_readLine {opening s : List Char} (h : opening <+: s) :
    ∃ found, readLine opening s = .ok found := by
  obtain ⟨inner, rfl⟩ := h
  simp only [readLine, Text.after?_append]
  exact ⟨_, rfl⟩

/-- And nowhere else. -/
theorem prefix_of_enclosed {opening closing rest : List Char} {span : Span}
    (h : Enclosed opening closing span rest) : opening <+: span.text ++ rest := by
  cases h <;> simp [Span.text]

theorem opening_of_enclosed {opening closing rest : List Char} {span : Span}
    (h : Enclosed opening closing span rest) : span.opening = opening := by
  cases h <;> rfl

/-- The ending of a line is taken where it stands. -/
theorem takeLineEnd_of_lineEnd {closing rest : List Char} (h : LineEnd closing rest) :
    takeLineEnd (closing ++ rest) = (closing, rest) := by
  cases h with
  | feed | returnFeed | endOfText => rfl
  | @loneReturn after hh =>
    cases after with
    | nil => rfl
    | cons c after =>
      have hc : c ≠ '\n' := by simpa using hh
      unfold takeLineEnd
      split <;> simp_all

/-- Where a line stops, what is taken from there is its ending. -/
theorem lineEnd_takeLineEnd {s : List Char} (h : ∀ c, s.head? = some c → isLineEnd c = true) :
    LineEnd (takeLineEnd s).1 (takeLineEnd s).2 := by
  unfold takeLineEnd
  split
  · exact .feed _
  · exact .returnFeed _
  · next hfeed hreturn =>
    cases s with
    | nil => exact .endOfText
    | cons c rest =>
      have hc : c = '\r' ∨ c = '\n' := by simpa [isLineEnd] using h c rfl
      rcases hc with rfl | rfl
      · refine .loneReturn ?_
        intro hh
        obtain ⟨after, rfl⟩ : ∃ after, rest = '\n' :: after := by
          cases rest with
          | nil => simp at hh
          | cons d after => exact ⟨after, by simpa using hh⟩
        exact hreturn after rfl
      · exact absurd rfl (hfeed rest)

/-- A character of a line is no line end. -/
theorem isLineEnd_eq_false_iff {c : Char} : isLineEnd c = false ↔ c ≠ '\r' ∧ c ≠ '\n' := by
  simp [isLineEnd]

/-- A line ending starts with a line end, if with anything. -/
theorem isLineEnd_of_lineEnd {closing rest : List Char} (h : LineEnd closing rest) {c : Char}
    (hc : (closing ++ rest).head? = some c) : isLineEnd c = true := by
  cases h with
  | feed | returnFeed | loneReturn =>
    simp only [List.cons_append, List.nil_append, List.head?_cons, Option.some.injEq] at hc
    rw [← hc]
    decide
  | endOfText => simp at hc

/-- **The comments to the end of the line that are read.** -/
theorem readLine_eq_ok_iff {opening s rest : List Char} {span : Span} :
    readLine opening s = .ok (span, rest) ↔
      ToLineEnd opening span rest ∧ span.text ++ rest = s := by
  constructor
  · intro h
    refine ⟨?_, (text_append_of_readLine h).2⟩
    unfold readLine at h
    split at h
    · simp at h
    · next inner _ =>
      obtain ⟨rfl, rfl⟩ := Prod.mk.inj (Except.ok.inj h)
      refine .mk ?_ (lineEnd_takeLineEnd ?_)
      · intro c hc
        have := List.mem_takeWhile_imp hc
        exact isLineEnd_eq_false_iff.mp (by simpa using this)
      · intro c hc
        have := List.head?_dropWhile_not (fun c => !isLineEnd c) inner
        simpa [hc] using this
  · rintro ⟨@⟨body, closing, _, hbody, hend⟩, rfl⟩
    have hs : Span.text ⟨opening, body, closing⟩ ++ rest = opening ++ (body ++ (closing ++ rest)) := by
      simp [Span.text]
    have hall : ∀ c ∈ body, (!isLineEnd c) = true := by
      intro c hc
      simpa using isLineEnd_eq_false_iff.mpr (hbody c hc)
    -- the body has no line end and what follows it starts with one, or is empty
    have htake : (body ++ (closing ++ rest)).takeWhile (!isLineEnd ·) = body := by
      rw [List.takeWhile_append_of_pos hall]
      cases hx : closing ++ rest with
      | nil => simp
      | cons c after =>
        have := isLineEnd_of_lineEnd hend (c := c) (by rw [hx]; rfl)
        simp [this]
    have hdrop : (body ++ (closing ++ rest)).dropWhile (!isLineEnd ·) = closing ++ rest := by
      have hboth := List.takeWhile_append_dropWhile (p := (!isLineEnd ·))
        (l := body ++ (closing ++ rest))
      rw [htake] at hboth
      exact List.append_cancel_left hboth
    rw [hs, readLine, Text.after?_append]
    simp only [takeLine, htake, hdrop, takeLineEnd_of_lineEnd hend]

end Marginalia.Comment
