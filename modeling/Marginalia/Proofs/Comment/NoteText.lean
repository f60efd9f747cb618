import Marginalia.Comment.Extract
import Marginalia.Proofs.Text.Lines
import Mathlib.Data.List.Infix

/-!
# The text of a note

The text of a note is put together from parts of the lines of its
comment, trimmed and with single spaces between them. Trimming only takes
away (`isInfix_trimBorders`), and a line has no line feed, so that a text
has none either (`not_mem_text_of_mem_extract`).
-/

namespace Marginalia

/-! ## What is taken away -/

namespace Text

theorem isInfix_trim (s : List Char) : trim s <:+: s := by
  have hstart : trimStart s <:+ s := List.dropWhile_suffix isBlank
  have hend : trimEnd (trimStart s) <+: trimStart s := by
    rw [← List.reverse_suffix, trimEnd, List.reverse_reverse]
    exact List.dropWhile_suffix isBlank
  exact hend.isInfix.trans hstart.isInfix

theorem isSuffix_dropLeading (piece s : List Char) : dropLeading piece s <:+ s := by
  obtain ⟨n, hn⟩ := exists_append_dropLeading piece s
  exact ⟨_, hn.symm⟩

theorem isPrefix_dropTrailing (piece s : List Char) : dropTrailing piece s <+: s := by
  rw [← List.reverse_suffix, dropTrailing, List.reverse_reverse]
  exact isSuffix_dropLeading piece.reverse s.reverse

/-- What is joined holds the mark and what the pieces hold. -/
theorem mem_joinWith {mark c : Char} {pieces : List (List Char)}
    (h : c ∈ joinWith mark pieces) : c = mark ∨ ∃ piece ∈ pieces, c ∈ piece := by
  induction pieces with
  | nil => simp [joinWith, List.intercalate] at h
  | cons piece pieces ih =>
    cases pieces with
    | nil =>
      rw [joinWith, List.intercalate_singleton] at h
      exact .inr ⟨piece, List.mem_singleton_self piece, h⟩
    | cons second others =>
      rw [joinWith, List.intercalate_cons_cons, List.mem_append, List.mem_append] at h
      rcases h with (h | h) | h
      · exact .inr ⟨piece, List.mem_cons_self, h⟩
      · exact .inl (List.mem_singleton.mp h)
      · rcases ih h with h | ⟨p, hp, hc⟩
        · exact .inl h
        · exact .inr ⟨p, List.mem_cons_of_mem _ hp, hc⟩

end Text

namespace Comment

/-- Steps that each take away leave a part of the text. -/
theorem isInfix_foldl {β : Type} {f : List Char → β → List Char} (hf : ∀ s b, f s b <:+: s)
    (bs : List β) (s : List Char) : bs.foldl f s <:+: s := by
  induction bs generalizing s with
  | nil => exact List.infix_rfl
  | cons b bs ih => exact (ih (f s b)).trans (hf s b)

/-- **Trimming borders leaves a part of the line.** -/
theorem isInfix_trimBorders (borders : List (List Char)) (s : List Char) :
    trimBorders borders s <:+: s := by
  have hstart : ∀ s b, Text.trim (Text.dropLeading b s) <:+: s := fun s b =>
    (Text.isInfix_trim _).trans (Text.isSuffix_dropLeading b s).isInfix
  have hend : ∀ s b, Text.trim (Text.dropTrailing b s) <:+: s := fun s b =>
    (Text.isInfix_trim _).trans (Text.isPrefix_dropTrailing b s).isInfix
  exact ((isInfix_foldl hend borders _).trans (isInfix_foldl hstart borders _)).trans
    (Text.isInfix_trim s)

/-! ## Lines without line feeds -/

theorem not_mem_of_mem_lines {body line : List Char} (h : line ∈ lines body) : '\n' ∉ line := by
  obtain ⟨piece, hp, rfl⟩ := List.mem_map.mp h
  intro hmem
  exact Text.not_mem_of_mem_splitOn hp ((Text.isPrefix_dropTrailing _ _).subset hmem)

/-- Cutting the start off the first piece leaves ends of pieces. -/
theorem exists_suffix_of_mem_modifyHead {pieces : List (List Char)} {m : Nat} {piece : List Char}
    (h : piece ∈ pieces.modifyHead (·.drop m)) : ∃ p ∈ pieces, piece <:+ p := by
  cases pieces with
  | nil => simp at h
  | cons first others =>
    rcases List.mem_cons.mp h with rfl | h
    · exact ⟨first, List.mem_cons_self, List.drop_suffix m first⟩
    · exact ⟨piece, List.mem_cons_of_mem _ h, List.suffix_rfl⟩

/-- An excerpt has no character that the lines do not have. -/
theorem exists_mem_of_mem_excerpt {ls : List (List Char)} {k m l n : Nat} {piece : List Char}
    {c : Char} (h : piece ∈ excerpt ls k m l n) (hc : c ∈ piece) : ∃ line ∈ ls, c ∈ line := by
  obtain ⟨p, hp, hsuffix⟩ := exists_suffix_of_mem_modifyHead h
  have hcp : c ∈ p := hsuffix.subset hc
  rcases List.mem_append.mp (List.mem_of_mem_drop hp) with hp | hp
  · exact ⟨p, List.mem_of_mem_take hp, hcp⟩
  · -- the last line, up to the end of the excerpt
    rw [List.mem_singleton.mp hp, List.getD_eq_getElem?_getD] at hcp
    cases hl : ls[l]? with
    | none => simp [hl] at hcp
    | some line =>
      rw [hl] at hcp
      exact ⟨line, List.mem_of_getElem? hl, List.mem_of_mem_take hcp⟩

theorem not_mem_of_mem_excerptOf {ls : List (List Char)} (hls : ∀ line ∈ ls, '\n' ∉ line)
    {hit : Hit} {next : Option Hit} {piece : List Char} (h : piece ∈ excerptOf ls hit next) :
    '\n' ∉ piece := by
  intro hc
  have hline : ∃ line ∈ ls, '\n' ∈ line := by
    unfold excerptOf at h
    split at h
    · exact exists_mem_of_mem_excerpt h hc
    · exact exists_mem_of_mem_excerpt h hc
  obtain ⟨line, hl, hcl⟩ := hline
  exact hls line hl hcl

/-- What is put on one line is one line. -/
theorem not_mem_unfoldLines {borders ls : List (List Char)} (hls : ∀ line ∈ ls, '\n' ∉ line) :
    '\n' ∉ unfoldLines borders ls := by
  intro h
  rcases Text.mem_joinWith h with h | ⟨piece, hp, hc⟩
  · exact absurd h (by decide)
  · have hp := (List.mem_filter.mp hp).1
    cases ls with
    | nil => simp at hp
    | cons first others =>
      rw [List.forall_mem_cons] at hls
      rcases List.mem_cons.mp hp with rfl | hp
      · exact hls.1 ((Text.isInfix_trim first).subset hc)
      · obtain ⟨line, hl, rfl⟩ := List.mem_map.mp hp
        exact hls.2 line hl ((isInfix_trimBorders borders line).subset hc)

/-- By induction on the tags: the text of each is an excerpt unfolded. -/
theorem not_mem_text_of_mem_notesOf {g : Grammar} {file : String} {firstLine : Nat}
    {ls : List (List Char)} (hls : ∀ line ∈ ls, '\n' ∉ line) {hs : List Hit} {n : Note}
    (h : n ∈ notesOf g file firstLine ls hs) : '\n' ∉ n.text.toList := by
  induction hs with
  | nil => simp [notesOf] at h
  | cons hit rest ih =>
    rw [notesOf] at h
    rcases List.mem_cons.mp h with rfl | h
    · rw [String.toList_ofList]
      exact not_mem_unfoldLines fun piece => not_mem_of_mem_excerptOf hls
    · exact ih h

end Comment

/-- **The text of a note is one line.** -/
theorem not_mem_text_of_mem_extract {g : Grammar} {file : String} {content : List Char} {n : Note}
    (h : n ∈ extract g file content) : '\n' ∉ n.text.toList := by
  obtain ⟨region, -, hn⟩ := List.mem_flatMap.mp h
  exact Comment.not_mem_text_of_mem_notesOf (fun line => Comment.not_mem_of_mem_lines) hn

end Marginalia
