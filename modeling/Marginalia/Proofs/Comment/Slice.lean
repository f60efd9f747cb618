import Marginalia.Proofs.Comment.Mark
import Marginalia.Proofs.Comment.NoteText
import Marginalia.Proofs.Text.Blank
import Mathlib.Data.List.Forall2

/-!
# The slice of a note

A note is told by its comment line by line: by the line and the offset
where its text starts and where the next tag stands, with the carriage
returns at the ends of the lines left out. Here its text is read off the
body as one text. `sliceOf` cuts the body from the end of a mark to the
start of the next one, and `notes_eq_notesAt` says that the slice, split
at its line feeds, is what the text of the note is put together from.

The slices leave nothing out. A body is a preamble and then, for each
whole keyword in it, the keyword with its separator and its slice
(`Passages`).
-/

namespace Marginalia.Comment

open Text (Blank Trimmed isBlank)

/-! ## Lines with blanks behind them -/

/-- The line `y` is `x` with blanks behind it. -/
def Padded (x y : List Char) : Prop :=
  ∃ w, Blank w ∧ y = x ++ w

theorem Padded.refl (x : List Char) : Padded x x :=
  ⟨[], Text.blank_nil, (List.append_nil x).symm⟩

theorem Padded.drop {x y : List Char} (h : Padded x y) (n : Nat) :
    Padded (x.drop n) (y.drop n) := by
  obtain ⟨w, hw, rfl⟩ := h
  refine ⟨w.drop (n - x.length), hw.of_suffix (List.drop_suffix _ w), ?_⟩
  rw [List.drop_append]

theorem Padded.trim_eq {x y : List Char} (h : Padded x y) : Text.trim y = Text.trim x := by
  obtain ⟨w, hw, rfl⟩ := h
  exact Text.trim_append hw x

theorem Padded.trimBorders_eq {x y : List Char} (h : Padded x y) (borders : List (List Char)) :
    trimBorders borders y = trimBorders borders x := by
  simp only [trimBorders, h.trim_eq]

/-- **Blanks behind its lines do not matter for a text.** -/
theorem unfoldLines_congr {borders xs ys : List (List Char)} (h : List.Forall₂ Padded xs ys) :
    unfoldLines borders xs = unfoldLines borders ys := by
  cases h with
  | nil => rfl
  | @cons x y xs ys hxy hrest =>
    have hothers : xs.map (trimBorders borders) = ys.map (trimBorders borders) := by
      induction hrest with
      | nil => rfl
      | cons hab _ ih => rw [List.map_cons, List.map_cons, ih, hab.trimBorders_eq]
    simp only [unfoldLines, hxy.trim_eq, hothers]

/-- The lines of a comment are those of its body without some blanks. -/
theorem forall₂_padded_lines (body : List Char) :
    List.Forall₂ Padded (lines body) (Text.splitOn '\n' body) := by
  rw [lines, List.forall₂_map_left_iff, List.forall₂_same]
  intro piece _
  exact Text.exists_dropTrailing_append_blank piece

theorem forall₂_padded_modifyHead {xs ys : List (List Char)} (h : List.Forall₂ Padded xs ys)
    (n : Nat) : List.Forall₂ Padded (xs.modifyHead (·.drop n)) (ys.modifyHead (·.drop n)) := by
  cases h with
  | nil => exact .nil
  | cons hxy hrest => exact .cons (hxy.drop n) hrest

/-! ## The order of hits -/

/-- A hit whose tag ends where the next one starts, or before it. -/
def Hit.Before (h n : Hit) : Prop :=
  h.line < n.line ∨ h.line = n.line ∧ h.textStart ≤ n.start

/-- **Marks do not overlap**: a tag ends before the next one. -/
theorem pairwise_textStart_marksFrom (previous : Option Char) (pos : Nat) (s : List Char) :
    (marksFrom previous pos s).Pairwise (·.textStart ≤ ·.start) := by
  induction s generalizing previous pos with
  | nil => exact .nil
  | cons c s ih =>
    unfold marksFrom
    split
    · next k size htag =>
      refine List.pairwise_cons.mpr ⟨?_, ih _ _⟩
      intro n hn
      obtain ⟨p, after, hafter⟩ := marksFrom_tag htag pos
      rw [hafter] at hn
      exact le_start_of_mem_marksFrom hn
    · exact ih _ _

theorem pairwise_hitsFromLine (line : Nat) (texts : List (List Char)) :
    (hitsFromLine line texts).Pairwise Hit.Before := by
  induction texts generalizing line with
  | nil => exact .nil
  | cons text texts ih =>
    rw [hitsFromLine, hitsOnLine_eq, List.pairwise_append]
    refine ⟨?_, ih _, ?_⟩
    · rw [List.pairwise_map]
      exact (pairwise_textStart_marksFrom none 0 text).imp fun hle => .inr ⟨rfl, hle⟩
    · intro h hh n hn
      obtain ⟨m, -, rfl⟩ := List.mem_map.mp hh
      obtain ⟨_, _, hle, -⟩ := exists_of_mem_hitsFromLine hn
      exact .inl hle

/-- Where a hit stands: on a line of the comment, and within it. -/
theorem exists_line_of_mem_hits {ls : List (List Char)} {h : Hit} (hm : h ∈ hits ls) :
    ∃ line, ls[h.line]? = some line ∧ h.start < h.textStart ∧ h.textStart ≤ line.length := by
  obtain ⟨line, m, -, hline, hmark, heq⟩ := exists_of_mem_hitsFromLine hm
  obtain ⟨hlt, hle⟩ := bounds_of_mem_marksFrom hmark
  have hstart : h.start = m.start := by rw [heq]; rfl
  have htext : h.textStart = m.textStart := by rw [heq]; rfl
  exact ⟨line, hline, by omega, by omega⟩

/-- A hit in the body, whose line may have carriage returns more. -/
theorem exists_piece_of_mem_hits {body : List Char} {h : Hit} (hm : h ∈ hits (lines body)) :
    ∃ piece, (Text.splitOn '\n' body)[h.line]? = some piece ∧
      (lines body)[h.line]? = some (Text.dropTrailing ['\r'] piece) ∧
      h.start ≤ (Text.dropTrailing ['\r'] piece).length ∧ h.textStart ≤ piece.length := by
  obtain ⟨line, hline, hlt, htext⟩ := exists_line_of_mem_hits hm
  have hraw := hline
  rw [lines, List.getElem?_map, Option.map_eq_some_iff] at hraw
  obtain ⟨piece, hpiece, rfl⟩ := hraw
  have hle := (Text.isPrefix_dropTrailing ['\r'] piece).length_le
  exact ⟨piece, hpiece, hline, by omega, by omega⟩

/-! ## Slices -/

/-- What belongs to a mark: the body from the end of its separator to the
next mark, or to the end. -/
def sliceOf (body : List Char) (m : Mark) (next : Option Mark) : List Char :=
  match next with
  | some n => (body.take n.start).drop m.textStart
  | none => body.drop m.textStart

/-- The notes of the given marks of a body that starts on the given line. -/
def notesAt (g : Grammar) (file : String) (line : Nat) (body : List Char) : List Mark → List Note
  | [] => []
  | m :: rest =>
    let text := unfoldLines g.borders (Text.splitOn '\n' (sliceOf body m rest.head?))
    ⟨m.keyword, String.ofList text, file, line + (body.take m.start).count '\n'⟩ ::
      notesAt g file line body rest

/-- Up to the end of the last line an excerpt is all that is left. -/
theorem excerptOf_none {ls : List (List Char)} (hne : ls ≠ []) (h : Hit) :
    excerptOf ls h none = (ls.drop h.line).modifyHead (·.drop h.textStart) := by
  have hlen : ls.length - 1 < ls.length := by
    have := List.length_pos_iff.mpr hne
    omega
  have hlast : ls.getD (ls.length - 1) [] = ls.getLast hne := by
    rw [List.getD_eq_getElem?_getD, List.getElem?_eq_getElem hlen, Option.getD_some,
      List.getLast_eq_getElem]
  have hupTo : ls.take (ls.length - 1) ++
      [(ls.getD (ls.length - 1) []).take (ls.getLast?.getD []).length] = ls := by
    rw [hlast, List.getLast?_eq_some_getLast hne, Option.getD_some, List.take_length,
      ← List.dropLast_eq_take, List.dropLast_append_getLast]
  simp only [excerptOf, excerpt, hupTo]

/-- The lines of a slice to the next mark. -/
theorem splitOn_sliceOf_some {body piece piece' : List Char} {h n : Hit}
    (hpiece : (Text.splitOn '\n' body)[h.line]? = some piece)
    (htext : h.textStart ≤ piece.length)
    (hpiece' : (Text.splitOn '\n' body)[n.line]? = some piece')
    (hstart : n.start ≤ piece'.length) (hbefore : h.Before n) :
    Text.splitOn '\n' (sliceOf body (h.toMark (Text.splitOn '\n' body))
        (some (n.toMark (Text.splitOn '\n' body)))) =
      (((Text.splitOn '\n' body).take n.line ++ [piece'.take n.start]).drop h.line).modifyHead
        (·.drop h.textStart) := by
  have hlt : n.line < (Text.splitOn '\n' body).length :=
    (List.getElem?_eq_some_iff.mp hpiece').1
  have hcut := Text.splitOn_take_place body hpiece' hstart
  have hle : h.line ≤ n.line := by
    rcases hbefore with hlt | ⟨heq, -⟩ <;> omega
  -- the line of the first hit is there after the cut, as far as it is needed
  obtain ⟨left, hleft, hlen⟩ : ∃ left,
      ((Text.splitOn '\n' body).take n.line ++ [piece'.take n.start])[h.line]? = some left ∧
        h.textStart ≤ left.length := by
    rcases hbefore with hline | ⟨hline, htexts⟩
    · refine ⟨piece, ?_, htext⟩
      rw [List.getElem?_append_left (by rw [List.length_take]; omega),
        List.getElem?_take_of_lt hline, hpiece]
    · refine ⟨piece'.take n.start, ?_, by rw [List.length_take]; omega⟩
      rw [List.getElem?_append_right (by rw [List.length_take]; omega), List.length_take,
        Nat.min_eq_left hlt.le, hline, Nat.sub_self]
      rfl
  have hplace := Text.place_take_append hle hlt.le [piece'.take n.start] h.textStart
  rw [← hcut] at hleft
  have hdrop := Text.splitOn_drop_place _ hleft hlen
  rw [hcut, hplace] at hdrop
  exact hdrop

/-- **An excerpt of the lines is a slice of the body**, but for blanks at
the ends of its lines. -/
theorem forall₂_padded_excerptOf {body : List Char} {h : Hit} {next : Option Hit}
    (hh : h ∈ hits (lines body)) (hn : ∀ n ∈ next, n ∈ hits (lines body) ∧ h.Before n) :
    List.Forall₂ Padded (excerptOf (lines body) h next)
      (Text.splitOn '\n' (sliceOf body (h.toMark (Text.splitOn '\n' body))
        (next.map (Hit.toMark (Text.splitOn '\n' body))))) := by
  obtain ⟨piece, hpiece, hline, -, htext⟩ := exists_piece_of_mem_hits hh
  have hpadded := forall₂_padded_lines body
  cases next with
  | none =>
    have hne : lines body ≠ [] := by
      intro hnil
      rw [hnil] at hline
      simp at hline
    rw [excerptOf_none hne, Option.map_none, sliceOf, Hit.toMark,
      Text.splitOn_drop_place body hpiece htext]
    exact forall₂_padded_modifyHead (List.forall₂_drop h.line hpadded) h.textStart
  | some n =>
    obtain ⟨hn, hbefore⟩ := hn n rfl
    obtain ⟨piece', hpiece', hline', hstart', -⟩ := exists_piece_of_mem_hits hn
    have hprefix := Text.isPrefix_dropTrailing ['\r'] piece'
    have hle := hprefix.length_le
    -- the next hit stands before the carriage returns of its line
    have hlast : ((lines body).getD n.line []).take n.start = piece'.take n.start := by
      obtain ⟨t, ht⟩ := hprefix
      rw [List.getD_eq_getElem?_getD, hline', Option.getD_some]
      conv_rhs => rw [← ht, List.take_append_of_le_length hstart']
    rw [Option.map_some,
      splitOn_sliceOf_some hpiece htext hpiece' (by omega) hbefore, excerptOf, excerpt]
    refine forall₂_padded_modifyHead (List.forall₂_drop h.line ?_) h.textStart
    rw [hlast]
    exact List.rel_append (List.forall₂_take n.line hpadded) (.cons (.refl _) .nil)

/-- By induction on the hits: the text of each is put together from its
slice. -/
theorem notesOf_eq_notesAt {body : List Char} {hs : List Hit}
    (hmem : ∀ h ∈ hs, h ∈ hits (lines body)) (hsorted : hs.Pairwise Hit.Before) (g : Grammar)
    (file : String) (line : Nat) :
    notesOf g file line (lines body) hs =
      notesAt g file line body (hs.map (Hit.toMark (Text.splitOn '\n' body))) := by
  induction hs with
  | nil => rfl
  | cons h rest ih =>
    rw [List.forall_mem_cons] at hmem
    rw [List.pairwise_cons] at hsorted
    have hnext : ∀ n ∈ rest.head?, n ∈ hits (lines body) ∧ h.Before n := by
      intro n hn
      have hrest : n ∈ rest := List.mem_of_mem_head? hn
      exact ⟨hmem.2 n hrest, hsorted.1 n hrest⟩
    rw [notesOf, List.map_cons, notesAt, ih hmem.2 hsorted.2, List.head?_map,
      unfoldLines_congr (forall₂_padded_excerptOf hmem.1 hnext), count_take_start hmem.1]
    rfl

/-- **The notes of a comment, by the slices of its body.** -/
theorem notes_eq_notesAt (g : Grammar) (file : String) (r : Region) :
    notes g file r = notesAt g file r.line r.body (marks r.body) := by
  rw [notes, marks_eq_map_hits]
  exact notesOf_eq_notesAt (fun h hh => hh) (pairwise_hitsFromLine 0 (lines r.body)) g file r.line

/-! ## Trimmed texts -/

/-- A text that is put together from trimmed parts is trimmed. -/
theorem trimmed_joinWith {mark : Char} {pieces : List (List Char)}
    (h : ∀ piece ∈ pieces, piece ≠ [] ∧ Trimmed piece) : Trimmed (Text.joinWith mark pieces) := by
  induction pieces with
  | nil => exact Text.trimmed_nil
  | cons piece pieces ih =>
    rw [List.forall_mem_cons] at h
    obtain ⟨⟨hne, htrimmed⟩, hothers⟩ := h
    cases pieces with
    | nil =>
      rw [Text.joinWith, List.intercalate_singleton]
      exact htrimmed
    | cons second others =>
      have ih := ih hothers
      -- something is left of the others, so that they hold the end
      have hrest : Text.joinWith mark (second :: others) ≠ [] := by
        intro hnil
        have hsecond := (hothers second List.mem_cons_self).1
        cases others with
        | nil =>
          rw [Text.joinWith, List.intercalate_singleton] at hnil
          exact hsecond hnil
        | cons third others =>
          rw [Text.joinWith, List.intercalate_cons_cons] at hnil
          simp at hnil
      have hjoin : Text.joinWith mark (piece :: second :: others) =
          piece ++ ([mark] ++ Text.joinWith mark (second :: others)) := by
        rw [Text.joinWith, List.intercalate_cons_cons, List.append_assoc, Text.joinWith]
      rw [hjoin]
      refine ⟨?_, ?_⟩
      · intro c hc
        rw [List.head?_append_of_ne_nil _ hne] at hc
        exact htrimmed.head c hc
      · intro c hc
        rw [List.getLast?_append_of_ne_nil _ (by simp), List.getLast?_append_of_ne_nil _ hrest]
          at hc
        exact ih.last c hc

/-- Whatever is taken off a trimmed text step by step, with a trimming
after each, a trimmed text is left. -/
theorem trimmed_foldl_trim {f : List Char → List Char → List Char} (bs : List (List Char))
    {s : List Char} (h : Trimmed s) : Trimmed (bs.foldl (fun s b => Text.trim (f b s)) s) := by
  induction bs generalizing s with
  | nil => exact h
  | cons b bs ih => exact ih (Text.trimmed_trim (f b s))

theorem trimmed_trimBorders (borders : List (List Char)) (s : List Char) :
    Trimmed (trimBorders borders s) :=
  trimmed_foldl_trim borders (trimmed_foldl_trim borders (Text.trimmed_trim s))

/-- **Lines put on one have no blanks at the ends.** -/
theorem trimmed_unfoldLines (borders ls : List (List Char)) : Trimmed (unfoldLines borders ls) := by
  refine trimmed_joinWith ?_
  intro piece hp
  obtain ⟨hmem, hne⟩ := List.mem_filter.mp hp
  refine ⟨by simpa using hne, ?_⟩
  cases ls with
  | nil => simp at hmem
  | cons first others =>
    rcases List.mem_cons.mp hmem with rfl | hmem
    · exact Text.trimmed_trim first
    · obtain ⟨line, -, rfl⟩ := List.mem_map.mp hmem
      exact trimmed_trimBorders borders line

/-! ## Passages -/

/-- **A separator before `rest`**: spaces and tabs, then a colon with spaces
and tabs after it or none, each as far as it goes. -/
inductive Separates : List Char → List Char → Prop
  | gap {gap rest : List Char} :
      (∀ c ∈ gap, isGap c = true) →
      (∀ c, rest.head? = some c → isGap c = false ∧ c ≠ ':') → Separates gap rest
  | colon {before after rest : List Char} :
      (∀ c ∈ before, isGap c = true) → (∀ c ∈ after, isGap c = true) →
      (∀ c, rest.head? = some c → isGap c = false) → Separates (before ++ ':' :: after) rest

theorem isGap_of_head?_dropWhile {s : List Char} {c : Char}
    (h : (s.dropWhile isGap).head? = some c) : isGap c = false := by
  have hnot := List.head?_dropWhile_not isGap s
  rw [h] at hnot
  simpa using hnot

/-- What is dropped after a keyword is its separator. -/
theorem exists_separates_dropSeparator (s : List Char) :
    ∃ separator, s = separator ++ dropSeparator s ∧ Separates separator (dropSeparator s) := by
  have hs : s = s.takeWhile isGap ++ s.dropWhile isGap := List.takeWhile_append_dropWhile.symm
  have hgap : ∀ c ∈ s.takeWhile isGap, isGap c = true := fun c hc => List.mem_takeWhile_imp hc
  cases hx : s.dropWhile isGap with
  | nil =>
    have hdrop : dropSeparator s = [] := by simp [dropSeparator, hx, dropColon]
    refine ⟨s.takeWhile isGap, ?_, .gap hgap ?_⟩
    · rw [hdrop, List.append_nil]
      rwa [hx, List.append_nil] at hs
    · simp [hdrop]
  | cons c x =>
    have hc : isGap c = false := isGap_of_head?_dropWhile (s := s) (by rw [hx]; rfl)
    by_cases hcolon : c = ':'
    · subst hcolon
      have hdrop : dropSeparator s = x.dropWhile isGap := by simp [dropSeparator, hx, dropColon]
      refine ⟨s.takeWhile isGap ++ ':' :: x.takeWhile isGap, ?_, .colon hgap ?_ ?_⟩
      · rw [hdrop, List.append_assoc, List.cons_append, List.takeWhile_append_dropWhile, ← hx]
        exact hs
      · exact fun d hd => List.mem_takeWhile_imp hd
      · intro d hd
        rw [hdrop] at hd
        exact isGap_of_head?_dropWhile hd
    · have hdrop : dropSeparator s = c :: x := by
        rw [dropSeparator, hx, dropColon_cons_of_ne hcolon,
          List.dropWhile_cons_of_neg (by simp [hc])]
      refine ⟨s.takeWhile isGap, ?_, .gap hgap ?_⟩
      · rw [hdrop, ← hx]
        exact hs
      · intro d hd
        rw [hdrop] at hd
        obtain rfl : c = d := by simpa using hd
        exact ⟨hc, hcolon⟩

/-- At a mark stand its keyword and a separator, and then the text. -/
theorem exists_separator_of_mem_marksFrom {previous : Option Char} {pos : Nat} {s : List Char}
    {m : Mark} (h : m ∈ marksFrom previous pos s) :
    ∃ separator,
      s.drop (m.start - pos) =
        m.keyword.letters ++ (separator ++ s.drop (m.textStart - pos)) ∧
      Separates separator (s.drop (m.textStart - pos)) := by
  induction s generalizing previous pos with
  | nil => simp [marksFrom] at h
  | cons c s ih =>
    have later (h : m ∈ marksFrom (some c) (pos + 1) s) :
        ∃ separator,
          (c :: s).drop (m.start - pos) =
            m.keyword.letters ++ (separator ++ (c :: s).drop (m.textStart - pos)) ∧
          Separates separator ((c :: s).drop (m.textStart - pos)) := by
      have hle := le_start_of_mem_marksFrom h
      have hlt := (bounds_of_mem_marksFrom h).1
      rw [show m.start - pos = m.start - (pos + 1) + 1 by omega,
        show m.textStart - pos = m.textStart - (pos + 1) + 1 by omega, List.drop_succ_cons,
        List.drop_succ_cons]
      exact ih h
    unfold marksFrom at h
    split at h
    · next k size htag =>
      rcases List.mem_cons.mp h with rfl | h
      · obtain ⟨-, rest, hs, -, hsize⟩ := tag?_eq_some_iff.mp htag
        obtain ⟨separator, hrest, hsep⟩ := exists_separates_dropSeparator rest
        have hsplit : c :: s = (k.letters ++ separator) ++ dropSeparator rest := by
          rw [hs, List.append_assoc, ← hrest]
        have hlen : size = (k.letters ++ separator).length := by
          have := congrArg List.length hsplit
          rw [List.length_append] at this
          omega
        have hdrop : (c :: s).drop (pos + size - pos) = dropSeparator rest := by
          rw [Nat.add_sub_cancel_left, hlen, hsplit, List.drop_left]
        refine ⟨separator, ?_, ?_⟩
        · simp only [hdrop, Nat.sub_self, List.drop_zero]
          rw [hsplit, List.append_assoc]
        · simp only [hdrop]
          exact hsep
      · exact later h
    · exact later h

/-- A keyword in a comment, its separator, and what belongs to it. -/
structure Passage where
  keyword : Keyword
  separator : List Char
  slice : List Char

/-- A passage as it stands in the comment. -/
def Passage.text (p : Passage) : List Char :=
  p.keyword.letters ++ (p.separator ++ p.slice)

/-- **A body divided into passages.** -/
structure Passages (body preamble : List Char) (ps : List Passage) : Prop where
  /-- Nothing is left out and nothing is counted twice. -/
  text_eq : body = preamble ++ ps.flatMap Passage.text
  /-- The keywords of the passages are the whole keywords of the body. -/
  keyword_iff : ∀ k before,
    (∃ after, body = before ++ k.letters ++ after ∧ Whole before after) ↔
      ∃ earlier p later, ps = earlier ++ p :: later ∧ p.keyword = k ∧
        before = preamble ++ earlier.flatMap Passage.text
  /-- Each separator goes as far as it can. -/
  separates : ∀ earlier p later, ps = earlier ++ p :: later →
    Separates p.separator (p.slice ++ later.flatMap Passage.text)

/-- Where the first of the given marks stands, or the end of the body. -/
def startOf (body : List Char) (ms : List Mark) : Nat :=
  (ms.head?.map Mark.start).getD body.length

/-- The passages of the given marks. -/
def passagesAt (body : List Char) : List Mark → List Passage
  | [] => []
  | m :: rest =>
    ⟨m.keyword, (body.take m.textStart).drop (m.start + m.keyword.letters.length),
      sliceOf body m rest.head?⟩ :: passagesAt body rest

section Marks

variable {body : List Char}

/-- What stands at a mark, with the separator cut out of the body. -/
theorem drop_start_of_mem_marks {m : Mark} (h : m ∈ marks body) :
    body.drop m.start = m.keyword.letters ++
        ((body.take m.textStart).drop (m.start + m.keyword.letters.length) ++
          body.drop m.textStart) ∧
      Separates ((body.take m.textStart).drop (m.start + m.keyword.letters.length))
        (body.drop m.textStart) := by
  obtain ⟨separator, hdrop, hsep⟩ := exists_separator_of_mem_marksFrom h
  obtain ⟨hlt, hle⟩ := bounds_of_mem_marksFrom h
  rw [Nat.sub_zero, Nat.sub_zero] at hdrop
  rw [Nat.sub_zero] at hsep
  have hlen := congrArg List.length hdrop
  simp only [List.length_append, List.length_drop] at hlen
  have hcut : (body.take m.textStart).drop (m.start + m.keyword.letters.length) = separator := by
    rw [List.drop_take, ← List.drop_drop, hdrop, List.drop_left]
    exact List.take_left' (by omega)
  rw [hcut]
  exact ⟨hdrop, hsep⟩

/-- After a separator come the slice and the next mark. -/
theorem sliceOf_append {m : Mark} {rest : List Mark} (h : ∀ n ∈ rest, m.textStart ≤ n.start) :
    sliceOf body m rest.head? ++ body.drop (startOf body rest) = body.drop m.textStart := by
  cases rest with
  | nil => simp [sliceOf, startOf]
  | cons n rest =>
    have hle := h n List.mem_cons_self
    change (body.take n.start).drop m.textStart ++ body.drop n.start = body.drop m.textStart
    rw [List.drop_take]
    conv_rhs => rw [← List.take_append_drop (n.start - m.textStart) (body.drop m.textStart)]
    rw [List.drop_drop, Nat.add_sub_cancel' hle]

variable {ms : List Mark}

/-- **The passages are all that stands from the first mark on.** -/
theorem flatMap_passagesAt (hmem : ∀ m ∈ ms, m ∈ marks body)
    (hsorted : ms.Pairwise (·.textStart ≤ ·.start)) :
    (passagesAt body ms).flatMap Passage.text = body.drop (startOf body ms) := by
  induction ms with
  | nil => simp [passagesAt, startOf]
  | cons m rest ih =>
    rw [List.forall_mem_cons] at hmem
    rw [List.pairwise_cons] at hsorted
    have hslice : sliceOf body m rest.head? ++ body.drop (startOf body rest) =
        body.drop m.textStart := sliceOf_append hsorted.1
    have hdrop := (drop_start_of_mem_marks hmem.1).1
    rw [passagesAt, List.flatMap_cons, ih hmem.2 hsorted.2, Passage.text, List.append_assoc,
      List.append_assoc, hslice, ← hdrop]
    rfl

/-- Later marks have the later passages. -/
theorem exists_passagesAt_append (body : List Char) (es ls : List Mark) :
    ∃ earlier, passagesAt body (es ++ ls) = earlier ++ passagesAt body ls := by
  induction es with
  | nil => exact ⟨[], rfl⟩
  | cons m es ih =>
    obtain ⟨earlier, h⟩ := ih
    exact ⟨_ :: earlier, by rw [List.cons_append, passagesAt, h, List.cons_append]⟩

/-- And each passage is that of a mark. -/
theorem exists_of_passagesAt_eq {earlier later : List Passage} {p : Passage}
    (h : passagesAt body ms = earlier ++ p :: later) :
    ∃ es m ls, ms = es ++ m :: ls ∧ passagesAt body (m :: ls) = p :: later := by
  induction earlier generalizing ms with
  | nil =>
    cases ms with
    | nil => simp [passagesAt] at h
    | cons m ls => exact ⟨[], m, ls, rfl, h⟩
  | cons q earlier ih =>
    cases ms with
    | nil => simp [passagesAt] at h
    | cons m ls =>
      rw [passagesAt, List.cons_append, List.cons.injEq] at h
      obtain ⟨es, m', ls', rfl, hlater⟩ := ih h.2
      exact ⟨m :: es, m', ls', rfl, hlater⟩

end Marks

/-- The passages before that of a mark end where the mark stands. -/
theorem take_start_eq {body : List Char} {es ls : List Mark} {m : Mark} {earlier : List Passage}
    (hms : marks body = es ++ m :: ls)
    (h : passagesAt body (marks body) = earlier ++ passagesAt body (m :: ls)) :
    body.take m.start =
      body.take (startOf body (marks body)) ++ earlier.flatMap Passage.text := by
  have hsorted := pairwise_textStart_marksFrom none 0 body
  have hall : (passagesAt body (marks body)).flatMap Passage.text =
      body.drop (startOf body (marks body)) := flatMap_passagesAt (fun m hm => hm) hsorted
  have hlater : (passagesAt body (m :: ls)).flatMap Passage.text = body.drop m.start := by
    refine flatMap_passagesAt ?_ ?_
    · intro n hn
      rw [hms]
      exact List.mem_append_right es hn
    · change (marks body).Pairwise (·.textStart ≤ ·.start) at hsorted
      rw [hms, List.pairwise_append] at hsorted
      exact hsorted.2.1
  rw [h, List.flatMap_append, hlater] at hall
  have hboth : body.take m.start ++ body.drop m.start =
      body.take (startOf body (marks body)) ++ earlier.flatMap Passage.text ++
        body.drop m.start := by
    rw [List.take_append_drop, List.append_assoc, hall, List.take_append_drop]
  exact List.append_cancel_right hboth

/-- **Every body is divided so**, by its marks. -/
theorem passages_marks (body : List Char) :
    Passages body (body.take (startOf body (marks body))) (passagesAt body (marks body)) := by
  have hsorted := pairwise_textStart_marksFrom none 0 body
  refine ⟨?_, ?_, ?_⟩
  · rw [flatMap_passagesAt (fun m hm => hm) hsorted, List.take_append_drop]
  · intro k before
    constructor
    · rintro ⟨after, hbody, hwhole⟩
      obtain ⟨m, hm, rfl, hstart⟩ :=
        exists_mem_marks_iff.mpr ⟨before, after, hbody, rfl, hwhole⟩
      obtain ⟨es, ls, hms⟩ := List.append_of_mem hm
      obtain ⟨earlier, hearlier⟩ := exists_passagesAt_append body es (m :: ls)
      rw [← hms] at hearlier
      refine ⟨earlier, _, passagesAt body ls, hearlier, rfl, ?_⟩
      rw [← take_start_eq hms hearlier, hstart, hbody, List.append_assoc, List.take_left]
    · rintro ⟨earlier, p, later, hps, rfl, rfl⟩
      obtain ⟨es, m, ls, hms, hp⟩ := exists_of_passagesAt_eq hps
      have hmem : m ∈ marks body := by rw [hms]; simp
      obtain ⟨before, after, hbody, hstart, hwhole⟩ := exists_mem_marks_iff.mp ⟨m, hmem, rfl, rfl⟩
      have hkeyword : p.keyword = m.keyword := by
        rw [passagesAt, List.cons.injEq] at hp
        rw [← hp.1]
      rw [← hp] at hps
      have htake : before = body.take m.start := by
        rw [hstart, hbody, List.append_assoc, List.take_left]
      rw [← take_start_eq hms hps, ← htake, hkeyword]
      exact ⟨after, hbody, hwhole⟩
  · intro earlier p later hps
    obtain ⟨es, m, ls, hms, hp⟩ := exists_of_passagesAt_eq hps
    have hmem : m ∈ marks body := by rw [hms]; simp
    have hsuffix : (m :: ls).Pairwise (·.textStart ≤ ·.start) := by
      change (marks body).Pairwise (·.textStart ≤ ·.start) at hsorted
      rw [hms, List.pairwise_append] at hsorted
      exact hsorted.2.1
    have hls : ∀ n ∈ ls, n ∈ marks body := by
      intro n hn
      rw [hms]
      exact List.mem_append_right es (List.mem_cons_of_mem m hn)
    rw [List.pairwise_cons] at hsuffix
    rw [passagesAt, List.cons.injEq] at hp
    obtain ⟨rfl, rfl⟩ := hp
    rw [flatMap_passagesAt hls hsuffix.2, sliceOf_append hsuffix.1]
    exact (drop_start_of_mem_marks hmem).2

/-- How lines are put on one, where there is a first line. -/
theorem unfoldLines_eq (borders : List (List Char)) {ls : List (List Char)} (h : ls ≠ []) :
    unfoldLines borders ls =
      Text.joinWith ' '
        ((Text.trim (ls.headD []) :: ls.tail.map (trimBorders borders)).filter (!·.isEmpty)) := by
  obtain ⟨first, others, rfl⟩ := List.exists_cons_of_ne_nil h
  rfl

theorem map_notesAt (g : Grammar) (file : String) (line : Nat) (body : List Char)
    (ms : List Mark) :
    (notesAt g file line body ms).map (fun n => (n.keyword, n.text)) =
      (passagesAt body ms).map fun p =>
        (p.keyword, String.ofList (unfoldLines g.borders (Text.splitOn '\n' p.slice))) := by
  induction ms with
  | nil => rfl
  | cons m rest ih => rw [notesAt, List.map_cons, ih, passagesAt, List.map_cons]

/-- **The text of a note is a slice of its comment, put on one line.** The
body of a comment is a preamble and one passage for each whole keyword in
it: the keyword, its separator, and the slice up to the next one or to the
end. The notes are those of the passages in order, and the text of each is
its slice, split at the line feeds: the first line trimmed of blanks, the
others of borders as well, and what is not empty joined by single spaces.
So a text has no line feed, and no blank at its ends. -/
theorem notes_eq_map_passages (g : Grammar) (file : String) (r : Region) :
    (∃ preamble ps, Passages r.body preamble ps ∧
      (notes g file r).map (fun n => (n.keyword, n.text)) =
        ps.map fun p =>
          let pieces := Text.splitOn '\n' p.slice
          let trimmed := Text.trim (pieces.headD []) :: pieces.tail.map (trimBorders g.borders)
          (p.keyword, String.ofList (Text.joinWith ' ' (trimmed.filter (!·.isEmpty))))) ∧
    ∀ n ∈ notes g file r, '\n' ∉ n.text.toList ∧ Trimmed n.text.toList := by
  have hmap := map_notesAt g file r.line r.body (marks r.body)
  rw [← notes_eq_notesAt] at hmap
  have hformula := hmap
  simp only [unfoldLines_eq _ (Text.splitOn_ne_nil _ _)] at hformula
  refine ⟨⟨_, _, passages_marks r.body, hformula⟩, ?_⟩
  intro n hn
  refine ⟨not_mem_text_of_mem_notesOf (fun line => not_mem_of_mem_lines) hn, ?_⟩
  have hmem : (n.keyword, n.text) ∈ (notes g file r).map (fun n => (n.keyword, n.text)) :=
    List.mem_map_of_mem hn
  rw [hmap] at hmem
  obtain ⟨p, -, hp⟩ := List.mem_map.mp hmem
  rw [← (Prod.mk.inj hp).2, String.toList_ofList]
  exact trimmed_unfoldLines _ _

end Marginalia.Comment
