import Marginalia.Proofs.Comment.TrailingBlank

/-!
# The blanks between a keyword and its colon

Any blank leaves a keyword whole, but only spaces and tabs belong to its
separator. So a colon belongs to it if nothing else stands between
(`dropSeparator_of_gaps`); after another blank it is the first character of
the text (`dropSeparator_of_not_gaps`), and no trimming takes it away.
-/

namespace Marginalia

namespace Text

/-! ## Trimming up to a character that is no blank -/

theorem blank_takeWhile {p : Char → Bool} (hp : ∀ c, p c = true → isBlank c = true)
    (s : List Char) : Blank (s.takeWhile p) :=
  fun c hc => hp c (List.mem_takeWhile_imp hc)

theorem trim_dropWhile {p : Char → Bool} (hp : ∀ c, p c = true → isBlank c = true)
    (s : List Char) : trim (s.dropWhile p) = trim s := by
  conv_rhs => rw [← List.takeWhile_append_dropWhile (p := p) (l := s)]
  exact (trim_append_of_blank (blank_takeWhile hp s) _).symm

theorem count_dropWhile {p : Char → Bool} {c : Char} (hc : p c = false) (s : List Char) :
    (s.dropWhile p).count c = s.count c := by
  have hnone : (s.takeWhile p).count c = 0 := by
    refine List.count_eq_zero_of_not_mem fun hmem => ?_
    have := List.mem_takeWhile_imp hmem
    simp [hc] at this
  conv_rhs => rw [← List.takeWhile_append_dropWhile (p := p) (l := s)]
  rw [List.count_append, hnone, Nat.zero_add]

/-- **Trimming takes nothing but blanks.** -/
theorem count_trimEnd {c : Char} (hc : isBlank c = false) (s : List Char) :
    (trimEnd s).count c = s.count c := by
  rw [trimEnd, List.count_reverse, count_dropWhile hc, List.count_reverse]

theorem count_trim {c : Char} (hc : isBlank c = false) (s : List Char) :
    (trim s).count c = s.count c := by
  rw [trim, count_trimEnd hc, trimStart, count_dropWhile hc]

/-- Trimming the end stops at what is no blank. -/
theorem trim_cons_of_not_isBlank {c : Char} (hc : isBlank c = false) (s : List Char) :
    trim (c :: s) = c :: trimEnd s := by
  have hstart : trimStart (c :: s) = c :: s := by
    rw [trimStart, List.dropWhile_cons_of_neg (by simp [hc])]
  rw [trim, hstart, trimEnd, trimEnd, List.reverse_cons, List.dropWhile_append]
  split
  · next hnil =>
    rw [List.isEmpty_iff] at hnil
    simp [hnil, hc]
  · simp

end Text

namespace Comment

open Text (Blank isBlank isIdentChar)

theorem isBlank_of_isGap {c : Char} (h : isGap c = true) : isBlank c = true := by
  have hc : c = ' ' ∨ c = '\t' := by simpa [isGap] using h
  rcases hc with rfl | rfl <;> decide

/-- A colon is no blank. -/
theorem isBlank_colon : isBlank ':' = false := by decide

/-! ## The separator -/

section

variable {w : List Char}

/-- **Spaces and tabs before a colon go with it.** -/
theorem dropSeparator_of_gaps (hw : ∀ c ∈ w, isGap c = true) (t : List Char) :
    dropSeparator (w ++ ':' :: t) = t.dropWhile isGap := by
  have hdrop : (w ++ ':' :: t).dropWhile isGap = ':' :: t := by
    rw [List.dropWhile_append_of_pos hw, List.dropWhile_cons_of_neg (by decide)]
  rw [dropSeparator, hdrop]
  rfl

/-- **After any other blank the colon is part of the text.** -/
theorem dropSeparator_of_not_gaps (hw : Blank w) (hother : ¬ ∀ c ∈ w, isGap c = true)
    (t : List Char) : ∃ w', Blank w' ∧ dropSeparator (w ++ ':' :: t) = w' ++ ':' :: t := by
  have hne : w.dropWhile isGap ≠ [] := fun h => hother (List.dropWhile_eq_nil_iff.mp h)
  obtain ⟨c, w', hw'⟩ := List.exists_cons_of_ne_nil hne
  have hblank : Blank (c :: w') := hw' ▸ hw.of_suffix (List.dropWhile_suffix isGap)
  have hgap : isGap c = false := isGap_of_head?_dropWhile (s := w) (by rw [hw']; rfl)
  have hcolon : c ≠ ':' := by
    rintro rfl
    have := hblank ':' List.mem_cons_self
    rw [isBlank_colon] at this
    simp at this
  have hdrop : (w ++ ':' :: t).dropWhile isGap = c :: (w' ++ ':' :: t) := by
    rw [List.dropWhile_append, hw']
    rfl
  refine ⟨c :: w', hblank, ?_⟩
  rw [dropSeparator, hdrop, dropColon_cons_of_ne hcolon,
    List.dropWhile_cons_of_neg (by simp [hgap]), List.cons_append]

/-! ## A comment with one keyword -/

/-- **The marks of a keyword, blanks, a colon and a text**: the keyword, and
no other if the text has no whole keyword. -/
theorem marks_letters_append (k : Keyword) {t : List Char} (hw : Blank w) (ht : marks t = []) :
    marks (k.letters ++ (w ++ ':' :: t)) =
      [⟨k, 0, (k.letters ++ (w ++ ':' :: t)).length - (dropSeparator (w ++ ':' :: t)).length⟩] := by
  have hnone : ∀ c ∈ w ++ [':'], StartsNone c := by
    intro c hc
    rcases List.mem_append.mp hc with hc | hc
    · exact startsNone_of_isBlank (hw c hc)
    · rw [List.mem_singleton.mp hc]
      decide
  have hlater (p : Option Char) (pos : Nat) : marksFrom p pos (w ++ ':' :: t) = [] := by
    have hlast : lastOr p (w ++ [':']) = some ':' := by simp [lastOr]
    rw [List.append_cons, marksFrom_append_of_startsNone hnone, hlast,
      marksFrom_congr (show (some ':').any isIdentChar = none.any isIdentChar by decide),
      show pos + (w ++ [':']).length = 0 + (pos + (w ++ [':']).length) by omega, marksFrom_add,
      show marksFrom none 0 t = [] from ht, List.map_nil]
  have hsep : (w ++ ':' :: t).head?.all isSeparator = true := by
    cases w with
    | nil => rfl
    | cons c w =>
      have hc := hw c List.mem_cons_self
      simp [isSeparator, hc]
  have htag : tag? none (k.letters ++ (w ++ ':' :: t)) = some (k,
      (k.letters ++ (w ++ ':' :: t)).length - (dropSeparator (w ++ ':' :: t)).length) :=
    tag?_eq_some_iff.mpr ⟨rfl, w ++ ':' :: t, rfl, hsep, rfl⟩
  obtain ⟨c, s, hs⟩ : ∃ c s, k.letters ++ (w ++ ':' :: t) = c :: s :=
    List.exists_cons_of_ne_nil (by cases k <;> simp [Keyword.letters])
  obtain ⟨last, hletters⟩ := marksFrom_letters hs.symm 0
  rw [hlater] at hletters
  rw [hs] at htag ⊢
  rw [marks, marksFrom, htag]
  simp only [hletters, Nat.zero_add]

/-- One line is trimmed, and that is all. -/
theorem unfoldLines_singleton (borders : List (List Char)) (s : List Char) :
    unfoldLines borders [s] = Text.trim s := by
  cases h : Text.trim s with
  | nil => simp [unfoldLines, h, Text.joinWith, List.intercalate]
  | cons c rest => simp [unfoldLines, h, Text.joinWith, List.intercalate_singleton]

/-- The one note of such a comment has what follows the separator, trimmed. -/
theorem notes_letters_append (g : Grammar) (file : String) (line : Nat) (block : Bool)
    (k : Keyword) {t : List Char} (hw : Blank w) (hfeed : '\n' ∉ w ++ t) (ht : marks t = []) :
    notes g file ⟨k.letters ++ (w ++ ':' :: t), line, block⟩ =
      [⟨k, String.ofList (Text.trim (dropSeparator (w ++ ':' :: t))), file, line⟩] := by
  obtain ⟨separator, hsep, -⟩ := exists_append_dropSeparator (w ++ ':' :: t)
  -- what follows the separator is the end of the body
  have hdrop : (k.letters ++ (w ++ ':' :: t)).drop
      ((k.letters ++ (w ++ ':' :: t)).length - (dropSeparator (w ++ ':' :: t)).length) =
        dropSeparator (w ++ ':' :: t) := by
    have hbody : k.letters ++ (w ++ ':' :: t) =
        (k.letters ++ separator) ++ dropSeparator (w ++ ':' :: t) := by
      rw [List.append_assoc, ← hsep]
    rw [hbody, List.length_append, Nat.add_sub_cancel, List.drop_left]
  have hmem : '\n' ∉ dropSeparator (w ++ ':' :: t) := by
    intro hmem
    have hall : '\n' ∈ w ++ ':' :: t := hsep ▸ List.mem_append_right separator hmem
    simp only [List.mem_append, List.mem_cons] at hall hfeed
    rcases hall with h | h | h
    · exact hfeed (.inl h)
    · exact absurd h (by decide)
    · exact hfeed (.inr h)
  rw [notes_eq_notesAt, marks_letters_append k hw ht]
  simp only [notesAt, List.head?_nil, sliceOf, hdrop, Text.splitOn_of_not_mem hmem,
    unfoldLines_singleton, List.take_zero, List.count_nil, Nat.add_zero]

end

/-- A text has no marks where it has no whole keyword. -/
theorem marks_eq_nil_iff {t : List Char} :
    marks t = [] ↔ ∀ (k : Keyword) (before after : List Char),
      t = before ++ k.letters ++ after → ¬ Whole before after := by
  constructor
  · intro h k before after ht hwhole
    obtain ⟨m, hm, -⟩ := exists_mem_marks_iff.mpr ⟨before, after, ht, rfl, hwhole⟩
    simp [h] at hm
  · intro h
    rw [List.eq_nil_iff_forall_not_mem]
    intro m hm
    obtain ⟨before, after, ht, -, hwhole⟩ := exists_mem_marks_iff.mp ⟨m, hm, rfl, rfl⟩
    exact h m.keyword before after ht hwhole

/-- **The colon after a keyword.** Let a comment be a keyword, blanks, a
colon and a text, on one line and with no other whole keyword. It has one
note, on the line of the comment. The text of the note is the trimmed text
exactly if the blanks are spaces and tabs; with any other blank among them
it starts with the colon. -/
theorem notes_separated (g : Grammar) (file : String) (line : Nat) (block : Bool) (k : Keyword)
    {w t : List Char} (hw : Blank w) (hfeed : '\n' ∉ w ++ t)
    (ht : ∀ (k' : Keyword) (before after : List Char),
      t = before ++ k'.letters ++ after → ¬ Whole before after) :
    (notes g file ⟨k.letters ++ (w ++ ':' :: t), line, block⟩ =
        [⟨k, String.ofList (Text.trim t), file, line⟩] ↔ ∀ c ∈ w, isGap c = true) ∧
    ((¬ ∀ c ∈ w, isGap c = true) →
      notes g file ⟨k.letters ++ (w ++ ':' :: t), line, block⟩ =
        [⟨k, String.ofList (':' :: Text.trimEnd t), file, line⟩]) := by
  have hnotes := notes_letters_append g file line block k hw hfeed (marks_eq_nil_iff.mpr ht)
  have hgaps (h : ∀ c ∈ w, isGap c = true) :
      Text.trim (dropSeparator (w ++ ':' :: t)) = Text.trim t := by
    rw [dropSeparator_of_gaps h, Text.trim_dropWhile fun c => isBlank_of_isGap]
  have hothers (h : ¬ ∀ c ∈ w, isGap c = true) :
      Text.trim (dropSeparator (w ++ ':' :: t)) = ':' :: Text.trimEnd t := by
    obtain ⟨w', hw', hdrop⟩ := dropSeparator_of_not_gaps hw h t
    rw [hdrop, Text.trim_append_of_blank hw', Text.trim_cons_of_not_isBlank isBlank_colon]
  refine ⟨⟨fun h => ?_, fun h => by rw [hnotes, hgaps h]⟩, fun h => by rw [hnotes, hothers h]⟩
  by_contra hother
  -- the text would have one colon more than the trimmed one
  rw [hnotes, hothers hother] at h
  have htext : ':' :: Text.trimEnd t = Text.trim t := by
    have := congrArg (fun ns : List Note => ns.map fun n => n.text.toList) h
    simpa using this
  have hcount := congrArg (List.count ':') htext
  rw [List.count_cons_self, Text.count_trimEnd isBlank_colon, Text.count_trim isBlank_colon]
    at hcount
  omega

/-- A tab and a space before the colon, and a text with a word that is
longer than a keyword. -/
theorem notes_separated_tab :
    Blank ['\t', ' '] ∧ '\n' ∉ ['\t', ' '] ++ " a TODOS ".toList ∧
    marks " a TODOS ".toList = [] ∧
    notes .hash "a.sh"
        ⟨Keyword.fixme.letters ++ (['\t', ' '] ++ ':' :: " a TODOS ".toList), 3, false⟩ =
      [⟨.fixme, "a TODOS", "a.sh", 3⟩] := by
  have hw : Blank ['\t', ' '] := by decide
  have hfeed : '\n' ∉ ['\t', ' '] ++ " a TODOS ".toList := by decide
  have ht : marks " a TODOS ".toList = [] := by decide +kernel
  refine ⟨hw, hfeed, ht, ?_⟩
  rw [(notes_separated .hash "a.sh" 3 false .fixme hw hfeed (marks_eq_nil_iff.mp ht)).1.mpr
    (by simp [isGap])]
  decide +kernel

/-- **A colon that is left over.** The blank before it is neither a space
nor a tab, so that it stands in the text of the note. -/
theorem notes_separated_otherBlank :
    Blank ['\u00a0'] ∧ '\n' ∉ ['\u00a0'] ++ [' ', 'x'] ∧ marks [' ', 'x'] = [] ∧
    String.ofList (Text.trim [' ', 'x']) = "x" ∧
    notes .cStyle "a.js" ⟨Keyword.todo.letters ++ (['\u00a0'] ++ ':' :: [' ', 'x']), 1, false⟩ =
      [⟨.todo, ": x", "a.js", 1⟩] := by
  refine ⟨by decide, by decide, by decide +kernel, by decide +kernel, by decide +kernel⟩

end Comment

end Marginalia
