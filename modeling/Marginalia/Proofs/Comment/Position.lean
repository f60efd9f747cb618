import Marginalia.Proofs.Comment.Delimiter
import Marginalia.Proofs.Comment.Mark

/-!
# Positions of notes

Every note of a source text stands for one whole keyword in the body of
one of its comments, and no such keyword goes without a note. The
keywords are given by their positions in the text: `Token.marksFrom`
lists them token by token, in ascending order since tokens do not
overlap, and the notes are read off that list with the line feeds before
each position (`info_notes_of_segmentation`).
-/

namespace Marginalia

/-! ## The marks of the tokens -/

namespace Token

open Comment (Mark)

/-- What opens a token. -/
def opening : Token → List Char
  | block s | line s | literal s => s.opening
  | code _ => []

/-- What a comment holds. -/
def body? : Token → Option (List Char)
  | block s | line s => some s.body
  | literal _ | code _ => none

/-- The marks of a comment that starts at the offset `pos`. -/
def marks (pos : Nat) (t : Token) : List Mark :=
  match t.body? with
  | some body => (Comment.marks body).map (Mark.shift (pos + t.opening.length))
  | none => []

/-- The marks in the comments among the tokens of a text that starts at
the offset `pos`. -/
def marksFrom (pos : Nat) : List Token → List Mark
  | [] => []
  | t :: ts => t.marks pos ++ marksFrom (pos + t.text.length) ts

/-- The body of a comment stands between what opens it and what closes
it. -/
theorem exists_text_of_body? {t : Token} {body : List Char} (h : t.body? = some body) :
    ∃ closing, t.text = t.opening ++ (body ++ closing) := by
  cases t with
  | block s =>
    obtain rfl : s.body = body := Option.some.inj h
    exact ⟨s.closing, by simp [text, opening, Span.text]⟩
  | line s =>
    obtain rfl : s.body = body := Option.some.inj h
    exact ⟨s.closing, by simp [text, opening, Span.text]⟩
  | literal s => simp [body?] at h
  | code c => simp [body?] at h

theorem mem_marks_iff {pos : Nat} {t : Token} {m : Mark} :
    m ∈ t.marks pos ↔
      ∃ body, t.body? = some body ∧ ∃ m' ∈ Comment.marks body,
        m = m'.shift (pos + t.opening.length) := by
  unfold marks
  cases t.body? with
  | none => simp
  | some body => simp [eq_comm]

/-- A mark of a comment stands inside it. -/
theorem bounds_of_mem_marks {pos : Nat} {t : Token} {m : Mark} (h : m ∈ t.marks pos) :
    pos ≤ m.start ∧ m.start < pos + t.text.length := by
  obtain ⟨body, hbody, m', hm', rfl⟩ := mem_marks_iff.mp h
  obtain ⟨closing, htext⟩ := exists_text_of_body? hbody
  obtain ⟨hlt, hle⟩ := Comment.bounds_of_mem_marksFrom hm'
  rw [htext, List.length_append, List.length_append, Mark.shift]
  simp only
  omega

theorem le_start_of_mem_marksFrom {pos : Nat} {ts : List Token} {m : Mark}
    (h : m ∈ marksFrom pos ts) : pos ≤ m.start := by
  induction ts generalizing pos with
  | nil => simp [marksFrom] at h
  | cons t ts ih =>
    rcases List.mem_append.mp h with h | h
    · exact (bounds_of_mem_marks h).1
    · have := ih h
      omega

/-- **The marks of a text stand in order**, no two at one position: those
of one comment do, and comments do not overlap. -/
theorem pairwise_start_marksFrom (pos : Nat) (ts : List Token) :
    (marksFrom pos ts).Pairwise (·.start < ·.start) := by
  induction ts generalizing pos with
  | nil => simp [marksFrom]
  | cons t ts ih =>
    rw [marksFrom, List.pairwise_append]
    refine ⟨?_, ih _, ?_⟩
    · unfold marks
      split
      · rw [List.pairwise_map]
        refine (Comment.pairwise_start_marksFrom none 0 _).imp ?_
        intro a b hab
        simp only [Mark.shift]
        omega
      · exact .nil
    · intro a ha b hb
      have hlt := (bounds_of_mem_marks ha).2
      have hle := le_start_of_mem_marksFrom hb
      omega

theorem mem_marksFrom_iff {pos : Nat} {ts : List Token} {m : Mark} :
    m ∈ marksFrom pos ts ↔
      ∃ before t after, ts = before ++ t :: after ∧
        m ∈ t.marks (pos + (before.flatMap text).length) := by
  induction ts generalizing pos with
  | nil => simp [marksFrom]
  | cons u ts ih =>
    rw [marksFrom, List.mem_append, ih]
    constructor
    · rintro (h | ⟨before, t, after, rfl, h⟩)
      · exact ⟨[], u, ts, rfl, h⟩
      · refine ⟨u :: before, t, after, rfl, ?_⟩
        rw [List.flatMap_cons, List.length_append, ← Nat.add_assoc]
        exact h
    · rintro ⟨before, t, after, hts, h⟩
      cases before with
      | nil =>
        obtain ⟨rfl, rfl⟩ := List.cons.inj hts
        exact .inl h
      | cons v before =>
        obtain ⟨rfl, rfl⟩ := List.cons.inj hts
        rw [List.flatMap_cons, List.length_append, ← Nat.add_assoc] at h
        exact .inr ⟨before, t, after, rfl, h⟩

/-- Two tokens of one text that hold the same offset are the same. -/
theorem eq_of_mem_range {b₁ a₁ b₂ a₂ : List Token} {t₁ t₂ : Token} {p : Nat}
    (h : b₁ ++ t₁ :: a₁ = b₂ ++ t₂ :: a₂)
    (h₁ : (b₁.flatMap text).length ≤ p ∧ p < (b₁.flatMap text).length + t₁.text.length)
    (h₂ : (b₂.flatMap text).length ≤ p ∧ p < (b₂.flatMap text).length + t₂.text.length) :
    t₁ = t₂ := by
  induction b₁ generalizing b₂ p with
  | nil =>
    cases b₂ with
    | nil => exact (List.cons.inj h).1
    | cons u b₂ =>
      obtain ⟨rfl, -⟩ := List.cons.inj h
      simp only [List.flatMap_nil, List.length_nil, List.flatMap_cons, List.length_append] at h₁ h₂
      omega
  | cons u b₁ ih =>
    cases b₂ with
    | nil =>
      obtain ⟨rfl, -⟩ := List.cons.inj h
      simp only [List.flatMap_nil, List.length_nil, List.flatMap_cons, List.length_append] at h₁ h₂
      omega
    | cons v b₂ =>
      obtain ⟨rfl, hrest⟩ := List.cons.inj h
      rw [List.flatMap_cons, List.length_append] at h₁ h₂
      exact ih (p := p - u.text.length) hrest (by omega) (by omega)

end Token

/-! ## Lines -/

namespace Token

open Comment (Mark)

/-- No comment is opened by a line feed. -/
theorem not_mem_opening_of_leads {g : Grammar} {t : Token} {rest body : List Char}
    (h : Leads g t rest) (hbody : t.body? = some body) : '\n' ∉ t.opening := by
  cases h with
  | comment hc =>
    cases hc with
    | block hd he =>
      rw [opening, Comment.opening_of_enclosed he]
      have hdense := Grammar.dense_of_mem_blocks (List.mem_of_find?_eq_some hd)
      exact fun hmem => absurd (hdense.1 '\n' hmem) (by decide)
    | line _ ho he =>
      cases he
      exact fun hmem => absurd (Grammar.dense_of_lineOpening? ho '\n' hmem) (by decide)
  | literal => simp [body?] at hbody
  | code => simp [body?] at hbody

end Token

namespace Note

/-- What a note says besides its text. -/
def info (n : Note) : Keyword × String × Nat :=
  (n.keyword, n.file, n.line)

end Note

namespace Comment

theorem info_notesOf (g : Grammar) (file : String) (line : Nat) (texts : List (List Char))
    (hs : List Hit) :
    (notesOf g file line texts hs).map Note.info =
      hs.map fun h => (h.keyword, file, line + h.line) := by
  induction hs with
  | nil => rfl
  | cons h hs ih =>
    rw [notesOf, List.map_cons, ih]
    rfl

/-- The notes of a comment, by the marks of its body. -/
theorem info_notes (g : Grammar) (file : String) (r : Region) :
    (notes g file r).map Note.info =
      (marks r.body).map fun m =>
        (m.keyword, file, r.line + (r.body.take m.start).count '\n') := by
  rw [notes, info_notesOf, marks_eq_map_hits, List.map_map]
  refine List.map_congr_left fun h hm => ?_
  rw [Function.comp_apply, count_take_start hm]
  rfl

end Comment

namespace Region

theorem body?_of_onLine? {line : Nat} {t : Token} {r : Region} (h : onLine? line t = some r) :
    t.body? = some r.body ∧ r.line = line := by
  cases t <;> simp [onLine?] at h <;> subst h <;> exact ⟨rfl, rfl⟩

theorem onLine?_eq_none {line : Nat} {t : Token} (h : onLine? line t = none) : t.body? = none := by
  cases t <;> simp_all [onLine?, Token.body?]

/-- The notes of one token, by its marks: what opens a comment holds no
line feed, so those before a mark are those of the body. -/
theorem info_notes_onLine? {g : Grammar} {t : Token} {rest : List Char} (h : Token.Leads g t rest)
    (file : String) (line pos : Nat) :
    ((onLine? line t).toList.flatMap (Comment.notes g file)).map Note.info =
      (t.marks pos).map fun m =>
        (m.keyword, file, line + ((t.text ++ rest).take (m.start - pos)).count '\n') := by
  cases hr : onLine? line t with
  | none => simp [Token.marks, onLine?_eq_none hr]
  | some r =>
    obtain ⟨hbody, hline⟩ := body?_of_onLine? hr
    obtain ⟨closing, htext⟩ := Token.exists_text_of_body? hbody
    -- so the opening moves the position and not the line
    have hopen := List.count_eq_zero_of_not_mem (Token.not_mem_opening_of_leads h hbody)
    simp only [Option.toList_some, List.flatMap_cons, List.flatMap_nil, List.append_nil,
      Comment.info_notes, Token.marks, hbody, List.map_map]
    refine List.map_congr_left fun m hm => ?_
    have hle := (Comment.bounds_of_mem_marksFrom hm)
    have hcount : ((t.text ++ rest).take (t.opening.length + m.start)).count '\n' =
        (r.body.take m.start).count '\n' := by
      rw [htext, List.append_assoc, List.take_length_add_append, List.count_append, hopen,
        Nat.zero_add, List.append_assoc, List.take_append_of_le_length (by omega)]
    simp only [Function.comp_apply, Comment.Mark.shift, hline]
    rw [show m.start + (pos + t.opening.length) - pos = t.opening.length + m.start by omega, hcount]

/-- **The notes of a text, by its marks.** By induction on the
segmentation: what a token holds moves the line and the position of all
that follows. -/
theorem info_notes_of_segmentation {g : Grammar} {s : List Char} {ts : List Token}
    (h : Token.Segmentation g s ts) (file : String) (line pos : Nat) :
    ((ofTokens line ts).flatMap (Comment.notes g file)).map Note.info =
      (Token.marksFrom pos ts).map fun m =>
        (m.keyword, file, line + (s.take (m.start - pos)).count '\n') := by
  induction h generalizing line pos with
  | nil => rfl
  | @cons t rest ts hlead _ ih =>
    rw [ofTokens_cons, List.flatMap_append, List.map_append, Token.marksFrom, List.map_append,
      info_notes_onLine? hlead file line pos, ih _ (pos + t.text.length)]
    congr 1
    refine List.map_congr_left fun m hm => ?_
    have hle := Token.le_start_of_mem_marksFrom hm
    rw [show m.start - pos = t.text.length + (m.start - (pos + t.text.length)) by omega,
      List.take_length_add_append, List.count_append, Nat.add_assoc]

/-! ## Positions -/

/-- **Where a comment of a text stands**: it is a token of the
segmentation, on the line that the tokens before it make, and its body
starts at the offset `start`, after them and after its opening. -/
def StandsAt (g : Grammar) (content : List Char) (r : Region) (start : Nat) : Prop :=
  ∃ before t after, Token.Segmentation g content (before ++ t :: after) ∧
    onLine? (1 + (before.flatMap Token.text).count '\n') t = some r ∧
    start = (before.flatMap Token.text).length + t.opening.length

/-- The comments that are found are those that stand somewhere. -/
theorem mem_all_iff {g : Grammar} {content : List Char} {r : Region} :
    r ∈ all g content ↔ ∃ start, r.StandsAt g content start := by
  have hall : all g content = _ := ofTokens_eq [] (Token.divide g content)
  rw [hall, List.mem_filterMap]
  constructor
  · rintro ⟨⟨t, i⟩, hmem, hr⟩
    have hget : (Token.divide g content)[i]? = some t := List.mem_zipIdx_iff_getElem?.mp hmem
    obtain ⟨hi, ht⟩ := List.getElem?_eq_some_iff.mp hget
    have hsplit : Token.divide g content =
        (Token.divide g content).take i ++ t :: (Token.divide g content).drop (i + 1) := by
      rw [← ht, List.getElem_cons_drop, List.take_append_drop]
    refine ⟨_, (Token.divide g content).take i, t, (Token.divide g content).drop (i + 1), ?_, hr, rfl⟩
    rw [← hsplit]
    exact Token.segmentation_divide g content
  · rintro ⟨start, before, t, after, hseg, hr, -⟩
    rw [← Token.eq_divide_of_segmentation hseg]
    refine ⟨(t, before.length), ?_, ?_⟩
    · rw [List.length_nil, List.mem_zipIdx_iff_getElem?]
      simp
    · simpa using hr

end Region

/-- **A whole keyword in a comment of a text**: it is spelled in the body of
the comment, with nothing before it that would make it part of a word and
a colon, a blank or the end of the body after it; and `p` is its position
in the text. -/
def KeywordAt (g : Grammar) (content : List Char) (k : Keyword) (p : Nat) : Prop :=
  ∃ (r : Region) (start : Nat) (before after : List Char), r.StandsAt g content start ∧
    r.body = before ++ k.letters ++ after ∧ Comment.Whole before after ∧
    p = start + before.length

/-- **The marks of a text are its whole keywords.** -/
theorem exists_mem_marksFrom_iff_keywordAt {g : Grammar} {content : List Char} {k : Keyword}
    {p : Nat} :
    (∃ m ∈ Token.marksFrom 0 (Token.divide g content), m.keyword = k ∧ m.start = p) ↔
      KeywordAt g content k p := by
  constructor
  · rintro ⟨m, hm, rfl, rfl⟩
    obtain ⟨before, t, after, hts, hm⟩ := Token.mem_marksFrom_iff.mp hm
    obtain ⟨body, hbody, m', hm', rfl⟩ := Token.mem_marks_iff.mp hm
    obtain ⟨pre, post, hspell, hpre, hwhole⟩ :=
      Comment.exists_mem_marks_iff.mp ⟨m', hm', rfl, rfl⟩
    obtain ⟨r, hr⟩ : ∃ r, Region.onLine? (1 + (before.flatMap Token.text).count '\n') t = some r := by
      cases hr : Region.onLine? (1 + (before.flatMap Token.text).count '\n') t with
      | none => simp [Region.onLine?_eq_none hr] at hbody
      | some r => exact ⟨r, rfl⟩
    obtain rfl : r.body = body := by
      simpa [(Region.body?_of_onLine? hr).1] using hbody
    refine ⟨r, _, pre, post, ⟨before, t, after, ?_, hr, rfl⟩, hspell, hwhole, ?_⟩
    · rw [← hts]
      exact Token.segmentation_divide g content
    · simp only [Comment.Mark.shift]
      omega
  · rintro ⟨r, start, pre, post, ⟨before, t, after, hseg, hr, rfl⟩, hspell, hwhole, rfl⟩
    obtain ⟨m, hm, hk, hp⟩ := Comment.exists_mem_marks_iff.mpr ⟨pre, post, hspell, rfl, hwhole⟩
    refine ⟨m.shift (0 + (before.flatMap Token.text).length + t.opening.length), ?_, hk, ?_⟩
    · rw [← Token.eq_divide_of_segmentation hseg, Token.mem_marksFrom_iff]
      refine ⟨before, t, after, rfl, ?_⟩
      exact Token.mem_marks_iff.mpr ⟨r.body, (Region.body?_of_onLine? hr).1, m, hm, rfl⟩
    · simp only [Comment.Mark.shift]
      omega

/-- A whole keyword stands in no token but a comment. -/
theorem body?_isSome_of_keywordAt {g : Grammar} {content : List Char} {k : Keyword} {p : Nat}
    (h : KeywordAt g content k p) {before after : List Token} {t : Token}
    (hseg : Token.Segmentation g content (before ++ t :: after))
    (hp : (before.flatMap Token.text).length ≤ p ∧
      p < (before.flatMap Token.text).length + t.text.length) :
    t.body?.isSome = true := by
  obtain ⟨m, hm, -, rfl⟩ := exists_mem_marksFrom_iff_keywordAt.mpr h
  obtain ⟨before', u, after', hts, hm⟩ := Token.mem_marksFrom_iff.mp hm
  have hrange := Token.bounds_of_mem_marks hm
  rw [Nat.zero_add] at hrange
  have hsame : t = u :=
    Token.eq_of_mem_range ((Token.eq_divide_of_segmentation hseg).trans hts) hp hrange
  obtain ⟨body, hbody, -⟩ := Token.mem_marks_iff.mp hm
  rw [hsame, hbody]
  rfl

/-- **The notes of a text are its whole keywords.** They correspond, in
order, to the list of those positions in the text at which a whole keyword
stands in a comment: the keyword of each note is the one spelled there,
its file is the one given, and its line is one more than the line feeds
before the position. So the lines never go down, and no position lies in a
literal or in code. -/
theorem extract_eq_map_keywordAt (g : Grammar) (file : String) (content : List Char) :
    ∃ marks : List (Keyword × Nat),
      marks.Pairwise (fun a b => a.2 < b.2) ∧
      (∀ k p, (k, p) ∈ marks ↔ KeywordAt g content k p) ∧
      ((extract g file content).map fun n => (n.keyword, n.file, n.line)) =
        marks.map (fun m => (m.1, file, 1 + (content.take m.2).count '\n')) ∧
      ((extract g file content).map Note.line).Pairwise (· ≤ ·) ∧
      (∀ r, r ∈ Region.all g content ↔ ∃ start, r.StandsAt g content start) ∧
      (∀ m ∈ marks, ∀ before t after, Token.Segmentation g content (before ++ t :: after) →
        (before.flatMap Token.text).length ≤ m.2 →
        m.2 < (before.flatMap Token.text).length + t.text.length →
        ∃ span, t = .block span ∨ t = .line span) := by
  have hseg := Token.segmentation_divide g content
  have hsorted := Token.pairwise_start_marksFrom 0 (Token.divide g content)
  have hinfo := Region.info_notes_of_segmentation hseg file 1 0
  have hmem : ∀ k p, (k, p) ∈ (Token.marksFrom 0 (Token.divide g content)).map
      (fun m => (m.keyword, m.start)) ↔ KeywordAt g content k p := by
    intro k p
    rw [← exists_mem_marksFrom_iff_keywordAt, List.mem_map]
    simp only [Prod.mk.injEq]
  have hlines : (extract g file content).map Note.line =
      (Token.marksFrom 0 (Token.divide g content)).map
        fun m => 1 + (content.take m.start).count '\n' := by
    have := congrArg (List.map fun i : Keyword × String × Nat => i.2.2) hinfo
    rw [List.map_map, List.map_map] at this
    exact this
  refine ⟨(Token.marksFrom 0 (Token.divide g content)).map fun m => (m.keyword, m.start),
    ?_, hmem, ?_, ?_, fun r => Region.mem_all_iff, ?_⟩
  · rw [List.pairwise_map]
    exact hsorted
  · rw [List.map_map]
    exact hinfo
  · rw [hlines, List.pairwise_map]
    refine hsorted.imp fun {a b} hab => ?_
    -- a later position has all the line feeds before it that an earlier one has
    have hsub := (List.take_prefix_take_left (l := content) hab.le).sublist.count_le '\n'
    omega
  · rintro ⟨k, p⟩ hm before t after hts hle hlt
    have hsome := body?_isSome_of_keywordAt ((hmem k p).mp hm) hts ⟨hle, hlt⟩
    cases t with
    | block span => exact ⟨span, .inl rfl⟩
    | line span => exact ⟨span, .inr rfl⟩
    | literal | code => simp [Token.body?] at hsome

end Marginalia
