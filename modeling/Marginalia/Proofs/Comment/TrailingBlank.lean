import Marginalia.Proofs.Comment.Delimiter
import Marginalia.Proofs.Comment.Slice

/-!
# Blanks at the end of a text

Blanks behind a text are taken in by what is open at its end: a comment
to the end of the line, or one that is never closed. Everything else is
divided as before, and the blanks are code (`Token.Leads.append`). So the
comments of the longer text are those of the text, with blanks behind
their bodies (`Token.Segmentation.append`).

Blanks behind a body do not show in its notes. They hold no keyword, and
leave those before them whole; they may make the separator of the last
one longer (`Mark.Grows`), but what they add to its slice is trimmed off.
-/

namespace Marginalia

open Text (Blank Dense isBlank)

namespace Comment

/-! ## Tags before blanks -/

/-- Skipping goes on into what follows only if nothing stops it. -/
theorem exists_dropWhile_append (p : Char → Bool) (s w : List Char) :
    ∃ w', w' <:+ w ∧ (s ++ w).dropWhile p = s.dropWhile p ++ w' ∧
      (s.dropWhile p ≠ [] → w' = w) := by
  rw [List.dropWhile_append]
  by_cases h : s.dropWhile p = []
  · refine ⟨w.dropWhile p, List.dropWhile_suffix p, ?_, fun hne => absurd h hne⟩
    simp [h]
  · refine ⟨w, List.suffix_rfl, ?_, fun _ => rfl⟩
    simp [h]

theorem exists_dropColon_append (s w : List Char) :
    ∃ w', w' <:+ w ∧ dropColon (s ++ w) = dropColon s ++ w' ∧ (s ≠ [] → w' = w) := by
  cases s with
  | nil =>
    obtain ⟨colon, hw, -⟩ := exists_append_dropColon w
    exact ⟨dropColon w, ⟨colon, hw.symm⟩, rfl, fun hne => absurd rfl hne⟩
  | cons c s =>
    refine ⟨w, List.suffix_rfl, ?_, fun _ => rfl⟩
    by_cases hc : c = ':'
    · subst hc
      rfl
    · rw [List.cons_append, dropColon_cons_of_ne hc, dropColon_cons_of_ne hc, List.cons_append]

/-- **A separator goes on into what follows only if nothing stops it.** -/
theorem exists_dropSeparator_append (s w : List Char) :
    ∃ w', w' <:+ w ∧ dropSeparator (s ++ w) = dropSeparator s ++ w' ∧
      (dropSeparator s ≠ [] → w' = w) := by
  obtain ⟨w₁, hw₁, h₁, heq₁⟩ := exists_dropWhile_append isGap s w
  obtain ⟨w₂, hw₂, h₂, heq₂⟩ := exists_dropColon_append (s.dropWhile isGap) w₁
  obtain ⟨w₃, hw₃, h₃, heq₃⟩ :=
    exists_dropWhile_append isGap (dropColon (s.dropWhile isGap)) w₂
  refine ⟨w₃, hw₃.trans (hw₂.trans hw₁), ?_, ?_⟩
  · rw [dropSeparator, h₁, h₂, h₃, dropSeparator]
  · intro hne
    rw [dropSeparator] at hne
    -- what is left in the end was left at each step before
    have hgap : s.dropWhile isGap ≠ [] := by
      intro hnil
      simp [hnil, dropColon] at hne
    rw [heq₃ hne, heq₂ hgap, heq₁ hgap]

theorem dense_letters (k : Keyword) : Dense k.letters := by
  cases k <;> decide

/-- A tag before blanks is the tag that is there without them. It may be
longer, but only at the end of the text. -/
theorem exists_tag?_append {previous : Option Char} {s w : List Char} {k : Keyword} {size : Nat}
    (hw : Blank w) (h : tag? previous s = some (k, size)) :
    ∃ size', tag? previous (s ++ w) = some (k, size') ∧ size ≤ size' ∧
      (size < s.length → size' = size) := by
  obtain ⟨hp, rest, rfl, hsep, hsize⟩ := tag?_eq_some_iff.mp h
  obtain ⟨w', ⟨u, hu⟩, hdrop, hsame⟩ := exists_dropSeparator_append rest w
  have hsep' : (rest ++ w).head?.all isSeparator = true := by
    cases rest with
    | nil =>
      cases w with
      | nil => rfl
      | cons c w => simp [isSeparator, hw c List.mem_cons_self]
    | cons c rest => simpa using hsep
  refine ⟨_, tag?_eq_some_iff.mpr ⟨hp, rest ++ w, List.append_assoc _ _ _, hsep', rfl⟩, ?_, ?_⟩
  · have hlen := congrArg List.length hu
    rw [hdrop]
    simp only [List.length_append] at hlen hsize ⊢
    omega
  · intro hlt
    have hne : dropSeparator rest ≠ [] := by
      intro hnil
      rw [hnil, List.length_nil] at hsize
      omega
    rw [hdrop, hsame hne]
    simp only [List.length_append] at hsize ⊢
    omega

/-- And where there is none the blanks make none. -/
theorem tag?_append_eq_none {previous : Option Char} {s w : List Char} (hw : Blank w)
    (h : tag? previous s = none) : tag? previous (s ++ w) = none := by
  rw [Option.eq_none_iff_forall_ne_some]
  rintro ⟨k, size⟩ hsome
  obtain ⟨hp, rest, hs, hsep, -⟩ := tag?_eq_some_iff.mp hsome
  obtain ⟨t, rfl, rfl⟩ :=
    Text.exists_of_append_eq_append (dense_letters k) (Text.head?_isBlank hw) hs
  have hsep' : t.head?.all isSeparator = true := by
    cases t with
    | nil => rfl
    | cons c t => simpa using hsep
  have htag : tag? previous (k.letters ++ t) = some (k, _) :=
    tag?_eq_some_iff.mpr ⟨hp, t, rfl, hsep', rfl⟩
  rw [h] at htag
  simp at htag

theorem startsNone_of_isBlank {c : Char} (hc : isBlank c = true) : StartsNone c := by
  intro k hk
  have hmem : c ∈ k.letters := List.mem_of_mem_head? hk
  rw [dense_letters k c hmem] at hc
  simp at hc

/-! ## Marks before blanks -/

/-- The mark `n` is `m`, with a longer separator if `m` ends at `stop`. -/
structure Mark.Grows (stop : Nat) (m n : Mark) : Prop where
  keyword : n.keyword = m.keyword
  start : n.start = m.start
  le : m.textStart ≤ n.textStart
  eq : m.textStart < stop → n.textStart = m.textStart

/-- **The marks of a text before blanks.** -/
theorem forall₂_grows_marksFrom {w : List Char} (hw : Blank w) (previous : Option Char)
    (pos : Nat) (s : List Char) :
    List.Forall₂ (Mark.Grows (pos + s.length)) (marksFrom previous pos s)
      (marksFrom previous pos (s ++ w)) := by
  induction s generalizing previous pos with
  | nil =>
    have hnone := marksFrom_append_of_startsNone
      (fun c hc => startsNone_of_isBlank (hw c hc)) previous pos []
    rw [List.append_nil] at hnone
    rw [List.nil_append, hnone]
    exact .nil
  | cons c s ih =>
    have hrest := ih (some c) (pos + 1)
    rw [show pos + 1 + s.length = pos + (c :: s).length by rw [List.length_cons]; omega] at hrest
    rw [List.cons_append, marksFrom, marksFrom]
    cases htag : tag? previous (c :: s) with
    | none =>
      have hnone := tag?_append_eq_none hw htag
      rw [List.cons_append] at hnone
      rw [hnone]
      exact hrest
    | some found =>
      obtain ⟨k, size⟩ := found
      obtain ⟨size', htag', hle, heq⟩ := exists_tag?_append hw htag
      rw [List.cons_append] at htag'
      rw [htag']
      refine .cons ⟨rfl, rfl, by simp only; omega, ?_⟩ hrest
      intro hlt
      simp only at hlt ⊢
      rw [heq (by omega)]

/-! ## Notes before blanks -/

theorem trimBorders_of_blank (borders : List (List Char)) {s : List Char} (hs : Blank s) :
    trimBorders borders s = [] := by
  have hpadded : Padded [] s := ⟨s, hs, rfl⟩
  rw [hpadded.trimBorders_eq]
  exact List.infix_nil.mp (isInfix_trimBorders borders [])

/-- Blank lines behind others add nothing. -/
theorem unfoldLines_append {borders blanks : List (List Char)} (hblanks : ∀ b ∈ blanks, Blank b)
    (first : List Char) (others : List (List Char)) :
    unfoldLines borders (first :: others ++ blanks) = unfoldLines borders (first :: others) := by
  have hnone : (blanks.map (trimBorders borders)).filter (!·.isEmpty) = [] := by
    rw [List.filter_eq_nil_iff]
    intro piece hp
    obtain ⟨b, hb, rfl⟩ := List.mem_map.mp hp
    simp [trimBorders_of_blank borders (hblanks b hb)]
  simp only [unfoldLines, List.cons_append, List.map_append]
  rw [← List.cons_append, List.filter_append, hnone, List.append_nil]

/-- The lines of a text before blanks: its lines with blanks behind them,
and then blank lines. -/
theorem exists_splitOn_append {w : List Char} (hw : Blank w) (s : List Char) :
    ∃ ys blanks, Text.splitOn '\n' (s ++ w) = ys ++ blanks ∧
      List.Forall₂ Padded (Text.splitOn '\n' s) ys ∧ ∀ b ∈ blanks, Blank b := by
  induction s using Text.linesInduction with
  | last a ha =>
    have hpieces {piece : List Char} (h : piece ∈ Text.splitOn '\n' w) : Blank piece :=
      Text.blank_of_mem_splitOn hw h
    rw [Text.splitOn_of_not_mem ha]
    by_cases hmem : '\n' ∈ w
    · obtain ⟨u, v, rfl, hu⟩ := List.eq_append_cons_of_mem hmem
      rw [Text.splitOn_append_cons hu] at hpieces
      have hau : '\n' ∉ a ++ u := by simp [ha, hu]
      refine ⟨[a ++ u], Text.splitOn '\n' v, ?_, .cons ⟨u, hw.of_append.1, rfl⟩ .nil, ?_⟩
      · rw [← List.append_assoc, Text.splitOn_append_cons hau, List.singleton_append]
      · exact fun b hb => hpieces (List.mem_cons_of_mem u hb)
    · have haw : '\n' ∉ a ++ w := by simp [ha, hmem]
      refine ⟨[a ++ w], [], ?_, .cons ⟨w, hw, rfl⟩ .nil, by simp⟩
      rw [Text.splitOn_of_not_mem haw, List.append_nil]
  | more a b ha ih =>
    obtain ⟨ys, blanks, hsplit, hpadded, hblanks⟩ := ih
    refine ⟨a :: ys, blanks, ?_, ?_, hblanks⟩
    · rw [List.append_assoc, List.cons_append, Text.splitOn_append_cons ha, hsplit,
        List.cons_append]
    · rw [Text.splitOn_append_cons ha]
      exact .cons (.refl a) hpadded

/-- **Blanks behind a slice do not show in its text.** -/
theorem unfoldLines_splitOn_append {w : List Char} (hw : Blank w) (borders : List (List Char))
    (s : List Char) :
    unfoldLines borders (Text.splitOn '\n' (s ++ w)) =
      unfoldLines borders (Text.splitOn '\n' s) := by
  obtain ⟨ys, blanks, hsplit, hpadded, hblanks⟩ := exists_splitOn_append hw s
  rw [hsplit, unfoldLines_congr hpadded]
  obtain ⟨x, xs, hs⟩ := List.exists_cons_of_ne_nil (Text.splitOn_ne_nil '\n' s)
  rw [hs] at hpadded
  cases hpadded with
  | @cons _ first _ others _ _ => exact unfoldLines_append hblanks first others

/-- By induction on the marks: up to the last one the slices are the same,
and that one is longer by blanks at most. -/
theorem notesAt_append {w body : List Char} (hw : Blank w) {ms ns : List Mark}
    (h : List.Forall₂ (Mark.Grows body.length) ms ns) (hstart : ∀ m ∈ ms, m.start < body.length)
    (hsorted : ms.Pairwise (·.textStart ≤ ·.start)) (g : Grammar) (file : String) (line : Nat) :
    notesAt g file line (body ++ w) ns = notesAt g file line body ms := by
  induction h with
  | nil => rfl
  | @cons m n ms ns hmn hrest ih =>
    rw [List.forall_mem_cons] at hstart
    rw [List.pairwise_cons] at hsorted
    have htake {k : Nat} (hk : k < body.length) : (body ++ w).take k = body.take k :=
      List.take_append_of_le_length hk.le
    have htext : unfoldLines g.borders (Text.splitOn '\n' (sliceOf (body ++ w) n ns.head?)) =
        unfoldLines g.borders (Text.splitOn '\n' (sliceOf body m ms.head?)) := by
      cases hrest with
      | nil =>
        have hdrop : body.drop n.textStart = body.drop m.textStart := by
          by_cases hlt : m.textStart < body.length
          · rw [hmn.eq hlt]
          · have hle := hmn.le
            rw [List.drop_eq_nil_of_le (by omega), List.drop_eq_nil_of_le (by omega)]
        simp only [List.head?_nil, sliceOf, List.drop_append, hdrop]
        exact unfoldLines_splitOn_append (hw.of_suffix (List.drop_suffix _ w)) _ _
      | @cons m' n' _ _ hmn' _ =>
        have hlt := hstart.2 m' List.mem_cons_self
        have hle := hsorted.1 m' List.mem_cons_self
        simp only [List.head?_cons, sliceOf, hmn'.start, htake hlt, hmn.eq (by omega)]
    rw [notesAt, notesAt, ih hstart.2 hsorted.2, htext, hmn.keyword, hmn.start, htake hstart.1]

/-- **Blanks behind a body do not show in its notes.** -/
theorem notes_append {w : List Char} (hw : Blank w) (g : Grammar) (file : String) (r : Region) :
    notes g file { r with body := r.body ++ w } = notes g file r := by
  have hgrows := forall₂_grows_marksFrom hw none 0 r.body
  rw [Nat.zero_add] at hgrows
  have hstart : ∀ m ∈ marks r.body, m.start < r.body.length := by
    intro m hm
    obtain ⟨hlt, hle⟩ := bounds_of_mem_marksFrom hm
    omega
  rw [notes_eq_notesAt, notes_eq_notesAt]
  exact notesAt_append hw hgrows hstart (pairwise_textStart_marksFrom none 0 r.body) g file r.line

end Comment

/-! ## Forms before blanks -/

/-- **What is open at the end of a text.** Before the blanks `rest` stands
`a`; with the blanks `w` behind them it is `b` that stands there, before
`tail`: it takes in blanks, and its body has some of them at its end. -/
structure Span.Stretches (a : Span) (rest w : List Char) (b : Span) (tail : List Char) :
    Prop where
  blank_rest : Blank rest
  blank_tail : Blank tail
  text : b.text ++ tail = a.text ++ rest ++ w
  body : Comment.Padded a.body b.body

namespace Comment

/-- What is closed stays as it is, and what is not takes all blanks in. -/
theorem Enclosed.append {opening closing rest w : List Char} {span : Span}
    (h : Enclosed opening closing span rest) (hd : Dense closing) (hne : closing ≠ [])
    (hw : Blank w) :
    Enclosed opening closing span (rest ++ w) ∨
      ∃ span' tail, span.Stretches rest w span' tail ∧ Enclosed opening closing span' tail := by
  cases h with
  | closed hf => exact .inl (.closed (hf.append w))
  | @unclosed body hn =>
    refine .inr ⟨⟨opening, body ++ w, []⟩, [], ⟨Text.blank_nil, Text.blank_nil, ?_, w, hw, rfl⟩, ?_⟩
    · simp [Span.text]
    · exact .unclosed fun hin => hn (Text.infix_of_infix_append hd hne hw hin)

/-- A line that is ended stays as it is. At the end of the text it goes on
to the first line end of the blanks, and a carriage return there may find
its line feed. -/
theorem ToLineEnd.append {opening rest w : List Char} {span : Span}
    (h : ToLineEnd opening span rest) (hw : Blank w) :
    ToLineEnd opening span (rest ++ w) ∨
      ∃ span' tail, span.Stretches rest w span' tail ∧ ToLineEnd opening span' tail := by
  cases h with
  | @mk body closing _ hbody hend =>
    cases hend with
    | feed => exact .inl ⟨hbody, .feed _⟩
    | returnFeed => exact .inl ⟨hbody, .returnFeed _⟩
    | endOfText =>
      -- the blanks are read as a line of their own
      obtain ⟨⟨line, tail⟩, hread⟩ := exists_readLine (List.nil_prefix (l := w))
      obtain ⟨@⟨more, closing, _, hmore, hclose⟩, htext⟩ := readLine_eq_ok_iff.mp hread
      rw [Span.text, List.nil_append] at htext
      have hblank := hw
      rw [← htext] at hblank
      refine .inr ⟨⟨opening, body ++ more, closing⟩, tail, ⟨Text.blank_nil, hblank.of_append.2, ?_,
        more, hblank.of_append.1.of_append.1, rfl⟩, .mk ?_ hclose⟩
      · simp [Span.text, ← htext]
      · exact List.forall_mem_append.mpr ⟨hbody, hmore⟩
    | @loneReturn after hne =>
      by_cases hhead : (after ++ w).head? = some '\n'
      · -- nothing stands between the carriage return and the line feed of the blanks
        cases after with
        | cons c after => exact absurd hhead hne
        | nil =>
          cases w with
          | nil => simp at hhead
          | cons c w =>
            obtain rfl : c = '\n' := by simpa using hhead
            refine .inr ⟨⟨opening, body, ['\r', '\n']⟩, w, ⟨by decide, ?_, ?_, .refl body⟩,
              .mk hbody (.returnFeed w)⟩
            · exact hw.of_suffix (List.suffix_cons '\n' w)
            · simp [Span.text]
      · exact .inl (.mk hbody (.loneReturn hhead))

end Comment

/-! ## Tokens before blanks -/

namespace Token

open Comment

variable {g : Grammar} {w : List Char}

/-- A literal before blanks is closed before them. -/
theorem exists_isLiteral_of_append {s rest : List Char} {span : Span} (hw : Blank w)
    (h : IsLiteral g span rest) (hs : span.text ++ rest = s ++ w) :
    ∃ span' rest', IsLiteral g span' rest' ∧ span'.text ++ rest' = s := by
  have hhead := Text.head?_isBlank hw
  -- what ends in a quote ends before the blanks
  have hquoted {quote : Char} {body rest : List Char} (hq : Dense [quote])
      (he : quote :: (body ++ quote :: rest) = s ++ w) :
      ∃ t, s = quote :: (body ++ quote :: t) ∧ rest = t ++ w := by
    have hlast : (quote :: (body ++ [quote])).getLast? = some quote := by
      rw [← List.cons_append, List.getLast?_concat]
    have heq : s ++ w = quote :: (body ++ [quote]) ++ rest := by
      rw [← he, List.cons_append, List.append_assoc, List.singleton_append]
    obtain ⟨t, rfl, rfl⟩ := Text.exists_of_append_eq_append_blank hlast
      (hq quote List.mem_cons_self) hw heq
    exact ⟨t, by simp, rfl⟩
  cases h with
  | @long d _ _ hd _ =>
    rw [hs, Grammar.longStringAt?_append hhead] at hd
    exact exists_isLiteral_of_longStringAt? hd
  | @char body _ hl hc hb =>
    have he : '\'' :: (body ++ '\'' :: rest) = s ++ w := by simpa [Span.text] using hs
    rw [he, Grammar.longStringAt?_append hhead] at hl
    obtain ⟨t, rfl, -⟩ := hquoted (by decide) he
    exact ⟨_, t, .char hl hc hb, by simp [Span.text]⟩
  | @string quote body _ hl hq hb =>
    have he : quote :: (body ++ quote :: rest) = s ++ w := by simpa [Span.text] using hs
    rw [he, Grammar.longStringAt?_append hhead] at hl
    obtain ⟨t, rfl, -⟩ := hquoted (Grammar.dense_of_mem_quotes hq) he
    exact ⟨_, t, .string hl hq hb, by simp [Span.text]⟩

theorem noLiteral_append {s : List Char} (hw : Blank w) (h : NoLiteral g s) :
    NoLiteral g (s ++ w) := by
  intro span rest hl hs
  obtain ⟨span', rest', hl', hs'⟩ := exists_isLiteral_of_append hw hl hs
  exact h span' rest' hl' hs'

/-- The token `t` before the blanks `rest` takes in some of the blanks `w`
behind them. Then it is `u`, of the same kind, and `tail` is what is left. -/
inductive Stretches (rest w : List Char) : Token → Token → List Char → Prop
  | block {a b : Span} {tail : List Char} :
      a.Stretches rest w b tail → Stretches rest w (block a) (block b) tail
  | line {a b : Span} {tail : List Char} :
      a.Stretches rest w b tail → Stretches rest w (line a) (line b) tail
  | literal {a b : Span} {tail : List Char} :
      a.Stretches rest w b tail → Stretches rest w (literal a) (literal b) tail

theorem IsComment.append {t : Token} {rest : List Char} (hw : Blank w) (h : IsComment g t rest) :
    IsComment g t (rest ++ w) ∨ ∃ u tail, Stretches rest w t u tail ∧ IsComment g u tail := by
  have hhead := Text.head?_isBlank hw
  cases h with
  | @block d span _ hd he =>
    obtain ⟨-, hdense, hne⟩ := Grammar.dense_of_mem_blocks (List.mem_of_find?_eq_some hd)
    rcases he.append hdense hne hw with he | ⟨span', tail, hst, he⟩
    · refine .inl (.block ?_ he)
      rw [← List.append_assoc, Grammar.blockAt?_append hhead, hd]
    · refine .inr ⟨_, tail, .block hst, .block ?_ he⟩
      rw [hst.text, Grammar.blockAt?_append hhead, hd]
  | @line opening span _ hd ho he =>
    rcases he.append hw with he | ⟨span', tail, hst, he⟩
    · refine .inl (.line ?_ ho he)
      rw [← List.append_assoc, Grammar.blockAt?_append hhead, hd]
    · refine .inr ⟨_, tail, .line hst, .line ?_ ho he⟩
      rw [hst.text, Grammar.blockAt?_append hhead, hd]

theorem IsLiteral.append {span : Span} {rest : List Char} (hw : Blank w)
    (h : IsLiteral g span rest) :
    IsLiteral g span (rest ++ w) ∨
      ∃ span' tail, span.Stretches rest w span' tail ∧ IsLiteral g span' tail := by
  have hhead := Text.head?_isBlank hw
  cases h with
  | @long d _ _ hd he =>
    have hmem := List.mem_of_find?_eq_some hd
    rcases he.append (Grammar.dense_of_mem_longStrings hmem) (Grammar.ne_nil_of_mem_longStrings hmem)
      hw with he | ⟨span', tail, hst, he⟩
    · refine .inl (.long ?_ he)
      rw [← List.append_assoc, Grammar.longStringAt?_append hhead, hd]
    · refine .inr ⟨span', tail, hst, .long ?_ he⟩
      rw [hst.text, Grammar.longStringAt?_append hhead, hd]
  | @char body _ hl hc hb =>
    refine .inl (.char ?_ hc hb)
    have hlong := Grammar.longStringAt?_append (g := g) hhead ('\'' :: (body ++ '\'' :: rest))
    rw [hl] at hlong
    simpa using hlong
  | @string quote body _ hl hq hb =>
    refine .inl (.string ?_ hq hb)
    have hlong := Grammar.longStringAt?_append (g := g) hhead (quote :: (body ++ quote :: rest))
    rw [hl] at hlong
    simpa using hlong

/-- **The first token of a text before blanks** is that of the text, or
takes blanks in and has nothing else behind it. -/
theorem Leads.append {t : Token} {rest : List Char} (hw : Blank w) (h : Leads g t rest) :
    Leads g t (rest ++ w) ∨ ∃ u tail, Stretches rest w t u tail ∧ Leads g u tail := by
  have hhead := Text.head?_isBlank hw
  cases h with
  | comment hc =>
    rcases hc.append hw with hc | ⟨u, tail, hst, hc⟩
    · exact .inl (.comment hc)
    · exact .inr ⟨u, tail, hst, .comment hc⟩
  | @literal span _ hn hl =>
    rw [← noComment_append_iff hhead] at hn
    rcases hl.append hw with hl | ⟨span', tail, hst, hl⟩
    · rw [List.append_assoc] at hn
      exact .inl (.literal hn hl)
    · rw [← hst.text] at hn
      exact .inr ⟨_, tail, .literal hst, .literal hn hl⟩
  | code hn hl =>
    rw [← noComment_append_iff hhead] at hn
    exact .inl (.code hn (noLiteral_append hw hl))

end Token

/-! ## Comments before blanks -/

/-- The region `s` is `r` with blanks behind its body. -/
structure Region.Padded (r s : Region) : Prop where
  line : s.line = r.line
  block : s.block = r.block
  body : Comment.Padded r.body s.body

namespace Token

variable {g : Grammar} {w : List Char}

theorem Stretches.forall₂_padded_onLine? {rest tail : List Char} {t u : Token}
    (h : Stretches rest w t u tail) (line : Nat) :
    List.Forall₂ Region.Padded (Region.onLine? line t).toList (Region.onLine? line u).toList := by
  cases h with
  | block hst | line hst => exact .cons ⟨rfl, rfl, hst.body⟩ .nil
  | literal _ => exact .nil

theorem Stretches.blank {rest tail : List Char} {t u : Token} (h : Stretches rest w t u tail) :
    Blank rest ∧ Blank tail ∧ u.text ++ tail = t.text ++ rest ++ w := by
  cases h with
  | block hst | line hst | literal hst => exact ⟨hst.blank_rest, hst.blank_tail, hst.text⟩

theorem forall₂_padded_onLine? (line : Nat) (t : Token) :
    List.Forall₂ Region.Padded (Region.onLine? line t).toList (Region.onLine? line t).toList :=
  List.forall₂_same.mpr fun r _ => ⟨rfl, rfl, .refl r.body⟩

/-- Blanks have no comments. -/
theorem ofTokens_map_code (line : Nat) (s : List Char) :
    Region.ofTokens line (s.map code) = [] := by
  have h := Region.ofTokens_map_code_append line s []
  rwa [List.append_nil] at h

/-- **A text before blanks is divided like the text**: token by token, up
to the one that takes blanks in. -/
theorem Segmentation.append {s : List Char} {ts : List Token} (hw : Blank w)
    (h : Segmentation g s ts) :
    ∃ us, Segmentation g (s ++ w) us ∧
      ∀ line, List.Forall₂ Region.Padded (Region.ofTokens line ts) (Region.ofTokens line us) := by
  induction h with
  | nil =>
    refine ⟨w.map code, segmentation_of_blank hw, ?_⟩
    intro line
    rw [ofTokens_map_code]
    exact .nil
  | @cons t rest ts hlead hseg ih =>
    rcases hlead.append hw with hlead | ⟨u, tail, hst, hlead⟩
    · obtain ⟨us, hus, hregions⟩ := ih
      refine ⟨t :: us, ?_, ?_⟩
      · rw [List.append_assoc]
        exact .cons hlead hus
      · intro line
        rw [Region.ofTokens_cons, Region.ofTokens_cons]
        exact List.rel_append (forall₂_padded_onLine? line t) (hregions _)
    · obtain ⟨hrest, htail, htext⟩ := hst.blank
      -- on both sides nothing but blanks is left
      have hts : ts = rest.map code := by
        rw [eq_divide_of_segmentation hseg, ← eq_divide_of_segmentation (segmentation_of_blank hrest)]
      refine ⟨u :: tail.map code, ?_, ?_⟩
      · rw [← htext]
        exact .cons hlead (segmentation_of_blank htail)
      · intro line
        rw [hts, Region.ofTokens_cons, Region.ofTokens_cons, ofTokens_map_code, ofTokens_map_code,
          List.append_nil, List.append_nil]
        exact hst.forall₂_padded_onLine? line

end Token

theorem Region.Padded.notes_eq {r s : Region} (h : r.Padded s) (g : Grammar) (file : String) :
    Comment.notes g file s = Comment.notes g file r := by
  obtain ⟨hline, hblock, w, hw, hbody⟩ := h
  rw [← Comment.notes_append hw g file r, ← hbody, ← hline, ← hblock]

theorem flatMap_notes_of_forall₂_padded {rs ss : List Region}
    (h : List.Forall₂ Region.Padded rs ss) (g : Grammar) (file : String) :
    ss.flatMap (Comment.notes g file) = rs.flatMap (Comment.notes g file) := by
  induction h with
  | nil => rfl
  | cons hpadded _ ih => rw [List.flatMap_cons, List.flatMap_cons, ih, hpadded.notes_eq]

/-- **Blanks behind a text do not matter.** Whatever is open at its end,
with any blanks behind it, line feeds and carriage returns among them, a
text has the notes that it has without them. -/
theorem extract_append_of_blank (g : Grammar) (file : String) (content : List Char)
    {w : List Char} (hw : Blank w) : extract g file (content ++ w) = extract g file content := by
  obtain ⟨us, hseg, hregions⟩ := (Token.segmentation_divide g content).append hw
  rw [extract, Region.all, ← Token.eq_divide_of_segmentation hseg, extract, Region.all]
  exact flatMap_notes_of_forall₂_padded (hregions 1) g file

/-- A comment that is never closed, with a keyword at its end. The blanks
are taken in by the comment, and by the separator of the keyword. -/
theorem extract_append_of_blank_unclosed :
    Blank " \t\r\n\n".toList ∧
    extract .cStyle "a.js" ("/* TODO: b\n * FIXME".toList ++ " \t\r\n\n".toList) =
      [⟨.todo, "b", "a.js", 1⟩, ⟨.fixme, "", "a.js", 2⟩] := by
  have hw : Blank " \t\r\n\n".toList := by decide +kernel
  refine ⟨hw, ?_⟩
  rw [extract_append_of_blank .cStyle "a.js" _ hw]
  decide +kernel

end Marginalia
