import Marginalia.Comment.Region
import Marginalia.Proofs.Comment.Form
import Marginalia.Proofs.Comment.Literal

/-!
# Segmentation of a source text

What the division of a text into tokens is, said without the scanner.
`Leads` says which token stands at a point, by the four forms in their
order: a comment, else a literal, else one character of code; the order
within a form is that of the grammar's tables. `Segmentation` puts such
tokens one after another up to the end of the text.

Each reader is characterised by an equivalence, so `first` is the one
token that leads (`first_eq_iff`) and the division is the one
segmentation (`segmentation_iff`). The regions are read off it: the body
of each comment, with the line feeds of the tokens before it.
-/

namespace Marginalia

namespace Grammar

/-- The first block delimiters whose opening the text starts with. -/
def blockAt? (g : Grammar) (s : List Char) : Option Delimiters :=
  g.blocks.find? (·.opening.isPrefixOf s)

/-- The first delimiter of long strings that the text starts with. -/
def longStringAt? (g : Grammar) (s : List Char) : Option (List Char) :=
  g.longStrings.find? (·.isPrefixOf s)

theorem prefix_of_blockAt? {g : Grammar} {s : List Char} {d : Delimiters}
    (h : g.blockAt? s = some d) : d.opening <+: s := by
  have hp := List.find?_some h
  exact List.isPrefixOf_iff_prefix.mp hp

theorem prefix_of_longStringAt? {g : Grammar} {s d : List Char}
    (h : g.longStringAt? s = some d) : d <+: s := by
  have hp := List.find?_some h
  exact List.isPrefixOf_iff_prefix.mp hp

/-- No quote is a backslash, so an escape never closes a string. -/
theorem ne_backslash_of_mem_quotes {g : Grammar} {quote : Char} (h : quote ∈ g.quotes) :
    quote ≠ '\\' := by
  rintro rfl
  cases g <;> simp [quotes] at h

/-- Where apostrophes open single characters they open no strings. -/
theorem not_mem_quotes_of_charLiterals {g : Grammar} (h : g.charLiterals = true) :
    '\'' ∉ g.quotes := by
  cases g <;> simp [charLiterals] at h
  simp [quotes]

end Grammar

namespace Token

open Comment

/-- A comment that stands before `rest`: the first block form that fits,
and a comment to the end of the line where no block form does. -/
inductive IsComment (g : Grammar) : Token → List Char → Prop
  | block {d : Delimiters} {span : Span} {rest : List Char} :
      g.blockAt? (span.text ++ rest) = some d → Enclosed d.opening d.closing span rest →
      IsComment g (block span) rest
  | line {opening : List Char} {span : Span} {rest : List Char} :
      g.blockAt? (span.text ++ rest) = none → g.lineOpening? = some opening →
      ToLineEnd opening span rest → IsComment g (line span) rest

/-- A literal that stands before `rest`: the first long string that fits,
and a character or a string in quotes where none does. -/
inductive IsLiteral (g : Grammar) : Span → List Char → Prop
  | long {d : List Char} {span : Span} {rest : List Char} :
      g.longStringAt? (span.text ++ rest) = some d → Enclosed d d span rest →
      IsLiteral g span rest
  | char {body rest : List Char} :
      g.longStringAt? ('\'' :: (body ++ '\'' :: rest)) = none → g.charLiterals = true →
      CharBody body → IsLiteral g ⟨['\''], body, ['\'']⟩ rest
  | string {quote : Char} {body rest : List Char} :
      g.longStringAt? (quote :: (body ++ quote :: rest)) = none → quote ∈ g.quotes →
      StringBody quote (g.spansLines quote) body → IsLiteral g ⟨[quote], body, [quote]⟩ rest

/-- The text starts with no comment. -/
def NoComment (g : Grammar) (s : List Char) : Prop :=
  ∀ t rest, IsComment g t rest → t.text ++ rest ≠ s

/-- The text starts with no literal. -/
def NoLiteral (g : Grammar) (s : List Char) : Prop :=
  ∀ span rest, IsLiteral g span rest → span.text ++ rest ≠ s

/-- **The token that leads a text.** -/
inductive Leads (g : Grammar) : Token → List Char → Prop
  | comment {t : Token} {rest : List Char} : IsComment g t rest → Leads g t rest
  | literal {span : Span} {rest : List Char} :
      NoComment g (span.text ++ rest) → IsLiteral g span rest → Leads g (literal span) rest
  | code {c : Char} {rest : List Char} :
      NoComment g (c :: rest) → NoLiteral g (c :: rest) → Leads g (code c) rest

/-- **A segmentation**: tokens one after another, each the one that leads
what is left. -/
inductive Segmentation (g : Grammar) : List Char → List Token → Prop
  | nil : Segmentation g [] []
  | cons {t : Token} {rest : List Char} {ts : List Token} :
      Leads g t rest → Segmentation g rest ts → Segmentation g (t.text ++ rest) (t :: ts)

/-! ## The leading token -/

/-- A search through a table that answers where a test says so answers
for the first entry that passes the test. -/
theorem findSome?_eq_bind_find? {α β : Type} {l : List α} {f : α → Option β} {p : α → Bool}
    (h : ∀ a, (f a).isSome = p a) : l.findSome? f = (l.find? p).bind f := by
  induction l with
  | nil => rfl
  | cons a l ih =>
    rw [List.findSome?_cons, List.find?_cons, ← h a]
    cases hf : f a with
    | none => simpa using ih
    | some b => simp [hf]

/-- And it answers nothing where no entry passes. -/
theorem find?_eq_none_of_findSome? {α β : Type} {l : List α} {f : α → Option β} {p : α → Bool}
    (h : ∀ a, (f a).isSome = p a) (hn : l.findSome? f = none) : l.find? p = none := by
  rw [List.find?_eq_none]
  intro a ha
  rw [← h a, List.findSome?_eq_none_iff.mp hn a ha]
  simp

/-- An enclosed text is found where its opening stands. -/
theorem isSome_found?_readEnclosed (opening closing s : List Char) :
    (found? (readEnclosed opening closing s)).isSome = opening.isPrefixOf s := by
  rw [Bool.eq_iff_iff, List.isPrefixOf_iff_prefix]
  constructor
  · intro h
    obtain ⟨⟨span, rest⟩, hf⟩ := Option.isSome_iff_exists.mp h
    obtain ⟨he, rfl⟩ := readEnclosed_eq_ok_iff.mp (eq_ok_of_found? hf)
    exact prefix_of_enclosed he
  · intro h
    obtain ⟨found, hr⟩ := exists_readEnclosed closing h
    rw [hr]
    rfl

/-- **The comments that are found.** -/
theorem comment?_eq_some_iff {g : Grammar} {s rest : List Char} {t : Token} :
    comment? g s = some (t, rest) ↔ IsComment g t rest ∧ t.text ++ rest = s := by
  -- a block form is found wherever it opens, so the search is one for the opening
  have hfind := fun d : Delimiters => isSome_found?_readEnclosed d.opening d.closing s
  unfold comment?
  constructor
  · intro h
    split at h
    · next span after hb =>
      obtain ⟨rfl, rfl⟩ := Prod.mk.inj (Option.some.inj h)
      rw [findSome?_eq_bind_find? hfind] at hb
      obtain ⟨d, hd, hr⟩ := Option.bind_eq_some_iff.mp hb
      obtain ⟨he, rfl⟩ := readEnclosed_eq_ok_iff.mp (eq_ok_of_found? hr)
      exact ⟨.block hd he, rfl⟩
    · next hb =>
      have hnone : g.blockAt? s = none := find?_eq_none_of_findSome? hfind hb
      split at h
      · next span after hl =>
        obtain ⟨rfl, rfl⟩ := Prod.mk.inj (Option.some.inj h)
        obtain ⟨opening, ho, hr⟩ := Option.bind_eq_some_iff.mp hl
        obtain ⟨he, rfl⟩ := readLine_eq_ok_iff.mp (eq_ok_of_found? hr)
        exact ⟨.line hnone ho he, rfl⟩
      · simp at h
  · rintro ⟨h, rfl⟩
    rw [findSome?_eq_bind_find? hfind]
    cases h with
    | @block d span _ hd he =>
      have hr := readEnclosed_eq_ok_iff.mpr ⟨he, rfl⟩
      rw [Grammar.blockAt?] at hd
      simp [text, hd, hr, found?]
    | @line opening span _ hd ho he =>
      have hr := readLine_eq_ok_iff.mpr ⟨he, rfl⟩
      rw [Grammar.blockAt?] at hd
      simp [text, hd, ho, hr, found?]

theorem comment?_eq_none_iff {g : Grammar} {s : List Char} :
    comment? g s = none ↔ NoComment g s := by
  constructor
  · intro h t rest hc hs
    have := comment?_eq_some_iff.mpr ⟨hc, hs⟩
    simp [h] at this
  · intro hn
    rw [Option.eq_none_iff_forall_ne_some]
    rintro ⟨t, rest⟩ h
    obtain ⟨hc, hs⟩ := comment?_eq_some_iff.mp h
    exact hn t rest hc hs

/-- **Where no comment starts**: where none of its openings stands. -/
theorem noComment_iff {g : Grammar} {s : List Char} :
    NoComment g s ↔ g.blockAt? s = none ∧ ∀ o, g.lineOpening? = some o → ¬ o <+: s := by
  constructor
  · intro hn
    have hblock : g.blockAt? s = none := by
      rw [Option.eq_none_iff_forall_ne_some]
      intro d hd
      obtain ⟨⟨span, rest⟩, hr⟩ := exists_readEnclosed d.closing (Grammar.prefix_of_blockAt? hd)
      obtain ⟨he, rfl⟩ := readEnclosed_eq_ok_iff.mp hr
      exact hn _ _ (.block hd he) rfl
    refine ⟨hblock, ?_⟩
    intro o ho hopen
    obtain ⟨⟨span, rest⟩, hr⟩ := exists_readLine hopen
    obtain ⟨he, rfl⟩ := readLine_eq_ok_iff.mp hr
    exact hn _ _ (.line hblock ho he) rfl
  · rintro ⟨hblock, hline⟩ t rest hc rfl
    cases hc with
    | block hd _ =>
      rw [text, hd] at hblock
      simp at hblock
    | line _ ho he =>
      cases he
      exact hline _ ho (by simp [text, Span.text])

/-- A quoted literal that is found, where no long string starts. -/
theorem isLiteral_of_quoted? {g : Grammar} {s rest : List Char} {span : Span}
    (hl : g.longStringAt? s = none) (h : quoted? g s = some (span, rest)) :
    IsLiteral g span rest ∧ span.text ++ rest = s := by
  refine ⟨?_, (text_append_of_quoted? h).1⟩
  unfold quoted? at h
  split at h
  · simp at h
  · split at h
    · next hc =>
      rw [Bool.and_eq_true, beq_iff_eq] at hc
      obtain ⟨body, rfl, hb, hs⟩ := readChar_eq_ok_iff.mp (eq_ok_of_found? h)
      rw [hs] at hl
      exact .char hl hc.1 hb
    · split at h
      · next hq =>
        rw [List.contains_iff_mem] at hq
        have hne := Grammar.ne_backslash_of_mem_quotes hq
        obtain ⟨body, rfl, hb, hs⟩ := (readString_eq_ok_iff hne).mp (eq_ok_of_found? h)
        rw [hs] at hl
        exact .string hl hq hb
      · simp at h

/-- **The literals that are found.** -/
theorem literal?_eq_some_iff {g : Grammar} {s rest : List Char} {t : Token} :
    literal? g s = some (t, rest) ↔
      ∃ span, t = literal span ∧ IsLiteral g span rest ∧ span.text ++ rest = s := by
  have hfind := fun d : List Char => isSome_found?_readEnclosed d d s
  unfold literal?
  constructor
  · intro h
    split at h
    · next span after hb =>
      obtain ⟨rfl, rfl⟩ := Prod.mk.inj (Option.some.inj h)
      rw [findSome?_eq_bind_find? hfind] at hb
      obtain ⟨d, hd, hr⟩ := Option.bind_eq_some_iff.mp hb
      obtain ⟨he, rfl⟩ := readEnclosed_eq_ok_iff.mp (eq_ok_of_found? hr)
      exact ⟨span, rfl, .long hd he, rfl⟩
    · next hb =>
      have hnone : g.longStringAt? s = none := find?_eq_none_of_findSome? hfind hb
      split at h
      · next span after hq =>
        obtain ⟨rfl, rfl⟩ := Prod.mk.inj (Option.some.inj h)
        exact ⟨span, rfl, isLiteral_of_quoted? hnone hq⟩
      · simp at h
  · rintro ⟨span, rfl, h, rfl⟩
    rw [findSome?_eq_bind_find? hfind]
    cases h with
    | @long d _ _ hd he =>
      have hr := readEnclosed_eq_ok_iff.mpr ⟨he, rfl⟩
      rw [Grammar.longStringAt?] at hd
      simp [hd, hr, found?]
    | @char body _ hl hc hb =>
      have hr : readChar ('\'' :: (body ++ '\'' :: rest)) = .ok (⟨['\''], body, ['\'']⟩, rest) :=
        readChar_eq_ok_iff.mpr ⟨body, rfl, hb, rfl⟩
      rw [Grammar.longStringAt?] at hl
      simp [Span.text, hl, quoted?, hc, hr, found?]
    | @string quote body _ hl hq hb =>
      have hne := Grammar.ne_backslash_of_mem_quotes hq
      have hr : readString quote (g.spansLines quote) (quote :: (body ++ quote :: rest)) =
          .ok (⟨[quote], body, [quote]⟩, rest) :=
        (readString_eq_ok_iff hne).mpr ⟨body, rfl, hb, rfl⟩
      rw [Grammar.longStringAt?] at hl
      -- an apostrophe that opens strings opens no single characters
      have hchar : (g.charLiterals && quote == '\'') = false := by
        cases hc : g.charLiterals with
        | false => rfl
        | true =>
          rw [Bool.true_and, beq_eq_false_iff_ne]
          rintro rfl
          exact Grammar.not_mem_quotes_of_charLiterals hc hq
      simp [Span.text, hl, quoted?, hchar, hq, hr, found?]

theorem literal?_eq_none_iff {g : Grammar} {s : List Char} :
    literal? g s = none ↔ NoLiteral g s := by
  constructor
  · intro h span rest hl hs
    have := literal?_eq_some_iff.mpr ⟨span, rfl, hl, hs⟩
    simp [h] at this
  · intro hn
    rw [Option.eq_none_iff_forall_ne_some]
    rintro ⟨t, rest⟩ h
    obtain ⟨span, -, hl, hs⟩ := literal?_eq_some_iff.mp h
    exact hn span rest hl hs

/-- A long string starts wherever its delimiter stands. -/
theorem exists_isLiteral_of_longStringAt? {g : Grammar} {s d : List Char}
    (h : g.longStringAt? s = some d) :
    ∃ span rest, IsLiteral g span rest ∧ span.text ++ rest = s := by
  obtain ⟨⟨span, rest⟩, hr⟩ := exists_readEnclosed d (Grammar.prefix_of_longStringAt? h)
  obtain ⟨he, rfl⟩ := readEnclosed_eq_ok_iff.mp hr
  exact ⟨span, rest, .long h he, rfl⟩

/-- **The first token is the one that leads.** -/
theorem first_eq_iff {g : Grammar} {c : Char} {s rest : List Char} {t : Token} :
    first g c s = (t, rest) ↔ Leads g t rest ∧ t.text ++ rest = c :: s := by
  constructor
  · intro h
    have htext := first_append g c s
    rw [h] at htext
    refine ⟨?_, htext⟩
    unfold first at h
    split at h
    · next found hc =>
      rw [h] at hc
      exact .comment (comment?_eq_some_iff.mp hc).1
    · next hc =>
      rw [comment?_eq_none_iff] at hc
      split at h
      · next found hl =>
        rw [h] at hl
        obtain ⟨span, rfl, hlit, hs⟩ := literal?_eq_some_iff.mp hl
        rw [← hs] at hc
        exact .literal hc hlit
      · next hl =>
        obtain ⟨rfl, rfl⟩ := Prod.mk.inj h
        exact .code hc (literal?_eq_none_iff.mp hl)
  · rintro ⟨h, hs⟩
    unfold first
    cases h with
    | comment hc => rw [comment?_eq_some_iff.mpr ⟨hc, hs⟩]
    | literal hn hl =>
      rw [← hs, text, comment?_eq_none_iff.mpr hn, literal?_eq_some_iff.mpr ⟨_, rfl, hl, rfl⟩]
    | @code d _ hn hl =>
      obtain ⟨rfl, rfl⟩ : d = c ∧ rest = s := by simpa [text] using hs
      rw [comment?_eq_none_iff.mpr hn, literal?_eq_none_iff.mpr hl]

/-- No form is empty, since something opens each of them. -/
theorem text_ne_nil_of_leads {g : Grammar} {t : Token} {rest : List Char}
    (h : Leads g t rest) : t.text ≠ [] := by
  cases h with
  | comment hc =>
    cases hc with
    | @block d span _ hd he =>
      exact text_ne_nil (opening_of_enclosed he)
        (Grammar.opening_ne_nil_of_mem_blocks (List.mem_of_find?_eq_some hd))
    | line _ ho he =>
      cases he
      exact text_ne_nil rfl (Grammar.ne_nil_of_lineOpening? ho)
  | literal _ hl =>
    cases hl with
    | long hd he =>
      exact text_ne_nil (opening_of_enclosed he)
        (Grammar.ne_nil_of_mem_longStrings (List.mem_of_find?_eq_some hd))
    | char => exact text_ne_nil rfl (by simp)
    | string => exact text_ne_nil rfl (by simp)
  | code => simp [text]

/-! ## The division -/

/-- The tokens already found stand before the others. -/
theorem divideOnto_append (g : Grammar) (done earlier : List Token) (s : List Char) :
    divideOnto g (done ++ earlier) s = earlier.reverse ++ divideOnto g done s := by
  induction done, s using divideOnto.induct g with
  | case1 done => simp [divideOnto]
  | case2 done c s ih =>
    rw [divideOnto, ← List.cons_append, ih]
    conv_rhs => rw [divideOnto]

@[simp] theorem divide_nil (g : Grammar) : divide g [] = [] := by
  simp [divide, divideOnto]

theorem divide_cons (g : Grammar) (c : Char) (s : List Char) :
    divide g (c :: s) = (first g c s).1 :: divide g (first g c s).2 := by
  rw [divide, divideOnto]
  exact divideOnto_append g [] [(first g c s).1] (first g c s).2

/-- **The division is a segmentation.** By induction on the length of
what is left: each token is the one that leads, and something is left
off it. -/
theorem segmentation_divide (g : Grammar) (s : List Char) : Segmentation g s (divide g s) := by
  induction hn : s.length using Nat.strong_induction_on generalizing s with
  | _ n ih =>
    cases s with
    | nil =>
      rw [divide_nil]
      exact .nil
    | cons c s =>
      obtain ⟨hlead, htext⟩ :=
        first_eq_iff.mp (show first g c s = ((first g c s).1, (first g c s).2) from rfl)
      have hlt : (first g c s).2.length < n := by
        rw [← hn]
        exact length_first_lt g c s
      rw [divide_cons]
      nth_rewrite 1 [← htext]
      exact .cons hlead (ih _ hlt _ rfl)

/-- **And the only one**: what leads a text is decided by the text. -/
theorem eq_divide_of_segmentation {g : Grammar} {s : List Char} {ts : List Token}
    (h : Segmentation g s ts) : ts = divide g s := by
  induction h with
  | nil => rw [divide_nil]
  | @cons t rest ts hlead _ ih =>
    obtain ⟨c, s, hs⟩ : ∃ c s, t.text ++ rest = c :: s := by
      refine List.exists_cons_of_ne_nil ?_
      intro hnil
      exact text_ne_nil_of_leads hlead (List.append_eq_nil_iff.mp hnil).1
    have hfirst : first g c s = (t, rest) := first_eq_iff.mpr ⟨hlead, hs⟩
    rw [hs, divide_cons, hfirst, ih]

theorem segmentation_iff {g : Grammar} {s : List Char} {ts : List Token} :
    Segmentation g s ts ↔ ts = divide g s := by
  constructor
  · exact eq_divide_of_segmentation
  · rintro rfl
    exact segmentation_divide g s

/-- The tokens of a segmentation put together are the text. -/
theorem flatMap_text_of_segmentation {g : Grammar} {s : List Char} {ts : List Token}
    (h : Segmentation g s ts) : ts.flatMap text = s := by
  induction h with
  | nil => rfl
  | cons _ _ ih => rw [List.flatMap_cons, ih]

theorem text_ne_nil_of_segmentation {g : Grammar} {s : List Char} {ts : List Token}
    (h : Segmentation g s ts) : ∀ t ∈ ts, t.text ≠ [] := by
  induction h with
  | nil => simp
  | @cons t rest ts hlead _ ih =>
    intro u hu
    rcases List.mem_cons.mp hu with rfl | hu
    · exact text_ne_nil_of_leads hlead
    · exact ih u hu

/-- Each token of a segmentation leads something. -/
theorem exists_leads_of_mem {g : Grammar} {s : List Char} {ts : List Token}
    (h : Segmentation g s ts) {t : Token} (ht : t ∈ ts) : ∃ rest, Leads g t rest := by
  induction h with
  | nil => simp at ht
  | @cons u rest ts hlead _ ih =>
    rcases List.mem_cons.mp ht with rfl | ht
    · exact ⟨rest, hlead⟩
    · exact ih ht

end Token

/-! ## The regions -/

namespace Region

/-- The region that a token starting on the given line is, if it is a
comment. -/
def onLine? (line : Nat) : Token → Option Region
  | .block span => some ⟨span.body, line, true⟩
  | .line span => some ⟨span.body, line, false⟩
  | .literal _ | .code _ => none

theorem ofTokens_cons (line : Nat) (t : Token) (ts : List Token) :
    ofTokens line (t :: ts) =
      (onLine? line t).toList ++ ofTokens (line + t.text.count '\n') ts := by
  cases t <;> rfl

/-- **Lines are counted as the tokens go by.** After the tokens `before`,
the scanner's line is one more than the line feeds in them. -/
theorem ofTokens_eq (before ts : List Token) :
    ofTokens (1 + (before.flatMap Token.text).count '\n') ts =
      (ts.zipIdx before.length).filterMap fun p =>
        onLine? (1 + (((before ++ ts).take p.2).flatMap Token.text).count '\n') p.1 := by
  induction ts generalizing before with
  | nil => rfl
  | cons t ts ih =>
    have hline : 1 + (before.flatMap Token.text).count '\n' + t.text.count '\n' =
        1 + ((before ++ [t]).flatMap Token.text).count '\n' := by
      rw [List.flatMap_append, List.count_append, List.flatMap_singleton]
      omega
    -- the token joins those before it, and the index of the next is one more
    have hrest := ih (before ++ [t])
    rw [List.append_assoc, List.singleton_append, List.length_append, List.length_singleton]
      at hrest
    rw [List.zipIdx_cons, List.filterMap_cons, List.take_left, ← hrest, ofTokens_cons, hline]
    cases onLine? (1 + (before.flatMap Token.text).count '\n') t <;> rfl

end Region

/-- **The comments of a text are those of its segmentation.** Every text
has one segmentation, and only one; its tokens are not empty and put
together they are the text; and the comments found are the bodies of its
comment tokens in order, each with its kind and on the line that the line
feeds of the tokens before it make. -/
theorem Region.all_eq_of_segmentation (g : Grammar) (content : List Char) :
    ∃ ts : List Token,
      (∀ us, Token.Segmentation g content us ↔ us = ts) ∧
      (∀ t ∈ ts, t.text ≠ []) ∧
      ts.flatMap Token.text = content ∧
      Region.all g content = ts.zipIdx.filterMap fun p =>
        Region.onLine? (1 + ((ts.take p.2).flatMap Token.text).count '\n') p.1 := by
  have hseg := Token.segmentation_divide g content
  refine ⟨Token.divide g content, fun us => Token.segmentation_iff,
    Token.text_ne_nil_of_segmentation hseg, Token.flatMap_text_of_segmentation hseg, ?_⟩
  exact Region.ofTokens_eq [] (Token.divide g content)

end Marginalia
