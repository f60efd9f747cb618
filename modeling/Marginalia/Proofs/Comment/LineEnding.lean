import Marginalia.Proofs.Comment.Delimiter
import Marginalia.Proofs.Comment.Mark
import Marginalia.Proofs.Text.CarriageReturn

/-!
# Line endings

A text may end its lines with line feeds alone or with a carriage return
before each. What the two have in common is their division into tokens:
`Token.crlf` gives for a token of the first the tokens of the second, and
a segmentation of the one is a segmentation of the other token by token
(`Token.segmentation_crlf`). The notes are the same, since they are read
line by line without the carriage returns.

There is one exception. A backslash hides one character, so in a literal
for one line it hides a line feed, but of a carriage return and a line
feed only the first. A literal that goes on over a line end in this way
(`Token.isContinued`) is none any more in the other text, and only such
literals part the two divisions (`Token.divide_crlf_iff`).
-/

namespace Marginalia

open Text (Unbroken)

/-- The span with a carriage return before each line feed. -/
def Span.crlf (span : Span) : Span :=
  ⟨Text.crlf span.opening, Text.crlf span.body, Text.crlf span.closing⟩

theorem Span.text_crlf (span : Span) : span.crlf.text = Text.crlf span.text := by
  simp [Span.text, Span.crlf]

namespace Comment

/-! ## Comments -/

/-- An enclosed text stays one, as its delimiters have no line end. -/
theorem Enclosed.crlf {opening closing rest : List Char} {span : Span} (ho : Unbroken opening)
    (hc : Unbroken closing) (hne : closing ≠ []) (h : Enclosed opening closing span rest) :
    Enclosed opening closing span.crlf (Text.crlf rest) := by
  cases h with
  | closed hf =>
    simp only [Span.crlf, Text.crlf_of_unbroken ho, Text.crlf_of_unbroken hc]
    exact .closed (hf.crlf hc hne)
  | unclosed hn =>
    simp only [Span.crlf, Text.crlf_of_unbroken ho]
    exact .unclosed fun hin => hn (Text.infix_of_infix_crlf hc hne hin)

/-- A line feed becomes a carriage return and a line feed, and the end of
the text stays. -/
theorem LineEnd.crlf {closing rest : List Char} (hcr : '\r' ∉ closing ++ rest)
    (h : LineEnd closing rest) : LineEnd (Text.crlf closing) (Text.crlf rest) := by
  cases h with
  | feed => exact .returnFeed _
  | endOfText => exact .endOfText
  | returnFeed | loneReturn => simp at hcr

theorem ToLineEnd.crlf {opening rest : List Char} {span : Span} (ho : Unbroken opening)
    (hcr : '\r' ∉ span.text ++ rest) (h : ToLineEnd opening span rest) :
    ToLineEnd opening span.crlf (Text.crlf rest) := by
  cases h with
  | @mk body closing _ hbody hend =>
    have hcr' : '\r' ∉ closing ++ rest := by
      intro hmem
      refine hcr ?_
      simp only [Span.text, List.append_assoc, List.mem_append] at hmem ⊢
      exact .inr (.inr hmem)
    simp only [Span.crlf, Text.crlf_of_unbroken ho, Text.crlf_of_unbroken hbody]
    exact .mk hbody (hend.crlf hcr')

/-! ## Literals -/

/-- After a plain character a body goes on. -/
theorem StringBody.of_cons {quote : Char} {spans : Bool} {c : Char} {body : List Char}
    (h : StringBody quote spans (c :: body)) (hc : c ≠ '\\') :
    c ≠ quote ∧ (c = '\n' → spans = true) ∧ StringBody quote spans body := by
  cases h with
  | escape => exact absurd rfl hc
  | plain _ hq hl hb => exact ⟨hq, hl, hb⟩

/-- And after a backslash with the character that it hides. -/
theorem StringBody.of_backslash {quote : Char} {spans : Bool} {body : List Char}
    (h : StringBody quote spans ('\\' :: body)) :
    ∃ c rest, body = c :: rest ∧ StringBody quote spans rest := by
  cases h with
  | @escape c rest hb => exact ⟨c, rest, rfl, hb⟩
  | plain hc => exact absurd rfl hc

/-- A body with carriage returns is one without them, and has a line feed
only where it may. By induction on the length, since an escape is two
characters long. -/
theorem stringBody_of_crlf {quote : Char} {spans : Bool} {body : List Char}
    (h : StringBody quote spans (Text.crlf body)) :
    StringBody quote spans body ∧ ('\n' ∈ body → spans = true) := by
  induction hlen : body.length using Nat.strongRecOn generalizing body with
  | ind n ih =>
    cases body with
    | nil => exact ⟨.nil, by simp⟩
    | cons c body =>
      rw [List.length_cons] at hlen
      by_cases hfeed : c = '\n'
      · subst hfeed
        rw [Text.crlf_feed] at h
        obtain ⟨hq, hspans, h⟩ := (h.of_cons (by decide)).2.2.of_cons (by decide)
        exact ⟨.plain (by decide) hq hspans (ih _ (by omega) h rfl).1, fun _ => hspans rfl⟩
      · rw [Text.crlf_cons_of_ne hfeed] at h
        by_cases hesc : c = '\\'
        · subst hesc
          obtain ⟨d, rest, hd, hrest⟩ := h.of_backslash
          cases body with
          | nil => simp at hd
          | cons e body =>
            rw [List.length_cons] at hlen
            by_cases he : e = '\n'
            · -- the backslash hides the carriage return, and the line feed is plain
              subst he
              rw [Text.crlf_feed, List.cons.injEq] at hd
              rw [← hd.2] at hrest
              obtain ⟨-, hspans, hbody⟩ := hrest.of_cons (by decide)
              exact ⟨.escape '\n' (ih _ (by omega) hbody rfl).1, fun _ => hspans rfl⟩
            · rw [Text.crlf_cons_of_ne he, List.cons.injEq] at hd
              rw [← hd.2] at hrest
              obtain ⟨hb, hspans⟩ := ih _ (by omega) hrest rfl
              refine ⟨.escape e hb, fun hmem => hspans ?_⟩
              simpa [Ne.symm he] using hmem
        · obtain ⟨hq, hl, h⟩ := h.of_cons hesc
          obtain ⟨hb, hspans⟩ := ih _ (by omega) h rfl
          refine ⟨.plain hesc hq hl hb, fun hmem => hspans ?_⟩
          simpa [Ne.symm hfeed] using hmem

/-- **The bodies of strings, with carriage returns.** A line feed that a
backslash hides is hidden no more, so the string has to be one that may
span lines. -/
theorem stringBody_crlf_iff {quote : Char} {spans : Bool} (hr : quote ≠ '\r') (hn : quote ≠ '\n')
    {body : List Char} :
    StringBody quote spans (Text.crlf body) ↔
      StringBody quote spans body ∧ ('\n' ∈ body → spans = true) := by
  constructor
  · exact stringBody_of_crlf
  · rintro ⟨h, hspans⟩
    induction h with
    | nil => exact .nil
    | @escape c body _ ih =>
      have ih := ih fun hmem => hspans (List.mem_cons_of_mem _ (List.mem_cons_of_mem _ hmem))
      rw [Text.crlf_cons_of_ne (by decide)]
      by_cases hc : c = '\n'
      · subst hc
        have hspans : spans = true := hspans (by simp)
        rw [Text.crlf_feed]
        exact .escape '\r' (.plain (by decide) (Ne.symm hn) (fun _ => hspans) ih)
      · rw [Text.crlf_cons_of_ne hc]
        exact .escape c ih
    | @plain c body hb hq hl _ ih =>
      have ih := ih fun hmem => hspans (List.mem_cons_of_mem _ hmem)
      by_cases hc : c = '\n'
      · subst hc
        rw [Text.crlf_feed]
        exact .plain (by decide) (Ne.symm hr) (by simp) (.plain hb hq hl ih)
      · rw [Text.crlf_cons_of_ne hc]
        exact .plain hb hq hl ih

/-- The digits of an escape are no line ends. -/
theorem unbroken_of_isHexDigit {digits : List Char}
    (h : ∀ d ∈ digits, Text.isHexDigit d = true) : Unbroken digits := by
  intro d hd
  have hx := h d hd
  constructor
  · rintro rfl
    exact absurd hx (by decide)
  · rintro rfl
    exact absurd hx (by decide)

/-- What is between apostrophes has no line end, but for the one character
that is hidden by a backslash or stands alone. -/
theorem CharBody.unbroken {body : List Char} (h : CharBody body)
    (hescape : ∀ c, body = ['\\', c] → c ≠ '\r' ∧ c ≠ '\n')
    (hplain : body ≠ ['\r']) : Unbroken body := by
  cases h with
  | @codePoint digits _ hd =>
    have hdigits := unbroken_of_isHexDigit hd
    simp only [Unbroken, List.forall_mem_cons, List.forall_mem_append] at hdigits ⊢
    exact ⟨by decide, by decide, by decide, hdigits, by decide, by simp⟩
  | @byte digits _ hd =>
    have hdigits := unbroken_of_isHexDigit hd
    simp only [Unbroken, List.forall_mem_cons] at hdigits ⊢
    exact ⟨by decide, by decide, hdigits⟩
  | escape c =>
    simp only [Unbroken, List.forall_mem_cons]
    exact ⟨by decide, hescape c rfl, by simp⟩
  | @plain c _ _ hl =>
    simp only [Unbroken, List.forall_mem_cons]
    refine ⟨⟨?_, hl⟩, by simp⟩
    rintro rfl
    exact hplain rfl

/-- A character literal among carriage returns has no line end: after a
carriage return stands a line feed and no apostrophe. -/
theorem unbroken_of_charBody {s body rest : List Char} (hs : '\r' ∉ s) (hb : CharBody body)
    (h : Text.crlf s = body ++ '\'' :: rest) : Unbroken body := by
  have hreturn {t u : List Char} (ht : '\r' ∉ t) : Text.crlf t ≠ '\r' :: '\'' :: u := by
    intro he
    obtain ⟨_, -, hfeed⟩ := Text.eq_feed_of_crlf ht he
    exact absurd (List.cons.inj hfeed).1 (by decide)
  refine hb.unbroken ?_ ?_
  · rintro c rfl
    obtain ⟨t, rfl, ht⟩ := Text.exists_of_crlf_eq_cons (by decide) h
    rw [List.mem_cons, not_or] at hs
    constructor
    · rintro rfl
      exact hreturn hs.2 ht
    · rintro rfl
      exact Text.crlf_ne_feed _ _ ht
  · rintro rfl
    exact hreturn hs h

/-- And where one has a line feed it is none with both. -/
theorem not_mem_of_charBody_crlf {s : List Char} (h : CharBody (Text.crlf s)) : '\n' ∉ s := by
  have hcount : '\n' ∉ Text.crlf s := by
    generalize hb : Text.crlf s = body at h
    intro hmem
    cases h with
    | @codePoint digits _ hd =>
      have hin : '\n' ∈ digits := by simpa using hmem
      exact (unbroken_of_isHexDigit hd '\n' hin).2 rfl
    | @byte digits _ hd =>
      have hin : '\n' ∈ digits := by simpa using hmem
      exact (unbroken_of_isHexDigit hd '\n' hin).2 rfl
    | escape c =>
      obtain rfl : '\n' = c := by simpa using hmem
      obtain ⟨t, -, ht⟩ := Text.exists_of_crlf_eq_cons (by decide) hb
      exact Text.crlf_ne_feed _ _ ht
    | plain _ _ hl => exact hl (List.mem_singleton.mp hmem).symm
  intro hmem
  have hpos := List.count_pos_iff.mpr hmem
  rw [← Text.count_crlf, List.count_pos_iff] at hpos
  exact hcount hpos

end Comment

/-! ## Grammars -/

namespace Grammar

/-- No delimiter of a block comment has a line end. -/
theorem unbroken_of_mem_blocks {g : Grammar} {d : Delimiters} (h : d ∈ g.blocks) :
    Unbroken d.opening ∧ Unbroken d.closing ∧ d.closing ≠ [] := by
  obtain ⟨hopening, hclosing, hne⟩ := dense_of_mem_blocks h
  exact ⟨hopening.unbroken, hclosing.unbroken, hne⟩

theorem unbroken_of_lineOpening? {g : Grammar} {o : List Char} (h : g.lineOpening? = some o) :
    Unbroken o :=
  (dense_of_lineOpening? h).unbroken

theorem unbroken_of_mem_longStrings {g : Grammar} {d : List Char} (h : d ∈ g.longStrings) :
    Unbroken d :=
  (dense_of_mem_longStrings h).unbroken

theorem unbroken_of_mem_quotes {g : Grammar} {quote : Char} (h : quote ∈ g.quotes) :
    Unbroken [quote] :=
  (dense_of_mem_quotes h).unbroken

theorem blockAt?_crlf (g : Grammar) (s : List Char) :
    g.blockAt? (Text.crlf s) = g.blockAt? s :=
  Text.find?_isPrefixOf_crlf (fun _ hd => (unbroken_of_mem_blocks hd).1) s

theorem longStringAt?_crlf (g : Grammar) (s : List Char) :
    g.longStringAt? (Text.crlf s) = g.longStringAt? s :=
  Text.find?_isPrefixOf_crlf (fun _ hd => unbroken_of_mem_longStrings hd) s

/-- Whether a literal that opens so may hold a line feed that no backslash
hides. -/
def mayBreak (g : Grammar) (opening : List Char) : Bool :=
  g.longStrings.contains opening || g.quotes.any fun q => opening == [q] && g.spansLines q

theorem mayBreak_of_mem_longStrings {g : Grammar} {d : List Char} (h : d ∈ g.longStrings) :
    g.mayBreak d = true := by
  simp [mayBreak, h]

/-- No quote is a delimiter of long strings. -/
theorem mayBreak_quote {g : Grammar} {quote : Char} (h : quote ∈ g.quotes) :
    g.mayBreak [quote] = g.spansLines quote := by
  have all : ∀ g : Grammar, g.quotes.all fun quote =>
      g.mayBreak [quote] = g.spansLines quote := by
    intro g
    cases g <;> rfl
  simpa using List.all_eq_true.mp (all g) quote h

/-- No character literal may. -/
theorem mayBreak_apostrophe {g : Grammar} (h : g.charLiterals = true) :
    g.mayBreak ['\''] = false := by
  cases g <;> simp [charLiterals] at h
  decide

end Grammar

namespace Token

open Comment

/-- The tokens of the same text with a carriage return before each line
feed, where the token stays whole. -/
def crlf : Token → List Token
  | block span => [block span.crlf]
  | line span => [line span.crlf]
  | literal span => [literal span.crlf]
  | code c => (Text.crlf [c]).map code

/-- Whether the token is a literal for one line that a backslash continues
on the next. -/
def isContinued (g : Grammar) : Token → Bool
  | literal span => span.body.contains '\n' && !g.mayBreak span.opening
  | block _ | line _ | code _ => false

theorem isContinued_literal_eq_false_iff {g : Grammar} {span : Span} :
    (literal span).isContinued g = false ↔
      ('\n' ∈ span.body → g.mayBreak span.opening = true) := by
  simp [isContinued]

/-! ## No comment and no literal -/

theorem noComment_crlf_iff {g : Grammar} {s : List Char} :
    NoComment g (Text.crlf s) ↔ NoComment g s := by
  rw [noComment_iff, noComment_iff, Grammar.blockAt?_crlf]
  refine and_congr_right fun _ => forall₂_congr fun o ho => ?_
  rw [Text.prefix_crlf_iff (Grammar.unbroken_of_lineOpening? ho)]

/-- **A literal among carriage returns is one without them**, though not
always the other way round. -/
theorem exists_isLiteral_of_crlf {g : Grammar} {s rest : List Char} {span : Span} (hs : '\r' ∉ s)
    (h : IsLiteral g span rest) (he : span.text ++ rest = Text.crlf s) :
    ∃ span' rest', IsLiteral g span' rest' ∧ span'.text ++ rest' = s := by
  cases h with
  | @long d _ _ hd _ =>
    rw [he, Grammar.longStringAt?_crlf] at hd
    exact exists_isLiteral_of_longStringAt? hd
  | @char body _ hl hc hb =>
    have he : Text.crlf s = '\'' :: (body ++ '\'' :: rest) := by simpa [Span.text] using he.symm
    rw [← he, Grammar.longStringAt?_crlf] at hl
    obtain ⟨inner, rfl, hinner⟩ := Text.exists_of_crlf_eq_cons (by decide) he
    have hu := unbroken_of_charBody (fun hmem => hs (List.mem_cons_of_mem _ hmem)) hb hinner
    obtain ⟨tail, rfl, htail⟩ := Text.exists_of_crlf_eq_left hu hinner
    obtain ⟨rest', rfl, -⟩ := Text.exists_of_crlf_eq_cons (by decide) htail
    exact ⟨_, rest', .char hl hc hb, by simp [Span.text]⟩
  | @string quote body _ hl hq hb =>
    have he : Text.crlf s = quote :: (body ++ quote :: rest) := by simpa [Span.text] using he.symm
    rw [← he, Grammar.longStringAt?_crlf] at hl
    have hu := Grammar.unbroken_of_mem_quotes hq
    obtain ⟨inner, rfl, hinner⟩ := Text.exists_of_crlf_eq_cons (hu quote List.mem_cons_self).1 he
    rw [List.append_cons] at hinner
    obtain ⟨body', rest', rfl, rfl, -⟩ := Text.exists_of_crlf_eq_append hu (by simp) hinner
    rw [List.append_assoc] at hl
    exact ⟨_, rest', .string hl hq (stringBody_of_crlf hb).1, by simp [Span.text]⟩

theorem noLiteral_crlf {g : Grammar} {s : List Char} (hs : '\r' ∉ s) (h : NoLiteral g s) :
    NoLiteral g (Text.crlf s) := by
  intro span rest hl he
  obtain ⟨span', rest', hl', he'⟩ := exists_isLiteral_of_crlf hs hl he
  exact h span' rest' hl' he'

/-! ## Segmentation -/

theorem IsComment.crlf {g : Grammar} {t : Token} {rest : List Char} (hcr : '\r' ∉ t.text ++ rest)
    (h : IsComment g t rest) :
    ∃ u, t.crlf = [u] ∧ u.text = Text.crlf t.text ∧ IsComment g u (Text.crlf rest) := by
  cases h with
  | @block d span _ hd he =>
    obtain ⟨ho, hc, hne⟩ := Grammar.unbroken_of_mem_blocks (List.mem_of_find?_eq_some hd)
    refine ⟨_, rfl, Span.text_crlf span, .block ?_ (he.crlf ho hc hne)⟩
    rw [Span.text_crlf, ← Text.crlf_append, Grammar.blockAt?_crlf]
    exact hd
  | @line opening span _ hd ho he =>
    refine ⟨_, rfl, Span.text_crlf span, .line ?_ ho ?_⟩
    · rw [Span.text_crlf, ← Text.crlf_append, Grammar.blockAt?_crlf]
      exact hd
    · exact he.crlf (Grammar.unbroken_of_lineOpening? ho) hcr

/-- A literal stays one unless it is continued. -/
theorem IsLiteral.crlf {g : Grammar} {span : Span} {rest : List Char} (h : IsLiteral g span rest)
    (hcont : (literal span).isContinued g = false) :
    IsLiteral g span.crlf (Text.crlf rest) := by
  rw [isContinued_literal_eq_false_iff] at hcont
  cases h with
  | @long d _ _ hd he =>
    have hmem := List.mem_of_find?_eq_some hd
    have hu := Grammar.unbroken_of_mem_longStrings hmem
    refine .long ?_ (he.crlf hu hu (Grammar.ne_nil_of_mem_longStrings hmem))
    rw [Span.text_crlf, ← Text.crlf_append, Grammar.longStringAt?_crlf]
    exact hd
  | @char body _ hl hc hb =>
    have hbody : Text.crlf body = body := by
      refine Text.crlf_of_not_mem fun hmem => ?_
      have hbreak := hcont hmem
      rw [Grammar.mayBreak_apostrophe hc] at hbreak
      exact absurd hbreak (by decide)
    have hs := Text.crlf_quoted (show Unbroken ['\''] by decide) body rest
    rw [← Grammar.longStringAt?_crlf, hs, hbody] at hl
    rw [Span.crlf, hbody]
    exact .char hl hc hb
  | @string quote body _ hl hq hb =>
    have hu := Grammar.unbroken_of_mem_quotes hq
    have hquote := hu quote List.mem_cons_self
    rw [Grammar.mayBreak_quote hq] at hcont
    rw [← Grammar.longStringAt?_crlf, Text.crlf_quoted hu] at hl
    simp only [Span.crlf, Text.crlf_of_unbroken hu]
    exact .string hl hq ((stringBody_crlf_iff hquote.1 hquote.2).mpr ⟨hb, hcont⟩)

/-- **One token, with carriage returns.** -/
theorem segmentation_crlf_cons {g : Grammar} {t : Token} {rest : List Char} {us : List Token}
    (h : Leads g t rest) (hcr : '\r' ∉ t.text ++ rest) (hcont : t.isContinued g = false)
    (hrest : Segmentation g (Text.crlf rest) us) :
    Segmentation g (Text.crlf (t.text ++ rest)) (t.crlf ++ us) := by
  cases h with
  | comment hc =>
    obtain ⟨u, hu, htext, hc⟩ := hc.crlf hcr
    rw [Text.crlf_append, ← htext, hu]
    exact .cons (.comment hc) hrest
  | @literal span _ hn hl =>
    rw [← noComment_crlf_iff, Text.crlf_append, ← Span.text_crlf] at hn
    show Segmentation g (Text.crlf (span.text ++ rest)) (literal span.crlf :: us)
    rw [Text.crlf_append, ← Span.text_crlf]
    exact .cons (.literal hn (hl.crlf hcont)) hrest
  | @code c _ hn hl =>
    rw [← noComment_crlf_iff] at hn
    replace hl : NoLiteral g (Text.crlf (c :: rest)) := noLiteral_crlf hcr hl
    by_cases hc : c = '\n'
    · subst hc
      -- the carriage return and the line feed are two characters of code
      rw [Text.crlf_feed] at hn hl
      exact .cons (.code hn hl) (.cons (leads_code_of_isBlank (by decide) _) hrest)
    · rw [Text.crlf_cons_of_ne hc] at hn hl
      rw [crlf, text, List.singleton_append, Text.crlf_cons_of_ne hc, Text.crlf_cons_of_ne hc]
      exact .cons (.code hn hl) hrest

/-- **A segmentation, with carriage returns**, where no literal is
continued. -/
theorem segmentation_crlf {g : Grammar} {s : List Char} {ts : List Token}
    (h : Segmentation g s ts) (hcr : '\r' ∉ s) (hcont : ∀ t ∈ ts, t.isContinued g = false) :
    Segmentation g (Text.crlf s) (ts.flatMap crlf) := by
  induction h with
  | nil => exact .nil
  | @cons t rest ts hlead _ ih =>
    rw [List.forall_mem_cons] at hcont
    rw [List.flatMap_cons]
    refine segmentation_crlf_cons hlead hcr hcont.1 (ih ?_ hcont.2)
    intro hmem
    exact hcr (List.mem_append_right _ hmem)

/-- A literal that stays one is not continued. -/
theorem isContinued_of_isLiteral_crlf {g : Grammar} {span : Span} {rest : List Char}
    (h : IsLiteral g span.crlf rest) : (literal span).isContinued g = false := by
  rw [isContinued_literal_eq_false_iff]
  intro hmem
  have hopening : span.opening = span.crlf.opening :=
    Text.eq_of_crlf_eq (dense_opening_of_isLiteral h).1.unbroken rfl
  rw [hopening]
  generalize hspan : span.crlf = whole at h
  cases h with
  | long hd he =>
    rw [opening_of_enclosed he]
    exact Grammar.mayBreak_of_mem_longStrings (List.mem_of_find?_eq_some hd)
  | char _ _ hb =>
    obtain ⟨-, rfl, -⟩ := Span.mk.inj hspan
    exact absurd hmem (not_mem_of_charBody_crlf hb)
  | string _ hq hb =>
    obtain ⟨-, rfl, -⟩ := Span.mk.inj hspan
    rw [Grammar.mayBreak_quote hq]
    exact (stringBody_of_crlf hb).2 hmem

/-- **Only continued literals part the two divisions.** -/
theorem divide_crlf_iff {g : Grammar} {s : List Char} (hcr : '\r' ∉ s) :
    divide g (Text.crlf s) = (divide g s).flatMap crlf ↔
      ∀ t ∈ divide g s, t.isContinued g = false := by
  constructor
  · intro h t ht
    cases t with
    | block | line | code => rfl
    | literal span =>
      have hmem : literal span.crlf ∈ divide g (Text.crlf s) := by
        rw [h]
        exact List.mem_flatMap.mpr ⟨literal span, ht, List.mem_singleton.mpr rfl⟩
      obtain ⟨rest, hlead⟩ := exists_leads_of_mem (segmentation_divide g _) hmem
      cases hlead with
      | comment hc => cases hc
      | literal _ hl => exact isContinued_of_isLiteral_crlf hl
  · intro h
    exact (eq_divide_of_segmentation (segmentation_crlf (segmentation_divide g s) hcr h)).symm

end Token

/-! ## Notes -/

/-- The region with a carriage return before each line feed of its body. -/
def Region.crlf (r : Region) : Region :=
  { r with body := Text.crlf r.body }

/-- The same comments on the same lines. -/
theorem Region.ofTokens_crlf (line : Nat) (ts : List Token) :
    ofTokens line (ts.flatMap Token.crlf) = (ofTokens line ts).map Region.crlf := by
  induction ts generalizing line with
  | nil => rfl
  | cons t ts ih =>
    have hcount (span : Span) : span.crlf.text.count '\n' = span.text.count '\n' := by
      rw [Span.text_crlf, Text.count_crlf]
    rw [List.flatMap_cons]
    cases t with
    | block span | line span | literal span =>
      rw [Token.crlf, List.singleton_append, ofTokens_cons, ofTokens_cons, List.map_append,
        Token.text, Token.text, hcount, ih]
      rfl
    | code c =>
      rw [ofTokens_cons, List.map_append, ← ih, Token.crlf]
      by_cases hc : c = '\n'
      · subst hc
        rfl
      · rw [Text.crlf_cons_of_ne hc]
        rfl

namespace Comment

/-- **The lines of a comment are the same**, since the carriage returns at
their ends are left out. -/
theorem lines_crlf (s : List Char) : lines (Text.crlf s) = lines s := by
  induction s using Text.linesInduction with
  | last a ha => rw [Text.crlf_of_not_mem ha]
  | more a b ha ih =>
    have ha' : '\n' ∉ a ++ ['\r'] := by simpa using ha
    rw [Text.crlf_append, Text.crlf_feed, Text.crlf_of_not_mem ha, List.append_cons,
      lines_append_cons ha', lines_append_cons ha, Text.dropTrailing_concat, ih]

theorem notes_crlf (g : Grammar) (file : String) (r : Region) :
    notes g file r.crlf = notes g file r := by
  simp only [notes, Region.crlf, lines_crlf]

end Comment

/-- **Line endings.** With carriage returns before its line feeds a text
divides into the same tokens exactly where no literal is continued by a
backslash, and there its notes are the same. -/
theorem extract_crlf (g : Grammar) (file : String) {content : List Char}
    (hcr : '\r' ∉ content) :
    (Token.divide g (Text.crlf content) = (Token.divide g content).flatMap Token.crlf ↔
      ∀ t ∈ Token.divide g content, t.isContinued g = false) ∧
    ((∀ t ∈ Token.divide g content, t.isContinued g = false) →
      extract g file (Text.crlf content) = extract g file content) := by
  have hiff := Token.divide_crlf_iff (g := g) hcr
  refine ⟨hiff, fun hcont => ?_⟩
  rw [extract, Region.all, hiff.mpr hcont, Region.ofTokens_crlf, List.flatMap_map, extract,
    Region.all]
  simp only [Comment.notes_crlf]

/-- A block comment and a string that may span lines, each over a line end. -/
theorem extract_crlf_spanning :
    '\r' ∉ "/* TODO: a\n * b */ `c\n`".toList ∧
    (∀ t ∈ Token.divide .cStyle "/* TODO: a\n * b */ `c\n`".toList,
      t.isContinued .cStyle = false) ∧
    extract .cStyle "a.js" (Text.crlf "/* TODO: a\n * b */ `c\n`".toList) =
      extract .cStyle "a.js" "/* TODO: a\n * b */ `c\n`".toList := by
  have hcont : ∀ t ∈ Token.divide .cStyle "/* TODO: a\n * b */ `c\n`".toList,
      t.isContinued .cStyle = false := by
    decide +kernel
  exact ⟨by decide, hcont, (extract_crlf .cStyle "a.js" (by decide)).2 hcont⟩

/-- A string for one line that a backslash continues: what is part of it in
the one text is a comment in the other. -/
theorem extract_crlf_continued :
    '\r' ∉ "\"\\\n// TODO: x\"".toList ∧
    extract .cStyle "a.js" "\"\\\n// TODO: x\"".toList = [] ∧
    extract .cStyle "a.js" (Text.crlf "\"\\\n// TODO: x\"".toList) =
      [⟨.todo, "x\"", "a.js", 2⟩] := by
  refine ⟨by decide, ?_, ?_⟩
  · decide +kernel
  · decide +kernel

end Marginalia
