import Marginalia.Comment.Token
import Marginalia.Proofs.Comment.Literal

/-!
# Literals stand in a text in one way only

A string is a sequence of items between two quotes: escapes, and plain
characters. What an item is shows in its first character, and so does the
closing quote, so that a text can be taken apart in one way at most
(`StringAt.unique`). With the grammar of the bodies this says all that
reading a string does: it answers with the one way there is, and where
there is none it leaves the text alone.

Between two apostrophes several forms may fit, one longer than the other.
The reader takes the longest (`length_le_of_charBody`), which is the one
form that can end at an apostrophe, so that a character literal stands in
a text in one way only as well (`CharAt.unique`). Where there is none,
`CharRefused` says what is missing, and where.
-/

namespace Marginalia.Comment

open Text (isHexDigit)

/-! ## Items -/

/-- One item of a string: a backslash with any character after it, or a
character that is neither a backslash nor the quote, nor a line feed
unless the string may span lines. -/
inductive StringItem (quote : Char) (spans : Bool) : List Char → Prop
  | escape (c : Char) : StringItem quote spans ['\\', c]
  | plain {c : Char} :
      c ≠ '\\' → c ≠ quote → (c = '\n' → spans = true) → StringItem quote spans [c]

/-- A text that starts with a string of the given items. -/
structure StringAt (quote : Char) (spans : Bool) (s : List Char) (items : List (List Char))
    (rest : List Char) : Prop where
  isItem : ∀ item ∈ items, StringItem quote spans item
  text_eq : s = quote :: (items.flatten ++ quote :: rest)

section

variable {quote : Char} {spans : Bool} {s rest rest' : List Char} {items items' : List (List Char)}

/-- **A body is a sequence of items.** -/
theorem stringBody_iff_exists_items {body : List Char} :
    StringBody quote spans body ↔
      ∃ items : List (List Char), (∀ item ∈ items, StringItem quote spans item) ∧
        items.flatten = body := by
  constructor
  · intro h
    induction h with
    | nil => exact ⟨[], by simp, rfl⟩
    | escape c _ ih =>
      obtain ⟨items, hitems, rfl⟩ := ih
      exact ⟨['\\', c] :: items, List.forall_mem_cons.mpr ⟨.escape c, hitems⟩, rfl⟩
    | @plain c _ hc hq hl _ ih =>
      obtain ⟨items, hitems, rfl⟩ := ih
      exact ⟨[c] :: items, List.forall_mem_cons.mpr ⟨.plain hc hq hl, hitems⟩, rfl⟩
  · rintro ⟨items, hitems, rfl⟩
    induction items with
    | nil => exact .nil
    | cons item items ih =>
      obtain ⟨hfirst, hlater⟩ := List.forall_mem_cons.mp hitems
      have hbody := ih hlater
      cases hfirst with
      | escape c => exact .escape c hbody
      | plain hc hq hl => exact .plain hc hq hl hbody

/-- No item starts with the quote, which is why the quote closes. -/
theorem StringItem.append_ne_quote_cons {item : List Char} (hq : quote ≠ '\\')
    (h : StringItem quote spans item) (more rest : List Char) :
    item ++ more ≠ quote :: rest := by
  cases h with
  | escape c => simp [hq.symm]
  | plain _ hne _ => simp [hne]

/-- **The first character tells an item from the next.** -/
theorem StringItem.eq_of_append_eq {item item' more more' : List Char}
    (h : StringItem quote spans item) (h' : StringItem quote spans item')
    (he : item ++ more = item' ++ more') : item = item' ∧ more = more' := by
  cases h with
  | escape c =>
    cases h' with
    | escape c' => simpa using he
    | plain hc' _ _ => exact absurd (List.cons.inj he).1.symm hc'
  | plain hc _ _ =>
    cases h' with
    | escape c' => exact absurd (List.cons.inj he).1 hc
    | plain _ _ _ => simpa using he

/-- Items up to a quote are told apart. By induction on the items: the
first ones are equal, or one of the two texts is at its quote, and then
both are. -/
theorem items_eq_of_append_eq (hq : quote ≠ '\\')
    (h : ∀ item ∈ items, StringItem quote spans item)
    (h' : ∀ item ∈ items', StringItem quote spans item)
    (he : items.flatten ++ quote :: rest = items'.flatten ++ quote :: rest') :
    items = items' ∧ rest = rest' := by
  induction items generalizing items' with
  | nil =>
    cases items' with
    | nil => exact ⟨rfl, (List.cons.inj he).2⟩
    | cons item' items' =>
      rw [List.flatten_cons, List.append_assoc] at he
      exact absurd he.symm ((h' item' List.mem_cons_self).append_ne_quote_cons hq _ _)
  | cons item items ih =>
    obtain ⟨hitem, hitems⟩ := List.forall_mem_cons.mp h
    rw [List.flatten_cons, List.append_assoc] at he
    cases items' with
    | nil => exact absurd he (hitem.append_ne_quote_cons hq _ _)
    | cons item' items' =>
      obtain ⟨hitem', hitems'⟩ := List.forall_mem_cons.mp h'
      rw [List.flatten_cons, List.append_assoc] at he
      obtain ⟨rfl, hmore⟩ := hitem.eq_of_append_eq hitem' he
      obtain ⟨rfl, rfl⟩ := ih hitems hitems' hmore
      exact ⟨rfl, rfl⟩

/-- **A text starts with one string at most.** -/
theorem StringAt.unique (hq : quote ≠ '\\') (h : StringAt quote spans s items rest)
    (h' : StringAt quote spans s items' rest') : items = items' ∧ rest = rest' := by
  have he := h.text_eq.symm.trans h'.text_eq
  exact items_eq_of_append_eq hq h.isItem h'.isItem (List.cons.inj he).2

/-! ## Reading -/

/-- A text that is refused is refused as it is. -/
theorem eq_of_readString_eq_error {m : Mismatch} (h : readString quote spans s = .error m) :
    m = ⟨.quote, s⟩ := by
  unfold readString at h
  split at h
  · exact (Except.error.inj h).symm
  · split at h
    · split at h
      · simp at h
      · exact (Except.error.inj h).symm
    · exact (Except.error.inj h).symm

/-- What is read are the items up to the closing quote. -/
theorem readString_eq_ok_iff_stringAt (hq : quote ≠ '\\') {span : Span} :
    readString quote spans s = .ok (span, rest) ↔
      ∃ items, StringAt quote spans s items rest ∧ span = ⟨[quote], items.flatten, [quote]⟩ := by
  rw [readString_eq_ok_iff hq]
  constructor
  · rintro ⟨body, rfl, hb, hs⟩
    obtain ⟨items, hitems, rfl⟩ := stringBody_iff_exists_items.mp hb
    exact ⟨items, ⟨hitems, hs⟩, rfl⟩
  · rintro ⟨items, ⟨hitems, hs⟩, rfl⟩
    exact ⟨items.flatten, rfl, stringBody_iff_exists_items.mpr ⟨items, hitems, rfl⟩, hs⟩

end

/-- **Strings are read as they are written**, in any quotes that are not
backslashes. A string is read if and only if the text starts with one,
and then with its items as the body; there is one way at most to take a
text apart so; and where there is none the text is refused as it is. -/
theorem readString_unambiguous {quote : Char} (hq : quote ≠ '\\') (spans : Bool)
    (s : List Char) :
    (∀ span rest, readString quote spans s = .ok (span, rest) ↔
      ∃ items, StringAt quote spans s items rest ∧ span = ⟨[quote], items.flatten, [quote]⟩) ∧
    (∀ items rest items' rest', StringAt quote spans s items rest →
      StringAt quote spans s items' rest' → items = items' ∧ rest = rest') ∧
    ((¬ ∃ items rest, StringAt quote spans s items rest) →
      readString quote spans s = .error ⟨.quote, s⟩) := by
  refine ⟨fun span rest => readString_eq_ok_iff_stringAt hq,
    fun items rest items' rest' h h' => h.unique hq h', fun hnone => ?_⟩
  cases hr : readString quote spans s with
  | error m => rw [eq_of_readString_eq_error hr]
  | ok found =>
    obtain ⟨items, hat, -⟩ := (readString_eq_ok_iff_stringAt hq).mp hr
    exact absurd ⟨items, found.2, hat⟩ hnone

/-- An escaped quote, an escaped line feed and an escaped backslash right
before the quote that closes, in a string that may not span lines. -/
theorem readString_unambiguous_escapes :
    '"' ≠ '\\' ∧
      readString '"' false ['"', '\\', '"', 'a', '\\', '\n', '\\', '\\', '"', '"'] =
        .ok (⟨['"'], ['\\', '"', 'a', '\\', '\n', '\\', '\\'], ['"']⟩, ['"']) := by
  have hq : '"' ≠ '\\' := by decide
  refine ⟨hq, ((readString_unambiguous hq false _).1 _ _).mpr
    ⟨[['\\', '"'], ['a'], ['\\', '\n'], ['\\', '\\']], ⟨?_, rfl⟩, rfl⟩⟩
  intro item hitem
  simp only [List.mem_cons, List.not_mem_nil, or_false] at hitem
  rcases hitem with rfl | rfl | rfl | rfl
  · exact .escape '"'
  · exact .plain (by decide) (by decide) (by decide)
  · exact .escape '\n'
  · exact .escape '\\'

/-! ## Single characters -/

/-- A text that starts with a character literal of the given body. -/
structure CharAt (s body rest : List Char) : Prop where
  isBody : CharBody body
  text_eq : s = '\'' :: (body ++ '\'' :: rest)

/-- **Why a text starts with no character literal**: no apostrophe opens
one, or nothing that may stand in one follows, or no apostrophe follows the
longest of what may. -/
inductive CharRefused : List Char → Mismatch → Prop
  | unopened {s : List Char} : s.head? ≠ some '\'' → CharRefused s ⟨.quote, s⟩
  | empty {inner : List Char} :
      (∀ body, CharBody body → ¬ body <+: inner) →
      CharRefused ('\'' :: inner) ⟨.character, inner⟩
  | unclosed {body rest : List Char} :
      CharBody body →
      (∀ body', CharBody body' → body' <+: body ++ rest → body'.length ≤ body.length) →
      rest.head? ≠ some '\'' → CharRefused ('\'' :: (body ++ rest)) ⟨.quote, rest⟩

section

variable {s body body' rest rest' inner : List Char}

/-- An escape takes one character at least. -/
theorem exists_escape?_cons (c : Char) (s : List Char) :
    ∃ n, escape? (c :: s) = some (n + 1) := by
  unfold escape?
  split
  · next n _ _ hu =>
    unfold codePointEscape? at hu
    split at hu
    · split at hu
      · next d ds _ _ _ => exact ⟨ds.length + 3, by rw [← Option.some.inj hu]; simp⟩
      · simp at hu
    · simp at hu
  · next n _ _ _ hx =>
    unfold byteEscape? at hx
    split at hx
    · next digits _ =>
      split at hx
      · simp at hx
      · exact ⟨(digits.takeWhile isHexDigit).length, hx.symm⟩
    · simp at hx
  · exact ⟨0, rfl⟩
  · simp_all

/-- **The longest form is taken.** Where a body stands, at least as much is
read. -/
theorem exists_charSize?_of_charBody (hb : CharBody body) (rest : List Char) :
    ∃ n, charSize? (body ++ rest) = some n ∧ body.length ≤ n := by
  cases hb with
  | @codePoint digits hne hd =>
    have hbrace : isHexDigit '\x7d' = false := by decide
    obtain ⟨d, ds, rfl⟩ := List.exists_cons_of_ne_nil hne
    have hu : codePointEscape? ('u' :: '\x7b' :: ((d :: ds) ++ '\x7d' :: rest)) =
        some ((d :: ds).length + 3) := by
      simp only [codePointEscape?, takeWhile_isHexDigit hd hbrace, dropWhile_isHexDigit hd hbrace]
    refine ⟨(d :: ds).length + 4, ?_, by simp⟩
    simp only [List.cons_append, List.append_assoc, List.nil_append] at hu ⊢
    simp only [charSize?, escape?, hu, if_true, Option.map_some]
  | @byte digits hne hd =>
    obtain ⟨d, ds, rfl⟩ := List.exists_cons_of_ne_nil hne
    have hu : codePointEscape? ('x' :: ((d :: ds) ++ rest)) = none := by
      simp [codePointEscape?]
    have hx : byteEscape? ('x' :: ((d :: ds) ++ rest)) =
        some (((d :: ds) ++ rest.takeWhile isHexDigit).length + 1) := by
      simp only [byteEscape?, List.takeWhile_append_of_pos hd]
      rfl
    refine ⟨((d :: ds) ++ rest.takeWhile isHexDigit).length + 2, ?_, by simp⟩
    simp only [List.cons_append] at hu hx ⊢
    simp only [charSize?, escape?, hu, hx, if_true, Option.map_some]
  | escape c =>
    obtain ⟨n, hn⟩ := exists_escape?_cons c rest
    refine ⟨n + 2, ?_, by simp⟩
    rw [List.cons_append, List.cons_append, List.nil_append, charSize?, if_pos rfl, hn]
    rfl
  | plain hc hq hl => exact ⟨1, by simp [charSize?, hc, hq, hl], by simp⟩

theorem length_le_of_charBody {n : Nat} (hn : charSize? inner = some n) (hb : CharBody body)
    (hpre : body <+: inner) : body.length ≤ n := by
  obtain ⟨rest, rfl⟩ := hpre
  obtain ⟨m, hm, hle⟩ := exists_charSize?_of_charBody hb rest
  rw [hm] at hn
  rwa [← Option.some.inj hn]

/-- What is read is a literal that the text starts with. -/
theorem readChar_eq_ok_iff_charAt {span : Span} :
    readChar s = .ok (span, rest) ↔
      ∃ body, CharAt s body rest ∧ span = ⟨['\''], body, ['\'']⟩ := by
  rw [readChar_eq_ok_iff]
  constructor
  · rintro ⟨body, rfl, hb, hs⟩
    exact ⟨body, ⟨hb, hs⟩, rfl⟩
  · rintro ⟨body, ⟨hb, hs⟩, rfl⟩
    exact ⟨body, rfl, hb, hs⟩

/-- **A text starts with one character literal at most.** Of two bodies the
reader takes the one and the other. -/
theorem CharAt.unique (h : CharAt s body rest) (h' : CharAt s body' rest') :
    body = body' ∧ rest = rest' := by
  have hread := readChar_eq_ok_iff_charAt.mpr ⟨body, h, rfl⟩
  have hread' := readChar_eq_ok_iff_charAt.mpr ⟨body', h', rfl⟩
  rw [hread, Except.ok.injEq, Prod.mk.injEq, Span.mk.injEq] at hread'
  exact ⟨hread'.1.2.1, hread'.2⟩

/-- **A text that is refused is refused for what is missing.** -/
theorem charRefused_of_readChar {m : Mismatch} (h : readChar s = .error m) : CharRefused s m := by
  unfold readChar at h
  split at h
  · next inner =>
    split at h
    · next hn =>
      obtain rfl := Except.error.inj h
      refine .empty fun body hb hpre => ?_
      obtain ⟨rest, rfl⟩ := hpre
      obtain ⟨n, hsome, -⟩ := exists_charSize?_of_charBody hb rest
      simp [hn] at hsome
    · next n hn =>
      split at h
      · simp at h
      · next hclosed =>
        obtain rfl := Except.error.inj h
        have hlongest : ∀ body', CharBody body' → body' <+: inner.take n ++ inner.drop n →
            body'.length ≤ (inner.take n).length := by
          intro body' hb' hpre
          rw [List.take_append_drop] at hpre
          have hle := length_le_of_charBody hn hb' hpre
          have := hpre.length_le
          rw [List.length_take]
          omega
        have hopen : (inner.drop n).head? ≠ some '\'' := by
          intro hquote
          obtain ⟨rest, hrest⟩ := List.head?_eq_some_iff.mp hquote
          exact hclosed rest hrest
        have hrefused := CharRefused.unclosed (charBody_of_charSize? hn) hlongest hopen
        rwa [List.take_append_drop] at hrefused
  · next hopen =>
    obtain rfl := Except.error.inj h
    refine .unopened fun hquote => ?_
    obtain ⟨inner, rfl⟩ := List.head?_eq_some_iff.mp hquote
    exact hopen inner rfl

/-- The place of a refusal lies in the text. -/
theorem CharRefused.suffix {m : Mismatch} (h : CharRefused s m) : m.rest <:+ s := by
  cases h with
  | unopened => exact List.suffix_rfl
  | empty => exact List.suffix_cons _ _
  | @unclosed body _ => exact (List.suffix_append body _).trans (List.suffix_cons _ _)

/-- **An apostrophe that starts no character literal is plain code**, and
nothing more of the text is taken with it. -/
theorem first_apostrophe_of_readChar {g : Grammar} (hg : g.charLiterals = true) {m : Mismatch}
    (h : readChar ('\'' :: inner) = .error m) :
    Token.first g '\'' inner = (.code '\'', inner) := by
  cases g <;> simp [Grammar.charLiterals] at hg
  simp [Token.first, Token.comment?, Token.literal?, Token.quoted?, Grammar.blocks,
    Grammar.lineOpening?, Grammar.longStrings, Grammar.charLiterals, readEnclosed, readLine,
    Text.after?, Token.found?, h]

end

/-- **Character literals are read as they are written.** One is read if and
only if the text starts with one, and then with its body, though the reader
commits to the first form that fits; there is one way at most to take a
text apart so. Any other text is refused for what is missing, at a place
within it; and an apostrophe that opens no literal, as that of a lifetime
or a label, is passed over alone where the grammar has character
literals. -/
theorem readChar_unambiguous (s : List Char) :
    (∀ span rest, readChar s = .ok (span, rest) ↔
      ∃ body, CharAt s body rest ∧ span = ⟨['\''], body, ['\'']⟩) ∧
    (∀ body rest body' rest', CharAt s body rest → CharAt s body' rest' →
      body = body' ∧ rest = rest') ∧
    ((¬ ∃ body rest, CharAt s body rest) →
      (∃ m, readChar s = .error m ∧ CharRefused s m ∧ m.rest <:+ s) ∧
      ∀ g : Grammar, g.charLiterals = true → ∀ inner, s = '\'' :: inner →
        Token.first g '\'' inner = (.code '\'', inner)) := by
  refine ⟨fun span rest => readChar_eq_ok_iff_charAt,
    fun body rest body' rest' h h' => h.unique h', fun hnone => ?_⟩
  cases hr : readChar s with
  | ok found =>
    obtain ⟨body, hat, -⟩ := readChar_eq_ok_iff_charAt.mp hr
    exact absurd ⟨body, found.2, hat⟩ hnone
  | error m =>
    have hrefused := charRefused_of_readChar hr
    refine ⟨⟨m, rfl, hrefused, hrefused.suffix⟩, ?_⟩
    rintro g hg inner rfl
    exact first_apostrophe_of_readChar hg hr

/-- A lifetime, and an escape of which the shorter reading would be closed
too late. -/
example : readChar ['\'', 'a', ' ', 's'] = .error ⟨.quote, [' ', 's']⟩ ∧
    readChar ['\'', '\\', 'x', '4', '1', '\'', ';'] =
      .ok (⟨['\''], ['\\', 'x', '4', '1'], ['\'']⟩, [';']) := by
  decide

end Marginalia.Comment
