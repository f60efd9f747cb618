import Marginalia.Comment.Literal
import Mathlib.Data.List.TakeWhile

/-!
# The grammar of literals

What stands between the quotes of a string and between the apostrophes
of a character, as inductive grammars, and the readers against them. A
reader commits to the first form that fits and never goes back;
`readString_eq_ok_iff` and `readChar_eq_ok_iff` say that it loses nothing
by it: what is read is what the grammar allows.
-/

namespace Marginalia.Comment

open Text (isHexDigit)

/-! ## Strings -/

/-- What may stand between the quotes of a string: a backslash with any
character after it, and characters that are neither a backslash nor the
quote, nor a line feed unless the string may span lines. -/
inductive StringBody (quote : Char) (spans : Bool) : List Char → Prop
  | nil : StringBody quote spans []
  | escape (c : Char) {body : List Char} :
      StringBody quote spans body → StringBody quote spans ('\\' :: c :: body)
  | plain {c : Char} {body : List Char} :
      c ≠ '\\' → c ≠ quote → (c = '\n' → spans = true) →
      StringBody quote spans body → StringBody quote spans (c :: body)

/-- The backslash that an escaped search has just passed. -/
def pending (escaped : Bool) : List Char :=
  if escaped then ['\\'] else []

/-- **What is passed over on the way to the closing quote is a body.** -/
theorem stringBody_of_closingQuote {quote : Char} {spans escaped : Bool} {k n : Nat}
    {s : List Char} (h : closingQuote quote spans escaped k s = some n) :
    StringBody quote spans (pending escaped ++ s.take (n - k)) := by
  induction s generalizing k escaped with
  | nil => simp [closingQuote] at h
  | cons c s ih =>
    -- every branch that goes on passes `c`, and the rest is the induction's
    have htake {e : Bool} (he : closingQuote quote spans e (k + 1) s = some n) :
        (c :: s).take (n - k) = c :: s.take (n - (k + 1)) := by
      have hk := (drop_of_closingQuote he).1
      rw [show n - k = (n - (k + 1)) + 1 by omega, List.take_succ_cons]
    unfold closingQuote at h
    split at h
    · next hesc =>
      subst hesc
      rw [htake h]
      exact .escape c (ih h)
    · next hesc =>
      rw [Bool.not_eq_true] at hesc
      subst hesc
      split at h
      · next hc =>
        subst hc
        rw [htake h]
        exact ih h
      · next hc =>
        split at h
        · have hn : n - k = 0 := by
            have := Option.some.inj h
            omega
          rw [hn]
          exact .nil
        · next hq =>
          split at h
          · simp at h
          · next hl =>
            rw [htake h]
            refine .plain hc hq ?_ (ih h)
            intro hlf
            simpa [hlf] using hl

/-- **And a body is passed over**, up to the quote after it. -/
theorem closingQuote_of_stringBody {quote : Char} {spans : Bool} (hq : quote ≠ '\\')
    {body : List Char} (hb : StringBody quote spans body) (k : Nat) (rest : List Char) :
    closingQuote quote spans false k (body ++ quote :: rest) = some (k + body.length) := by
  induction hb generalizing k with
  | nil => simp [closingQuote, hq]
  | escape c _ ih =>
    simp only [List.cons_append, closingQuote, Bool.false_eq_true, if_true, if_false, ih,
      List.length_cons]
    congr 1
    omega
  | @plain c body hc hcq hl _ ih =>
    have hlf : (c = '\n' && !spans) = false := by
      by_cases h : c = '\n'
      · simp [hl h]
      · simp [h]
    simp only [List.cons_append, closingQuote, Bool.false_eq_true, if_false, hc, hcq, hlf, ih,
      List.length_cons]
    congr 1
    omega

/-- **The strings that are read**, for every quote but the backslash:
those whose body the grammar allows. -/
theorem readString_eq_ok_iff {quote : Char} {spans : Bool} (hq : quote ≠ '\\')
    {s rest : List Char} {span : Span} :
    readString quote spans s = .ok (span, rest) ↔
      ∃ body, span = ⟨[quote], body, [quote]⟩ ∧ StringBody quote spans body ∧
        s = quote :: (body ++ quote :: rest) := by
  constructor
  · intro h
    have htext := text_append_of_readString h
    unfold readString at h
    split at h
    · simp at h
    · next c inner =>
      split at h
      · split at h
        · next n hn =>
          obtain ⟨rfl, rfl⟩ := Prod.mk.inj (Except.ok.inj h)
          refine ⟨inner.take n, rfl, by simpa [pending] using stringBody_of_closingQuote hn, ?_⟩
          rw [← htext.2]
          simp [Span.text]
        · simp at h
      · simp at h
  · rintro ⟨body, rfl, hb, rfl⟩
    simp [readString, closingQuote_of_stringBody hq hb]

/-! ## Single characters -/

/-- What may stand between two apostrophes: an escape by code point, by
byte or of any one character, or one character that is no backslash,
apostrophe or line feed. -/
inductive CharBody : List Char → Prop
  | codePoint {digits : List Char} :
      digits ≠ [] → (∀ d ∈ digits, isHexDigit d = true) →
      CharBody ('\\' :: 'u' :: '\x7b' :: (digits ++ ['\x7d']))
  | byte {digits : List Char} :
      digits ≠ [] → (∀ d ∈ digits, isHexDigit d = true) → CharBody ('\\' :: 'x' :: digits)
  | escape (c : Char) : CharBody ['\\', c]
  | plain {c : Char} : c ≠ '\\' → c ≠ '\'' → c ≠ '\n' → CharBody [c]

/-- A run of digits up to something else is taken whole. -/
theorem takeWhile_isHexDigit {digits rest : List Char} {c : Char}
    (hd : ∀ d ∈ digits, isHexDigit d = true) (hc : isHexDigit c = false) :
    (digits ++ c :: rest).takeWhile isHexDigit = digits := by
  rw [List.takeWhile_append_of_pos hd, List.takeWhile_cons_of_neg (by simp [hc]), List.append_nil]

theorem dropWhile_isHexDigit {digits rest : List Char} {c : Char}
    (hd : ∀ d ∈ digits, isHexDigit d = true) (hc : isHexDigit c = false) :
    (digits ++ c :: rest).dropWhile isHexDigit = c :: rest := by
  rw [List.dropWhile_append_of_pos hd, List.dropWhile_cons_of_neg (by simp [hc])]

/-- An escape by code point is one of the grammar. -/
theorem charBody_of_codePointEscape? {s : List Char} {n : Nat}
    (h : codePointEscape? s = some n) : CharBody ('\\' :: s.take n) := by
  unfold codePointEscape? at h
  split at h
  · next digits =>
    split at h
    · next d ds after htake hdrop =>
      have hs : digits = (d :: ds) ++ '\x7d' :: after := by
        rw [← htake, ← hdrop, List.takeWhile_append_dropWhile]
      have hds : ∀ x ∈ d :: ds, isHexDigit x = true := by
        intro x hx
        rw [← htake] at hx
        exact List.mem_takeWhile_imp hx
      have htaken : digits.take ((d :: ds).length + 1) = (d :: ds) ++ ['\x7d'] := by
        rw [hs, List.append_cons]
        exact List.take_left' (by simp)
      rw [← Option.some.inj h, List.take_succ_cons, List.take_succ_cons, htaken]
      exact .codePoint (List.cons_ne_nil d ds) hds
    · simp at h
  · simp at h

/-- And so is an escape by byte. -/
theorem charBody_of_byteEscape? {s : List Char} {n : Nat} (h : byteEscape? s = some n) :
    CharBody ('\\' :: s.take n) := by
  unfold byteEscape? at h
  split at h
  · next digits =>
    split at h
    · simp at h
    · next hne =>
      have hn : n = (digits.takeWhile isHexDigit).length + 1 := (Option.some.inj h).symm
      have htake : digits.take (digits.takeWhile isHexDigit).length =
          digits.takeWhile isHexDigit :=
        (List.prefix_iff_eq_take.mp (List.takeWhile_prefix isHexDigit)).symm
      rw [hn, List.take_succ_cons, htake]
      exact .byte hne fun d hd => List.mem_takeWhile_imp hd
  · simp at h

/-- **What is taken between two apostrophes is a body.** -/
theorem charBody_of_charSize? {s : List Char} {n : Nat} (h : charSize? s = some n) :
    CharBody (s.take n) := by
  unfold charSize? at h
  split at h
  · simp at h
  · next c rest =>
    split at h
    · next hc =>
      subst hc
      obtain ⟨m, hm, rfl⟩ := Option.map_eq_some_iff.mp h
      rw [List.take_succ_cons]
      unfold escape? at hm
      split at hm
      · next hu =>
        rw [← Option.some.inj hm]
        exact charBody_of_codePointEscape? hu
      · next hx =>
        rw [← Option.some.inj hm]
        exact charBody_of_byteEscape? hx
      · next d after _ _ =>
        rw [← Option.some.inj hm]
        exact .escape d
      · simp at hm
    · next hc =>
      split at h
      · simp at h
      · next hcn =>
        simp only [Bool.or_eq_true, decide_eq_true_eq, not_or] at hcn
        rw [← Option.some.inj h]
        exact .plain hc hcn.1 hcn.2

/-- **And a body before an apostrophe is taken whole**: the digits of an
escape end at the apostrophe, so the first form that fits is the only one
that reaches it. -/
theorem charSize?_of_charBody {body : List Char} (hb : CharBody body) (rest : List Char) :
    charSize? (body ++ '\'' :: rest) = some body.length := by
  have hquote : isHexDigit '\'' = false := by decide
  have hbrace : isHexDigit '\x7d' = false := by decide
  cases hb with
  | @codePoint digits hne hd =>
    obtain ⟨d, ds, rfl⟩ := List.exists_cons_of_ne_nil hne
    have hsplit : (d :: ds) ++ ['\x7d'] ++ '\'' :: rest = (d :: ds) ++ '\x7d' :: '\'' :: rest := by
      simp
    simp only [List.cons_append, charSize?, if_true, escape?, codePointEscape?]
    rw [← List.cons_append, ← List.cons_append, hsplit, takeWhile_isHexDigit hd hbrace,
      dropWhile_isHexDigit hd hbrace]
    simp
  | @byte digits hne hd =>
    obtain ⟨d, ds, rfl⟩ := List.exists_cons_of_ne_nil hne
    have hu : codePointEscape? ('x' :: ((d :: ds) ++ '\'' :: rest)) = none := by
      simp [codePointEscape?]
    simp only [List.cons_append, charSize?, if_true, escape?]
    rw [← List.cons_append, hu]
    simp only [byteEscape?, takeWhile_isHexDigit hd hquote]
    simp
  | escape c =>
    have hu : codePointEscape? (c :: '\'' :: rest) = none := by
      unfold codePointEscape?
      split
      · simp_all
      · rfl
    have hx : byteEscape? (c :: '\'' :: rest) = none := by
      unfold byteEscape?
      split
      · next heq =>
        obtain ⟨-, rfl⟩ := List.cons.inj heq
        simp [hquote]
      · rfl
    simp [charSize?, escape?, hu, hx]
  | plain hc hq hl => simp [charSize?, hc, hq, hl]

/-- **The character literals that are read**: those whose body the grammar
allows. -/
theorem readChar_eq_ok_iff {s rest : List Char} {span : Span} :
    readChar s = .ok (span, rest) ↔
      ∃ body, span = ⟨['\''], body, ['\'']⟩ ∧ CharBody body ∧
        s = '\'' :: (body ++ '\'' :: rest) := by
  constructor
  · intro h
    have htext := text_append_of_readChar h
    unfold readChar at h
    split at h
    · next inner =>
      split at h
      · simp at h
      · next n hn =>
        split at h
        · obtain ⟨rfl, rfl⟩ := Prod.mk.inj (Except.ok.inj h)
          refine ⟨inner.take n, rfl, charBody_of_charSize? hn, ?_⟩
          rw [← htext.2]
          simp [Span.text]
        · simp at h
    · simp at h
  · rintro ⟨body, rfl, hb, rfl⟩
    simp [readChar, charSize?_of_charBody hb]

end Marginalia.Comment
