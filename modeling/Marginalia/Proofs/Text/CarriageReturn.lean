import Marginalia.Proofs.Text.Blank
import Marginalia.Proofs.Text.Occurrence

/-!
# Carriage returns before line feeds

`crlf` puts a carriage return before each line feed of a text. What has
no line end itself is found in such a text where it stands in the text
without them (`exists_of_crlf_eq_append`), at the start, anywhere and
first: a search for it does not see the carriage returns.
-/

namespace Marginalia.Text

/-- The text with a carriage return before each line feed. -/
def crlf (s : List Char) : List Char :=
  s.flatMap fun c => if c = '\n' then ['\r', '\n'] else [c]

/-- A text without line ends. -/
def Unbroken (s : List Char) : Prop :=
  ∀ c ∈ s, c ≠ '\r' ∧ c ≠ '\n'

instance (s : List Char) : Decidable (Unbroken s) :=
  List.decidableBAll (fun c => c ≠ '\r' ∧ c ≠ '\n') s

/-- Line ends are blanks. -/
theorem Dense.unbroken {s : List Char} (h : Dense s) : Unbroken s := by
  intro c hc
  have hdense := h c hc
  refine ⟨?_, ?_⟩
  · rintro rfl
    exact absurd hdense (by decide)
  · rintro rfl
    exact absurd hdense (by decide)

@[simp] theorem crlf_nil : crlf [] = [] := rfl

@[simp] theorem crlf_feed (s : List Char) : crlf ('\n' :: s) = '\r' :: '\n' :: crlf s := rfl

theorem crlf_cons_of_ne {c : Char} (h : c ≠ '\n') (s : List Char) :
    crlf (c :: s) = c :: crlf s := by
  rw [crlf, List.flatMap_cons, if_neg h]
  rfl

@[simp] theorem crlf_append (a b : List Char) : crlf (a ++ b) = crlf a ++ crlf b :=
  List.flatMap_append

theorem crlf_of_not_mem {s : List Char} (h : '\n' ∉ s) : crlf s = s := by
  induction s with
  | nil => rfl
  | cons c s ih =>
    rw [List.mem_cons, not_or] at h
    rw [crlf_cons_of_ne (Ne.symm h.1), ih h.2]

theorem crlf_of_unbroken {s : List Char} (h : Unbroken s) : crlf s = s :=
  crlf_of_not_mem fun hmem => (h _ hmem).2 rfl

theorem crlf_eq_nil_iff {s : List Char} : crlf s = [] ↔ s = [] := by
  constructor
  · intro h
    cases s with
    | nil => rfl
    | cons c s =>
      by_cases hc : c = '\n'
      · simp [hc] at h
      · simp [crlf_cons_of_ne hc] at h
  · rintro rfl
    rfl

/-- Quotes stay around a text. -/
theorem crlf_quoted {quote : Char} (h : Unbroken [quote]) (body rest : List Char) :
    crlf (quote :: (body ++ quote :: rest)) =
      quote :: (crlf body ++ quote :: crlf rest) := by
  have hne := (h quote List.mem_cons_self).2
  rw [crlf_cons_of_ne hne, crlf_append, crlf_cons_of_ne hne]

/-- No line is added. -/
theorem count_crlf (s : List Char) : (crlf s).count '\n' = s.count '\n' := by
  induction s with
  | nil => rfl
  | cons c s ih =>
    by_cases hc : c = '\n'
    · subst hc
      rw [crlf_feed, List.count_cons_of_ne (by decide), List.count_cons_self, List.count_cons_self,
        ih]
    · rw [crlf_cons_of_ne hc, List.count_cons_of_ne hc, List.count_cons_of_ne hc, ih]

/-- A carriage return in front is that of a line feed. -/
theorem eq_feed_of_crlf {s t : List Char} (hs : '\r' ∉ s) (h : crlf s = '\r' :: t) :
    ∃ rest, s = '\n' :: rest ∧ t = '\n' :: crlf rest := by
  cases s with
  | nil => simp at h
  | cons c s =>
    by_cases hc : c = '\n'
    · subst hc
      rw [crlf_feed] at h
      exact ⟨s, rfl, (List.cons.inj h).2.symm⟩
    · rw [crlf_cons_of_ne hc] at h
      rw [(List.cons.inj h).1] at hs
      exact absurd List.mem_cons_self hs

/-- No line feed is in front. -/
theorem crlf_ne_feed (s t : List Char) : crlf s ≠ '\n' :: t := by
  intro h
  cases s with
  | nil => simp at h
  | cons c s =>
    by_cases hc : c = '\n'
    · subst hc
      exact absurd (List.cons.inj h).1 (by decide)
    · rw [crlf_cons_of_ne hc] at h
      exact hc (List.cons.inj h).1

/-- Anything else in front stands in front of the text. -/
theorem exists_of_crlf_eq_cons {s t : List Char} {c : Char} (hr : c ≠ '\r')
    (h : crlf s = c :: t) : ∃ rest, s = c :: rest ∧ crlf rest = t := by
  cases s with
  | nil => simp at h
  | cons d s =>
    by_cases hd : d = '\n'
    · subst hd
      exact absurd (List.cons.inj h).1.symm hr
    · rw [crlf_cons_of_ne hd] at h
      obtain ⟨rfl, rfl⟩ := List.cons.inj h
      exact ⟨s, rfl, rfl⟩

/-! ## Finding what has no line end -/

/-- **Cutting between characters.** A cut that does not part a carriage
return from its line feed is one of the text. -/
theorem exists_of_crlf_eq {s a b : List Char} (h : crlf s = a ++ b) (hb : b.head? ≠ some '\n') :
    ∃ x y, s = x ++ y ∧ crlf x = a ∧ crlf y = b := by
  induction s generalizing a with
  | nil =>
    obtain ⟨rfl, rfl⟩ := List.append_eq_nil_iff.mp h.symm
    exact ⟨[], [], rfl, rfl, rfl⟩
  | cons c s ih =>
    cases a with
    | nil => exact ⟨[], c :: s, rfl, rfl, h⟩
    | cons d a =>
      by_cases hc : c = '\n'
      · subst hc
        rw [crlf_feed, List.cons_append, List.cons.injEq] at h
        obtain ⟨rfl, h⟩ := h
        cases a with
        | nil =>
          rw [List.nil_append] at h
          rw [← h] at hb
          exact absurd rfl hb
        | cons e a =>
          rw [List.cons_append, List.cons.injEq] at h
          obtain ⟨rfl, h⟩ := h
          obtain ⟨x, y, rfl, rfl, hy⟩ := ih h
          exact ⟨'\n' :: x, y, rfl, rfl, hy⟩
      · rw [crlf_cons_of_ne hc, List.cons_append, List.cons.injEq] at h
        obtain ⟨rfl, h⟩ := h
        obtain ⟨x, y, rfl, rfl, hy⟩ := ih h
        exact ⟨c :: x, y, rfl, crlf_cons_of_ne hc x, hy⟩

/-- What stands in front stands in front of the text. -/
theorem exists_of_crlf_eq_left {p s t : List Char} (hp : Unbroken p) (h : crlf s = p ++ t) :
    ∃ rest, s = p ++ rest ∧ crlf rest = t := by
  induction p generalizing s with
  | nil => exact ⟨s, rfl, h⟩
  | cons c p ih =>
    obtain ⟨hc, hp⟩ := List.forall_mem_cons.mp hp
    obtain ⟨s, rfl, hs⟩ := exists_of_crlf_eq_cons hc.1 h
    obtain ⟨rest, rfl, hrest⟩ := ih hp hs
    exact ⟨rest, rfl, hrest⟩

theorem eq_of_crlf_eq {p s : List Char} (hp : Unbroken p) (h : crlf s = p) : s = p := by
  obtain ⟨rest, rfl, hrest⟩ := exists_of_crlf_eq_left hp (h.trans (List.append_nil p).symm)
  rw [crlf_eq_nil_iff.mp hrest, List.append_nil]

/-- **What stands in the text with carriage returns stands in the text.** -/
theorem exists_of_crlf_eq_append {p s a b : List Char} (hp : Unbroken p) (hne : p ≠ [])
    (h : crlf s = a ++ p ++ b) : ∃ x y, s = x ++ p ++ y ∧ crlf x = a ∧ crlf y = b := by
  obtain ⟨c, p', rfl⟩ := List.exists_cons_of_ne_nil hne
  have hhead : ((c :: p') ++ b).head? ≠ some '\n' := by
    simpa using (hp c List.mem_cons_self).2
  rw [List.append_assoc] at h
  obtain ⟨x, y, rfl, hx, hy⟩ := exists_of_crlf_eq h hhead
  obtain ⟨rest, rfl, hrest⟩ := exists_of_crlf_eq_left hp hy
  exact ⟨x, rest, by rw [List.append_assoc], hx, hrest⟩

theorem prefix_crlf_iff {p s : List Char} (hp : Unbroken p) : p <+: crlf s ↔ p <+: s := by
  constructor
  · rintro ⟨t, h⟩
    obtain ⟨rest, rfl, -⟩ := exists_of_crlf_eq_left hp h.symm
    exact List.prefix_append p rest
  · rintro ⟨rest, rfl⟩
    rw [crlf_append, crlf_of_unbroken hp]
    exact List.prefix_append p (crlf rest)

/-- A table of openings is searched alike. -/
theorem find?_isPrefixOf_crlf {α : Type} {l : List α} {opening : α → List Char}
    (h : ∀ a ∈ l, Unbroken (opening a)) (s : List Char) :
    l.find? (fun a => (opening a).isPrefixOf (crlf s)) =
      l.find? fun a => (opening a).isPrefixOf s := by
  refine List.find?_congr ?_
  intro a ha
  rw [Bool.eq_iff_iff, List.isPrefixOf_iff_prefix, List.isPrefixOf_iff_prefix,
    prefix_crlf_iff (h a ha)]

theorem infix_of_infix_crlf {p s : List Char} (hp : Unbroken p) (hne : p ≠ [])
    (h : p <:+: crlf s) : p <:+: s := by
  obtain ⟨a, b, h⟩ := h
  obtain ⟨x, y, rfl, -, -⟩ := exists_of_crlf_eq_append hp hne h.symm
  exact List.infix_append x p y

/-- **A first occurrence stays the first.** -/
theorem FirstOccurrence.crlf {p before rest : List Char} (hp : Unbroken p) (hne : p ≠ [])
    (h : FirstOccurrence p before rest) : FirstOccurrence p (crlf before) (crlf rest) := by
  intro earlier later he
  have hs : Text.crlf (before ++ p ++ rest) = earlier ++ p ++ later := by
    rw [crlf_append, crlf_append, crlf_of_unbroken hp, he]
  obtain ⟨x, y, hxy, rfl, rfl⟩ := exists_of_crlf_eq_append hp hne hs
  -- in the text the first one is not later, so that it is a part of what stands before the other
  have hle : before.length ≤ x.length := h x y hxy
  have hbefore : before <+: before ++ p ++ rest := ⟨p ++ rest, by rw [List.append_assoc]⟩
  have hx : x <+: before ++ p ++ rest := ⟨p ++ y, by rw [hxy, List.append_assoc]⟩
  obtain ⟨t, rfl⟩ := List.prefix_of_prefix_length_le hbefore hx hle
  rw [crlf_append, List.length_append]
  omega

/-! ## Lines -/

/-- A carriage return more at the end is taken off with the others. -/
theorem dropTrailing_concat (c : Char) (s : List Char) :
    dropTrailing [c] (s ++ [c]) = dropTrailing [c] s := by
  have hstep : dropLeading [c] (c :: s.reverse) = dropLeading [c] s.reverse := by
    conv_lhs => unfold dropLeading
    rw [dif_neg (List.cons_ne_nil c [])]
    split
    · next h => simp [after?] at h
    · next rest h =>
      obtain rfl : s.reverse = rest := by simpa [after?] using h
      rfl
  rw [dropTrailing, dropTrailing, List.reverse_append, List.reverse_singleton,
    List.singleton_append, hstep]

end Marginalia.Text
