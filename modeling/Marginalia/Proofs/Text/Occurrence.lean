import Marginalia.Text.Find
import Mathlib.Data.List.Basic

/-!
# First occurrences

What the searches of a text find, said without the search: `after?`
answers where the text starts with the pattern, and `cut?` at the
occurrence that no other one precedes. Both are equivalences, so a
search that answers nothing says that there is nothing to be found.
-/

namespace Marginalia.Text

/-- **The first occurrence.** In the text `before ++ pattern ++ rest` the
pattern stands nowhere to the left of `before`'s end. -/
def FirstOccurrence (pattern before rest : List Char) : Prop :=
  ∀ earlier later, before ++ pattern ++ rest = earlier ++ pattern ++ later →
    before.length ≤ earlier.length

/-! ## At the start -/

theorem after?_eq_some_iff {opening s rest : List Char} :
    after? opening s = some rest ↔ s = opening ++ rest := by
  constructor
  · exact eq_append_of_after?
  · rintro rfl
    exact after?_append opening rest

theorem isSome_after?_iff {opening s : List Char} :
    (after? opening s).isSome = true ↔ opening <+: s := by
  rw [Option.isSome_iff_exists]
  constructor
  · rintro ⟨rest, h⟩
    exact ⟨rest, (after?_eq_some_iff.mp h).symm⟩
  · rintro ⟨rest, rfl⟩
    exact ⟨rest, after?_append opening rest⟩

/-! ## Anywhere -/

/-- Where the search stops, no earlier place has the pattern. -/
theorem not_prefix_drop_of_findFrom {pattern s : List Char} {k n : Nat}
    (h : findFrom pattern k s = some n) {i : Nat} (hi : k + i < n) :
    ¬ pattern <+: s.drop i := by
  induction s generalizing k i with
  | nil =>
    simp only [findFrom] at h
    split at h
    · have := Option.some.inj h
      omega
    · simp at h
  | cons c s ih =>
    simp only [findFrom] at h
    split at h
    · have := Option.some.inj h
      omega
    · next hc =>
      cases i with
      | zero => rwa [isSome_after?_iff] at hc
      | succ i => exact ih h (by omega)

/-- A search that fails has seen every place. -/
theorem not_prefix_drop_of_findFrom_eq_none {pattern s : List Char} {k : Nat}
    (h : findFrom pattern k s = none) (i : Nat) : ¬ pattern <+: s.drop i := by
  induction s generalizing k i with
  | nil =>
    have hp : pattern ≠ [] := by
      rintro rfl
      simp [findFrom] at h
    rw [List.drop_nil, List.prefix_nil]
    exact hp
  | cons c s ih =>
    simp only [findFrom] at h
    split at h
    · simp at h
    · next hc =>
      cases i with
      | zero => rwa [isSome_after?_iff] at hc
      | succ i => exact ih h i

/-- The pattern at the end of `before` is a prefix of what is left there. -/
theorem prefix_drop_length_append (pattern before rest : List Char) :
    pattern <+: (before ++ pattern ++ rest).drop before.length := by
  rw [List.append_assoc, List.drop_left]
  exact List.prefix_append pattern rest

/-- A text that has the pattern is cut somewhere. -/
theorem isSome_cut?_of_infix {pattern s : List Char} (h : pattern <:+: s) :
    (cut? pattern s).isSome = true := by
  obtain ⟨before, rest, rfl⟩ := h
  by_contra hn
  have hf : findFrom pattern 0 (before ++ pattern ++ rest) = none := by
    simpa [cut?, find?] using hn
  exact not_prefix_drop_of_findFrom_eq_none hf before.length
    (prefix_drop_length_append pattern before rest)

/-- **A cut is made at the first occurrence.** -/
theorem firstOccurrence_of_cut? {pattern s before rest : List Char}
    (h : cut? pattern s = some (before, rest)) : FirstOccurrence pattern before rest := by
  intro earlier later he
  have hs := eq_append_of_cut? h
  obtain ⟨n, hn, hp⟩ := Option.map_eq_some_iff.mp h
  by_contra hlt
  -- the offset found is at least as long as what was taken up to it
  have hle : before.length ≤ n := by
    rw [← (Prod.mk.inj hp).1, List.length_take]
    omega
  have hnot := not_prefix_drop_of_findFrom hn (i := earlier.length) (by omega)
  rw [hs, he] at hnot
  exact hnot (prefix_drop_length_append pattern earlier later)

/-- Two first occurrences in one text are the same. -/
theorem FirstOccurrence.unique {pattern b₁ r₁ b₂ r₂ : List Char}
    (h₁ : FirstOccurrence pattern b₁ r₁) (h₂ : FirstOccurrence pattern b₂ r₂)
    (h : b₁ ++ pattern ++ r₁ = b₂ ++ pattern ++ r₂) : b₁ = b₂ ∧ r₁ = r₂ := by
  have hlen : b₁.length = b₂.length := Nat.le_antisymm (h₁ b₂ r₂ h) (h₂ b₁ r₁ h.symm)
  rw [List.append_assoc, List.append_assoc] at h
  obtain ⟨hb, hr⟩ := List.append_inj h hlen
  exact ⟨hb, List.append_cancel_left hr⟩

/-- What follows a first occurrence does not matter for it. -/
theorem FirstOccurrence.append {pattern before rest : List Char}
    (h : FirstOccurrence pattern before rest) (more : List Char) :
    FirstOccurrence pattern before (rest ++ more) := by
  intro earlier later he
  by_contra hlt
  -- an earlier one would end before this one does, and so be one of the text without `more`
  have hle : (earlier ++ pattern).length ≤ (before ++ pattern ++ rest).length := by
    simp only [List.length_append]
    omega
  have hpre : earlier ++ pattern <+: before ++ pattern ++ rest ++ more := by
    rw [List.append_assoc _ rest, he]
    exact List.prefix_append _ _
  obtain ⟨later', hlater⟩ :=
    List.prefix_of_prefix_length_le hpre (List.prefix_append _ more) hle
  exact hlt (h earlier later' hlater.symm)

/-- A character that does not stand before it is found at once. -/
theorem firstOccurrence_singleton {c : Char} {before : List Char} (h : c ∉ before)
    (rest : List Char) : FirstOccurrence [c] before rest := by
  intro earlier later he
  by_contra hlt
  -- an earlier place lies within `before`, and `c` would stand there
  have hat : (before ++ [c] ++ rest)[earlier.length]? = some c := by
    rw [he]
    simp
  rw [List.append_assoc, List.getElem?_append_left (by omega)] at hat
  exact h (List.mem_of_getElem? hat)

/-- **What a cut is.** -/
theorem cut?_eq_some_iff {pattern s before rest : List Char} :
    cut? pattern s = some (before, rest) ↔
      s = before ++ pattern ++ rest ∧ FirstOccurrence pattern before rest := by
  constructor
  · intro h
    exact ⟨eq_append_of_cut? h, firstOccurrence_of_cut? h⟩
  · rintro ⟨rfl, hf⟩
    -- the text is cut somewhere, and first occurrences are unique
    have hsome := isSome_cut?_of_infix (List.infix_append before pattern rest)
    obtain ⟨⟨b, r⟩, hc⟩ := Option.isSome_iff_exists.mp hsome
    obtain ⟨rfl, rfl⟩ := hf.unique (firstOccurrence_of_cut? hc) (eq_append_of_cut? hc)
    exact hc

theorem cut?_eq_none_iff {pattern s : List Char} :
    cut? pattern s = none ↔ ¬ pattern <:+: s := by
  constructor
  · intro h hin
    have := isSome_cut?_of_infix hin
    simp [h] at this
  · intro hn
    cases h : cut? pattern s with
    | none => rfl
    | some found =>
      obtain ⟨before, rest⟩ := found
      exact absurd ⟨before, rest, (eq_append_of_cut? h).symm⟩ hn

end Marginalia.Text
