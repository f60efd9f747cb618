import Marginalia.Proofs.Text.Lines
import Marginalia.Text.Blank
import Mathlib.Data.List.Find
import Mathlib.Data.List.TakeWhile

/-!
# Blanks around a text

Two kinds of texts are told apart: `Blank` ones, which have nothing but
blanks, and `Dense` ones, which have none, as the delimiters of comments.
A dense text is found no further than a blank goes
(`prefix_append_iff`, `infix_of_infix_append`). Trimming takes off blanks
only (`exists_append_trim_append`), does not see those that are put behind
a text (`trim_append`), and is the same from both sides (`trim_reverse`).
-/

namespace Marginalia.Text

/-- A text of blanks only. -/
def Blank (s : List Char) : Prop :=
  ∀ c ∈ s, isBlank c = true

/-- A text without blanks. -/
def Dense (s : List Char) : Prop :=
  ∀ c ∈ s, isBlank c = false

instance (s : List Char) : Decidable (Blank s) :=
  List.decidableBAll (fun c => isBlank c = true) s

instance (s : List Char) : Decidable (Dense s) :=
  List.decidableBAll (fun c => isBlank c = false) s

theorem blank_nil : Blank [] := by simp [Blank]

theorem Blank.append {a b : List Char} (ha : Blank a) (hb : Blank b) : Blank (a ++ b) :=
  List.forall_mem_append.mpr ⟨ha, hb⟩

theorem Blank.of_append {a b : List Char} (h : Blank (a ++ b)) : Blank a ∧ Blank b :=
  List.forall_mem_append.mp h

theorem Blank.of_suffix {a b : List Char} (h : Blank b) (hab : a <:+ b) : Blank a :=
  fun c hc => h c (hab.subset hc)

/-! ## Dense texts before blanks -/

/-- What stands on a dense text and on blanks stands on nothing. -/
theorem eq_nil_of_dense_of_blank {s : List Char} (hd : Dense s) (hb : Blank s) : s = [] := by
  cases s with
  | nil => rfl
  | cons c s =>
    have hc := hd c List.mem_cons_self
    rw [hb c List.mem_cons_self] at hc
    simp at hc

/-- **A dense text ends before a blank.** -/
theorem exists_of_append_eq_append {p rest s w : List Char} (hp : Dense p)
    (hw : ∀ c, w.head? = some c → isBlank c = true) (h : s ++ w = p ++ rest) :
    ∃ t, s = p ++ t ∧ rest = t ++ w := by
  rcases List.append_eq_append_iff.mp h with ⟨tail, hpt, hwt⟩ | ⟨t, hs, hr⟩
  · cases tail with
    | nil => exact ⟨[], by simpa using hpt.symm, by simpa using hwt.symm⟩
    | cons c tail =>
      -- `p` would reach past `s`, on to the blank that stands there
      have hblank := hw c (by simp [hwt])
      have hdense := hp c (by simp [hpt])
      rw [hblank] at hdense
      simp at hdense
  · exact ⟨t, hs, hr⟩

theorem prefix_append_iff {p s w : List Char} (hp : Dense p)
    (hw : ∀ c, w.head? = some c → isBlank c = true) : p <+: s ++ w ↔ p <+: s := by
  constructor
  · rintro ⟨rest, h⟩
    obtain ⟨t, rfl, -⟩ := exists_of_append_eq_append hp hw h.symm
    exact List.prefix_append p t
  · intro h
    exact h.trans (List.prefix_append s w)

/-- A table of openings is searched alike. -/
theorem find?_isPrefixOf_append {α : Type} {l : List α} {opening : α → List Char}
    (h : ∀ a ∈ l, Dense (opening a)) {w : List Char}
    (hw : ∀ c, w.head? = some c → isBlank c = true) (s : List Char) :
    l.find? (fun a => (opening a).isPrefixOf (s ++ w)) =
      l.find? fun a => (opening a).isPrefixOf s := by
  refine List.find?_congr ?_
  intro a ha
  rw [Bool.eq_iff_iff, List.isPrefixOf_iff_prefix, List.isPrefixOf_iff_prefix,
    prefix_append_iff (h a ha) hw]

theorem head?_isBlank {w : List Char} (hw : Blank w) :
    ∀ c, w.head? = some c → isBlank c = true :=
  fun c hc => hw c (List.mem_of_mem_head? hc)

/-- Behind a text there is no more of a dense one to be found. -/
theorem infix_of_infix_append {p s w : List Char} (hp : Dense p) (hne : p ≠ []) (hw : Blank w)
    (h : p <:+: s ++ w) : p <:+: s := by
  obtain ⟨a, b, h⟩ := h
  rw [List.append_assoc] at h
  rcases List.append_eq_append_iff.mp h with ⟨tail, rfl, hpb⟩ | ⟨t, rfl, hr⟩
  · obtain ⟨t, rfl, -⟩ := exists_of_append_eq_append hp (head?_isBlank hw) hpb.symm
    exact ⟨a, t, by rw [List.append_assoc]⟩
  · -- the dense text would stand in `w` alone
    rw [hr] at hw
    have hblank := (hw.of_append.2).of_append.1
    exact absurd (eq_nil_of_dense_of_blank hp hblank) hne

/-- A text that ends in something else than a blank ends before blanks. -/
theorem exists_of_append_eq_append_blank {x rest s w : List Char} {c : Char}
    (hx : x.getLast? = some c) (hc : isBlank c = false) (hw : Blank w)
    (h : s ++ w = x ++ rest) : ∃ t, s = x ++ t ∧ rest = t ++ w := by
  rcases List.append_eq_append_iff.mp h with ⟨tail, rfl, hwt⟩ | ⟨t, hs, hr⟩
  · cases tail with
    | nil => exact ⟨[], by simp, by simpa using hwt.symm⟩
    | cons d tail =>
      -- the end of `x` would stand in `w`
      have hlast : (d :: tail).getLast? = some c := by
        rwa [List.getLast?_append_of_ne_nil s (List.cons_ne_nil d tail)] at hx
      have hmem : c ∈ w := by
        rw [hwt]
        exact List.mem_append_left rest (List.mem_of_getLast? hlast)
      have hblank := hw c hmem
      rw [hc] at hblank
      simp at hblank
  · exact ⟨t, hs, hr⟩

/-! ## Lines -/

/-- The lines of blanks are blank. -/
theorem blank_of_mem_splitOn {w piece : List Char} (hw : Blank w)
    (h : piece ∈ splitOn '\n' w) : Blank piece := by
  induction w using linesInduction with
  | last a ha =>
    rw [splitOn_of_not_mem ha, List.mem_singleton] at h
    rwa [h]
  | more a b ha ih =>
    obtain ⟨hblank, hrest⟩ := hw.of_append
    rw [splitOn_append_cons ha] at h
    rcases List.mem_cons.mp h with rfl | h
    · exact hblank
    · exact ih (hrest.of_suffix (List.suffix_cons '\n' b)) h

/-! ## Trimming -/

theorem dropWhile_isBlank {w : List Char} (hw : Blank w) : w.dropWhile isBlank = [] :=
  List.dropWhile_eq_nil_iff.mpr hw

theorem exists_append_trimStart (s : List Char) : ∃ w, Blank w ∧ s = w ++ trimStart s :=
  ⟨s.takeWhile isBlank, fun _ hc => List.mem_takeWhile_imp hc,
    List.takeWhile_append_dropWhile.symm⟩

theorem exists_trimEnd_append (s : List Char) : ∃ w, Blank w ∧ s = trimEnd s ++ w := by
  refine ⟨(s.reverse.takeWhile isBlank).reverse, ?_, ?_⟩
  · exact fun c hc => List.mem_takeWhile_imp (List.mem_reverse.mp hc)
  · rw [trimEnd, ← List.reverse_append, List.takeWhile_append_dropWhile, List.reverse_reverse]

/-- **Trimming takes off blanks** at both ends. -/
theorem exists_append_trim_append (s : List Char) :
    ∃ w w', Blank w ∧ Blank w' ∧ s = w ++ trim s ++ w' := by
  obtain ⟨w, hw, hs⟩ := exists_append_trimStart s
  obtain ⟨w', hw', hs'⟩ := exists_trimEnd_append (trimStart s)
  refine ⟨w, w', hw, hw', ?_⟩
  rw [trim, List.append_assoc, ← hs', ← hs]

/-- Blanks behind a text are taken off its end. -/
theorem trimEnd_append {w : List Char} (hw : Blank w) (s : List Char) :
    trimEnd (s ++ w) = trimEnd s := by
  have hrev : ∀ c ∈ w.reverse, isBlank c = true := fun c hc => hw c (List.mem_reverse.mp hc)
  rw [trimEnd, List.reverse_append, List.dropWhile_append_of_pos hrev, trimEnd]

/-- **Trimming does not see blanks behind a text.** -/
theorem trim_append {w : List Char} (hw : Blank w) (s : List Char) : trim (s ++ w) = trim s := by
  by_cases hs : Blank s
  · rw [trim, trimStart, dropWhile_isBlank (hs.append hw), trim, trimStart, dropWhile_isBlank hs]
  · -- what is not blank stops the trimming of the start before `w`
    have hne : s.dropWhile isBlank ≠ [] := fun h => hs (List.dropWhile_eq_nil_iff.mp h)
    have hdrop : (s ++ w).dropWhile isBlank = s.dropWhile isBlank ++ w := by
      rw [List.dropWhile_append, if_neg (by simpa using hne)]
    rw [trim, trimStart, hdrop, trimEnd_append hw, trim, trimStart]

/-- Nor blanks before it. -/
theorem trim_append_of_blank {w : List Char} (hw : Blank w) (s : List Char) :
    trim (w ++ s) = trim s := by
  rw [trim, trimStart, List.dropWhile_append_of_pos hw, trim, trimStart]

/-- A text without blanks at its ends. -/
structure Trimmed (s : List Char) : Prop where
  head : ∀ c, s.head? = some c → isBlank c = false
  last : ∀ c, s.getLast? = some c → isBlank c = false

theorem trimmed_nil : Trimmed [] := ⟨by simp, by simp⟩

/-- **A trimmed text has no blanks at its ends.** -/
theorem trimmed_trim (s : List Char) : Trimmed (trim s) := by
  have hstart : ∀ c, (trimStart s).head? = some c → isBlank c = false := by
    intro c hc
    have h := List.head?_dropWhile_not isBlank s
    rw [trimStart] at hc
    rw [hc] at h
    simpa using h
  refine ⟨?_, ?_⟩
  · -- trimming the end leaves the start, or nothing
    intro c hc
    obtain ⟨w, -, hs⟩ := exists_trimEnd_append (trimStart s)
    refine hstart c ?_
    rw [hs, List.head?_append]
    rw [trim] at hc
    rw [hc]
    rfl
  · intro c hc
    have h := List.head?_dropWhile_not isBlank (trimStart s).reverse
    rw [trim, trimEnd, List.getLast?_reverse] at hc
    rw [hc] at h
    simpa using h

/-- There are no blanks before a text that starts with something else. -/
theorem Blank.eq_nil_of_head {w s : List Char} (hw : Blank w)
    (h : ∀ c, (w ++ s).head? = some c → isBlank c = false) : w = [] := by
  cases w with
  | nil => rfl
  | cons c w =>
    have hc := h c rfl
    rw [hw c List.mem_cons_self] at hc
    cases hc

theorem Trimmed.reverse {s : List Char} (h : Trimmed s) : Trimmed s.reverse :=
  ⟨by simpa using h.last, by simpa using h.head⟩

/-- A trimmed text is left as it is. -/
theorem Trimmed.trim_eq {s : List Char} (h : Trimmed s) : trim s = s := by
  obtain ⟨w, w', hw, hw', hs⟩ := exists_append_trim_append s
  obtain rfl : w = [] := by
    refine hw.eq_nil_of_head (s := trim s ++ w') ?_
    rw [← List.append_assoc, ← hs]
    exact h.head
  obtain rfl : w' = [] := by
    have hrev : Blank w'.reverse := fun c hc => hw' c (List.mem_reverse.mp hc)
    refine List.reverse_eq_nil_iff.mp (hrev.eq_nil_of_head (s := (trim s).reverse) ?_)
    rw [← List.reverse_append, ← List.nil_append (trim s), ← hs]
    exact h.reverse.head
  simpa using hs.symm

/-- **Trimming is the same from both sides.** -/
theorem trim_reverse (s : List Char) : trim s.reverse = (trim s).reverse := by
  obtain ⟨w, w', hw, hw', hs⟩ := exists_append_trim_append s
  have hreverse {v : List Char} (hv : Blank v) : Blank v.reverse :=
    fun c hc => hv c (List.mem_reverse.mp hc)
  conv_lhs => rw [hs]
  rw [List.reverse_append, List.reverse_append, trim_append_of_blank (hreverse hw'),
    trim_append (hreverse hw), (trimmed_trim s).reverse.trim_eq]

section Parts

variable {s t : List Char}

/-- A start of a trimmed text loses no more than blanks at its end. -/
theorem Trimmed.trim_isPrefix (ht : Trimmed t) (h : s <+: t) : trim s <+: t := by
  obtain ⟨w, w', hw, -, hs⟩ := exists_append_trim_append s
  obtain rfl : w = [] := by
    refine hw.eq_nil_of_head (s := trim s ++ w') ?_
    intro c hc
    rw [← List.append_assoc, ← hs] at hc
    obtain ⟨rest, rfl⟩ := h
    exact ht.head c (by rw [List.head?_append, hc]; rfl)
  exact (List.prefix_append (trim s) w').trans (hs ▸ h)

theorem Trimmed.trim_isSuffix (ht : Trimmed t) (h : s <:+ t) : trim s <:+ t := by
  rw [← List.reverse_prefix] at h ⊢
  rw [← trim_reverse]
  exact ht.reverse.trim_isPrefix h

end Parts

/-- The carriage returns that are left out at the end of a line are
blanks. -/
theorem exists_dropTrailing_append_blank (s : List Char) :
    ∃ w, Blank w ∧ s = dropTrailing ['\r'] s ++ w := by
  obtain ⟨n, hn⟩ := exists_dropTrailing_append '\r' s
  refine ⟨List.replicate n '\r', ?_, hn⟩
  intro c hc
  rw [List.eq_of_mem_replicate hc]
  decide

end Marginalia.Text
