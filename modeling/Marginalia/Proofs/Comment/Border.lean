import Marginalia.Proofs.Comment.Slice

/-!
# What trimming takes off a line

A line is freed of blanks and borders in many steps, from both ends, and
each step can bring new ones to light. Whatever the steps do, they take off
ornament only (`adorned_trimBorders`): blanks and borders in any order.

They do not take off all of it. A border that is left at the start of the
line was hidden when the others went, behind blanks
(`exists_of_isPrefix_trim_dropLeading`). The end of a line is the start of
the line in reverse, so each fact about ends is that about starts, mirrored.
-/

namespace Marginalia.Comment

open Text (Blank Trimmed isBlank)

/-! ## Ornament -/

/-- **Ornament**: blanks and borders, one after another. -/
inductive Ornament (borders : List (List Char)) : List Char → Prop
  | nil : Ornament borders []
  | blank {c : Char} {s : List Char} :
      isBlank c = true → Ornament borders s → Ornament borders (c :: s)
  | border {b s : List Char} :
      b ∈ borders → Ornament borders s → Ornament borders (b ++ s)

section

variable {borders : List (List Char)}

theorem Ornament.append {p q : List Char} (hp : Ornament borders p) (hq : Ornament borders q) :
    Ornament borders (p ++ q) := by
  induction hp with
  | nil => exact hq
  | blank hc _ ih => exact .blank hc ih
  | border hb _ ih =>
    rw [List.append_assoc]
    exact .border hb ih

theorem ornament_of_blank {w : List Char} (hw : Blank w) : Ornament borders w := by
  induction w with
  | nil => exact .nil
  | cons c w ih =>
    rw [Blank, List.forall_mem_cons] at hw
    exact .blank hw.1 (ih hw.2)

theorem ornament_copies {b : List Char} (hb : b ∈ borders) (n : Nat) :
    Ornament borders (List.replicate n b).flatten := by
  induction n with
  | zero => exact .nil
  | succ n ih =>
    rw [List.replicate_succ, List.flatten_cons]
    exact .border hb ih

/-- The text `s` is `t` with ornament at both ends. -/
def Adorned (borders : List (List Char)) (s t : List Char) : Prop :=
  ∃ p q, Ornament borders p ∧ Ornament borders q ∧ s = p ++ t ++ q

theorem Adorned.refl (s : List Char) : Adorned borders s s :=
  ⟨[], [], .nil, .nil, (List.append_nil s).symm⟩

theorem Adorned.trans {r s t : List Char} (h : Adorned borders r s) (h' : Adorned borders s t) :
    Adorned borders r t := by
  obtain ⟨p, q, hp, hq, rfl⟩ := h
  obtain ⟨p', q', hp', hq', rfl⟩ := h'
  exact ⟨p ++ p', q' ++ q, hp.append hp', hq'.append hq, by simp only [List.append_assoc]⟩

theorem adorned_trim (s : List Char) : Adorned borders s (Text.trim s) := by
  obtain ⟨w, w', hw, hw', hs⟩ := Text.exists_append_trim_append s
  exact ⟨w, w', ornament_of_blank hw, ornament_of_blank hw', hs⟩

theorem adorned_dropLeading {b : List Char} (hb : b ∈ borders) (s : List Char) :
    Adorned borders s (Text.dropLeading b s) := by
  obtain ⟨n, hs⟩ := Text.exists_append_dropLeading b s
  exact ⟨_, [], ornament_copies hb n, .nil, by rw [List.append_nil, ← hs]⟩

theorem adorned_dropTrailing {b : List Char} (hb : b ∈ borders) (s : List Char) :
    Adorned borders s (Text.dropTrailing b s) := by
  obtain ⟨n, hs⟩ := Text.exists_dropTrailing_append_copies b s
  exact ⟨[], _, .nil, ornament_copies hb n, by rw [List.nil_append, ← hs]⟩

/-- By induction on the borders: steps that each take off ornament. -/
theorem adorned_foldl {f : List Char → List Char → List Char} {bs : List (List Char)}
    (hf : ∀ b ∈ bs, ∀ s, Adorned borders s (f s b)) (s : List Char) :
    Adorned borders s (bs.foldl f s) := by
  induction bs generalizing s with
  | nil => exact .refl s
  | cons b bs ih =>
    rw [List.forall_mem_cons] at hf
    exact (hf.1 s).trans (ih hf.2 (f s b))

/-- **Trimming takes off ornament only.** -/
theorem adorned_trimBorders (borders : List (List Char)) (s : List Char) :
    Adorned borders s (trimBorders borders s) := by
  have hstart : ∀ b ∈ borders, ∀ s, Adorned borders s (Text.trim (Text.dropLeading b s)) :=
    fun b hb s => (adorned_dropLeading hb s).trans (adorned_trim _)
  have hend : ∀ b ∈ borders, ∀ s, Adorned borders s (Text.trim (Text.dropTrailing b s)) :=
    fun b hb s => (adorned_dropTrailing hb s).trans (adorned_trim _)
  exact ((adorned_trim s).trans (adorned_foldl hstart _)).trans (adorned_foldl hend _)

end

/-! ## Borders that are left -/

section OneBorder

variable {b t : List Char}

/-- **A border that is left at the start** stood behind a run of borders and
blanks. -/
theorem exists_of_isPrefix_trim_dropLeading (hne : b ≠ []) (ht : Trimmed t)
    (h : b <+: Text.trim (Text.dropLeading b t)) :
    ∃ n w, 0 < n ∧ w ≠ [] ∧ Blank w ∧ (List.replicate n b).flatten ++ w ++ b <+: t := by
  obtain ⟨n, hn⟩ := Text.exists_append_dropLeading b t
  obtain ⟨w, w', hw, -, hs⟩ := Text.exists_append_trim_append (Text.dropLeading b t)
  obtain ⟨rest, hrest⟩ := h
  rw [← hrest] at hs
  -- without blanks before it the border would have been taken off
  have hwne : w ≠ [] := by
    rintro rfl
    refine Text.not_isPrefix_dropLeading hne t ⟨rest ++ w', ?_⟩
    rw [hs, List.nil_append, List.append_assoc]
  have hpos : 0 < n := by
    refine Nat.pos_of_ne_zero ?_
    rintro rfl
    refine hwne (hw.eq_nil_of_head (s := b ++ rest ++ w') fun c hc => ht.head c ?_)
    rw [hn, hs, List.append_assoc w]
    exact hc
  refine ⟨n, w, hpos, hwne, hw, rest ++ w', ?_⟩
  rw [hn, hs]
  simp only [List.append_assoc]

/-- **And one that is left at the end** before them. -/
theorem exists_of_isSuffix_trim_dropTrailing (hne : b ≠ []) (ht : Trimmed t)
    (h : b <:+ Text.trim (Text.dropTrailing b t)) :
    ∃ n w, 0 < n ∧ w ≠ [] ∧ Blank w ∧ b ++ w ++ (List.replicate n b).flatten <:+ t := by
  rw [Text.dropTrailing, Text.trim_reverse, ← List.reverse_prefix, List.reverse_reverse] at h
  obtain ⟨n, w, hn, hwne, hw, hprefix⟩ :=
    exists_of_isPrefix_trim_dropLeading (List.reverse_eq_nil_iff.not.mpr hne) ht.reverse h
  refine ⟨n, w.reverse, hn, List.reverse_eq_nil_iff.not.mpr hwne,
    fun c hc => hw c (List.mem_reverse.mp hc), ?_⟩
  rw [← List.reverse_prefix, List.reverse_append, List.reverse_append, List.reverse_reverse,
    Text.reverse_flatten_replicate, ← List.append_assoc]
  exact hprefix

/-- With one border, what is left of a line lies at the start of what was
left before its end was worked on. -/
theorem trimBorders_singleton_isPrefix (b s : List Char) :
    trimBorders [b] s <+: Text.trim (Text.dropLeading b (Text.trim s)) :=
  (Text.trimmed_trim _).trim_isPrefix (Text.isPrefix_dropTrailing b _)

end OneBorder

/-- **Trimming loses nothing but blanks and borders**, and leaves no blank at
the ends. Where there is one border, it is left at the start of the line only
where a run of it and blanks stood before it, and at the end only where they
stood after it. -/
theorem trimBorders_adorned (borders : List (List Char)) (s : List Char) :
    (∃ p q, Ornament borders p ∧ Ornament borders q ∧ s = p ++ trimBorders borders s ++ q) ∧
    Trimmed (trimBorders borders s) ∧
    ∀ b, borders = [b] → b ≠ [] →
      (b <+: trimBorders borders s → ∃ n w, 0 < n ∧ w ≠ [] ∧ Blank w ∧
        (List.replicate n b).flatten ++ w ++ b <+: Text.trim s) ∧
      (b <:+ trimBorders borders s → ∃ n w, 0 < n ∧ w ≠ [] ∧ Blank w ∧
        b ++ w ++ (List.replicate n b).flatten <:+ Text.trim s) := by
  refine ⟨adorned_trimBorders borders s, trimmed_trimBorders borders s, ?_⟩
  rintro b rfl hne
  refine ⟨?_, ?_⟩
  · intro h
    exact exists_of_isPrefix_trim_dropLeading hne (Text.trimmed_trim s)
      (h.trans (trimBorders_singleton_isPrefix b s))
  · intro h
    obtain ⟨n, w, hn, hwne, hw, hsuffix⟩ :=
      exists_of_isSuffix_trim_dropTrailing hne (Text.trimmed_trim _) h
    refine ⟨n, w, hn, hwne, hw, hsuffix.trans ?_⟩
    exact (Text.trimmed_trim s).trim_isSuffix (Text.isSuffix_dropLeading b _)

/-- In a line with stars inside stars the inner ones are left. -/
theorem trimBorders_adorned_nested :
    trimBorders [['*']] "** * a * **".toList = "* a *".toList ∧
    (∃ n w, 0 < n ∧ w ≠ [] ∧ Blank w ∧
      (List.replicate n ['*']).flatten ++ w ++ ['*'] <+: Text.trim "** * a * **".toList) ∧
    ∃ n w, 0 < n ∧ w ≠ [] ∧ Blank w ∧
      ['*'] ++ w ++ (List.replicate n ['*']).flatten <:+ Text.trim "** * a * **".toList := by
  have hresult : trimBorders [['*']] "** * a * **".toList = "* a *".toList := by
    cbv
  have hleft := (trimBorders_adorned [['*']] "** * a * **".toList).2.2 ['*'] rfl (by decide)
  rw [hresult] at hleft
  exact ⟨hresult, hleft.1 (by decide), hleft.2 (by decide)⟩

end Marginalia.Comment
