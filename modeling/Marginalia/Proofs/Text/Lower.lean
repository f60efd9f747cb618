import Marginalia.Text.Lower

/-!
# Lower case is settled

A text in lower case stays what it is when it is lower-cased again. This
rests on one fact of the table of capitals, that the small letters of a run
are capitals of no run (`apart_capitals`); the letters that the table leaves
out, the sigmas and the dotted i, are small by themselves. So every letter
that lower-casing puts is settled (`settled_of_mem_lowerChar`), whatever
stands around it.
-/

namespace Marginalia.Text

/-! ## The table of capitals -/

namespace CapitalRun

/-- The last code point that the small letters of a run reach. -/
def last (run : CapitalRun) : Nat :=
  run.small + (run.hi - run.lo)

/-- Whether the small letters of a run are told apart from the capitals of
another, by the range or as every other code point. -/
def apart (run other : CapitalRun) : Bool :=
  Nat.blt run.last other.lo || Nat.blt other.hi run.small ||
    (other.stride == 2 && (run.stride == 2 || run.lo == run.hi) &&
      (run.small + other.lo) % 2 == 1)

/-- Whether a code point lies outside the range of the small letters. -/
def avoids (run : CapitalRun) (n : Nat) : Bool :=
  Nat.blt run.last n || Nat.blt n run.small

/-- Whether the small letters of a run are characters, and none of those that
are treated apart: the dot, the capital I with a dot above, and the capital
sigma. -/
def isPlain (run : CapitalRun) : Bool :=
  (Nat.blt run.last 0xd800 || Nat.blt 0xdfff run.small && Nat.blt run.last 0x110000) &&
    (run.avoids '.'.toNat && run.avoids 0x130 && run.avoids 0x3a3)

variable {run other : CapitalRun} {n m : Nat}

theorem small?_eq_some_iff :
    run.small? n = some m ↔
      (run.lo ≤ n ∧ n ≤ run.hi ∧ (n - run.lo) % run.stride = 0) ∧
        run.small + (n - run.lo) = m := by
  unfold small?
  split
  · next h => simp [h]
  · next h => simp [h]

/-- The small letters lie in their range. -/
theorem bounds_of_small? (h : run.small? n = some m) : run.small ≤ m ∧ m ≤ run.last := by
  obtain ⟨⟨hlo, hhi, -⟩, rfl⟩ := small?_eq_some_iff.mp h
  unfold last
  omega

theorem ne_of_avoids {k : Nat} (ha : run.avoids k = true) (h : run.small? n = some m) :
    m ≠ k := by
  have hm := bounds_of_small? h
  simp only [avoids, Bool.or_eq_true, Nat.blt_eq] at ha
  omega

/-- The small letters of a run that is told apart from another are none of
its capitals. -/
theorem small?_eq_none_of_apart (ha : run.apart other = true) (h : run.small? n = some m) :
    other.small? m = none := by
  have hm := bounds_of_small? h
  obtain ⟨⟨hlo, hhi, hstride⟩, hsmall⟩ := small?_eq_some_iff.mp h
  simp only [apart, Bool.or_eq_true, Bool.and_eq_true, Nat.blt_eq, beq_iff_eq] at ha
  refine if_neg fun ⟨hlo', hhi', hstride'⟩ => ?_
  rcases ha with (hbelow | habove) | ⟨⟨hother, halternate⟩, hodd⟩
  · omega
  · omega
  · -- the small letters are all odd where these capitals are even, or the reverse
    rw [hother] at hstride'
    rcases halternate with hrun | hsingle
    · rw [hrun] at hstride
      omega
    · omega

end CapitalRun

/-- **No small letter of the table is a capital of it.** -/
theorem apart_capitals :
    capitals.all (fun run => run.isPlain && capitals.all run.apart) = true := by
  decide +kernel

/-! ## Settled characters -/

/-- A character that lower-casing leaves as it is. -/
def Settled (c : Char) : Prop :=
  ∀ before after, lowerChar before c after = [c]

theorem settled_of_smallLetter {c : Char} (hsigma : c ≠ capitalSigma)
    (hdotted : c ≠ Char.ofNat 0x130) (h : smallLetter c = c) : Settled c := by
  intro before after
  rw [lowerChar, if_neg hsigma, if_neg hdotted, h]

/-- A small letter of the table is settled, and no dot. -/
theorem settled_of_small? {run : CapitalRun} {n m : Nat} (hrun : run ∈ capitals)
    (h : run.small? n = some m) : Settled (Char.ofNat m) ∧ Char.ofNat m ≠ '.' := by
  have htable := List.all_eq_true.mp apart_capitals run hrun
  simp only [CapitalRun.isPlain, Bool.and_eq_true, Bool.or_eq_true, Nat.blt_eq] at htable
  obtain ⟨⟨hrange, ⟨hdot, hdotted⟩, hsigma⟩, hapart⟩ := htable
  have hm := CapitalRun.bounds_of_small? h
  have hvalid : m.isValidChar := by
    unfold Nat.isValidChar
    omega
  have hnat := toNat_ofNat hvalid
  have hne {k : Nat} {c : Char} (hk : run.avoids k = true) (hc : c.toNat = k) :
      Char.ofNat m ≠ c := by
    rintro rfl
    exact CapitalRun.ne_of_avoids hk h (hnat.symm.trans hc)
  have hnone : capitals.findSome? (·.small? m) = none :=
    List.findSome?_eq_none_iff.mpr fun other hother =>
      CapitalRun.small?_eq_none_of_apart (List.all_eq_true.mp hapart other hother) h
  refine ⟨settled_of_smallLetter (hne hsigma rfl) (hne hdotted rfl) ?_, hne hdot rfl⟩
  rw [smallLetter, hnat, hnone]

/-- **What lower-casing puts is settled**, and a dot only for a dot. -/
theorem settled_of_mem_lowerChar {before after : List Char} {c d : Char}
    (h : d ∈ lowerChar before c after) : Settled d ∧ (d = '.' → c = '.') := by
  have plain {e : Char} (he : smallLetter e = e) (hsigma : e ≠ capitalSigma)
      (hdotted : e ≠ Char.ofNat 0x130) (hdot : e ≠ '.') : Settled e ∧ (e = '.' → c = '.') :=
    ⟨settled_of_smallLetter hsigma hdotted he, fun h => absurd h hdot⟩
  unfold lowerChar at h
  split at h
  · split at h
    · obtain rfl := List.mem_singleton.mp h
      exact plain rfl (by decide) (by decide) (by decide)
    · obtain rfl := List.mem_singleton.mp h
      exact plain rfl (by decide) (by decide) (by decide)
  · next hsigma =>
    split at h
    · simp only [List.mem_cons, List.not_mem_nil, or_false] at h
      obtain rfl | rfl := h
      · exact plain rfl (by decide) (by decide) (by decide)
      · exact plain rfl (by decide) (by decide) (by decide)
    · next hdotted =>
      obtain rfl := List.mem_singleton.mp h
      unfold smallLetter
      split
      · next m hm =>
        obtain ⟨run, hrun, hsmall⟩ := List.exists_of_findSome?_eq_some hm
        exact ⟨(settled_of_small? hrun hsmall).1,
          fun hdot => absurd hdot (settled_of_small? hrun hsmall).2⟩
      · next hm =>
        have hself : smallLetter c = c := by
          rw [smallLetter, hm]
        exact ⟨settled_of_smallLetter hsigma hdotted hself, id⟩

/-! ## Whole texts -/

theorem lowerChar_ne_nil (before : List Char) (c : Char) (after : List Char) :
    lowerChar before c after ≠ [] := by
  unfold lowerChar
  split
  · split <;> simp
  · split <;> simp

theorem settled_of_mem_lowerAfter {before s : List Char} {d : Char}
    (h : d ∈ lowerAfter before s) : Settled d := by
  induction s generalizing before with
  | nil => simp [lowerAfter] at h
  | cons c s ih =>
    rcases List.mem_append.mp h with h | h
    · exact (settled_of_mem_lowerChar h).1
    · exact ih h

theorem lowerAfter_of_settled {s : List Char} (h : ∀ c ∈ s, Settled c) (before : List Char) :
    lowerAfter before s = s := by
  induction s generalizing before with
  | nil => rfl
  | cons c s ih =>
    rw [List.forall_mem_cons] at h
    rw [lowerAfter, h.1, ih h.2, List.singleton_append]

/-- **Lower-casing twice is lower-casing once.** The context of a sigma may
change in between, but then it is no capital any more. -/
@[simp]
theorem lower_lower (s : List Char) : lower (lower s) = lower s :=
  lowerAfter_of_settled (fun _ => settled_of_mem_lowerAfter) []

/-- A text that starts with no dot does not start with one in lower case. -/
theorem exists_lower_cons {c : Char} (h : c ≠ '.') (s : List Char) :
    ∃ d rest, lower (c :: s) = d :: rest ∧ d ≠ '.' := by
  have hmem {d : Char} (hd : d ∈ lowerChar [] c s) : d ≠ '.' :=
    fun he => h ((settled_of_mem_lowerChar hd).2 he)
  cases hc : lowerChar [] c s with
  | nil => exact absurd hc (lowerChar_ne_nil [] c s)
  | cons d rest =>
    rw [hc] at hmem
    exact ⟨d, rest ++ lowerAfter [c] s, by rw [lower, lowerAfter, hc, List.cons_append],
      hmem (List.mem_cons_self ..)⟩

end Marginalia.Text
