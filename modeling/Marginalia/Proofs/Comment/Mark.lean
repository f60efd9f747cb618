import Marginalia.Comment.Extract
import Marginalia.Proofs.Text.Lines
import Marginalia.Proofs.Text.Occurrence
import Mathlib.Data.List.TakeWhile

/-!
# Marks

Where the tags of a comment stand, read off its body as one text. A
`Mark` is a whole keyword with its separator; `marks` looks for one at
every offset of the body, and `exists_mem_marks_iff` says what that finds.

The scanner does it line by line, leaves the carriage returns at the ends
of the lines out, and skips what a tag has taken. None of this loses a
mark: a line end is as good as the end of the text to what stands before
it (`tag?_append`), and nothing inside a tag starts another
(`marksFrom_tag`). So the hits on the lines are the marks of the body
(`marks_eq_map_hits`), each at its place.
-/

namespace Marginalia.Comment

open Text (isIdentChar isBlank)

/-- A whole keyword in a text, with its separator. -/
structure Mark where
  keyword : Keyword
  /-- Where the keyword starts. -/
  start : Nat
  /-- Where the text after the separator starts. -/
  textStart : Nat
  deriving DecidableEq

/-- The same mark in a text that is preceded by `n` characters more. -/
def Mark.shift (n : Nat) (m : Mark) : Mark :=
  ⟨m.keyword, m.start + n, m.textStart + n⟩

/-- The keyword that stands whole at the start of a text after the
character `previous`, and how much it takes up with its separator. -/
def tag? (previous : Option Char) (s : List Char) : Option (Keyword × Nat) :=
  if previous.any isIdentChar then none
  else
    match readTag s with
    | .ok (k, after) => some (k, s.length - after.length)
    | .error _ => none

/-- The marks of a text that starts at the offset `pos`, after the
character `previous`. -/
def marksFrom (previous : Option Char) (pos : Nat) : List Char → List Mark
  | [] => []
  | c :: rest =>
    match tag? previous (c :: rest) with
    | some (k, size) => ⟨k, pos, pos + size⟩ :: marksFrom (some c) (pos + 1) rest
    | none => marksFrom (some c) (pos + 1) rest

/-- The marks of a text. -/
def marks (s : List Char) : List Mark :=
  marksFrom none 0 s

/-! ## Tags -/

/-- A text starts with one keyword at most. -/
theorem keyword?_eq_some_iff {s rest : List Char} {k : Keyword} :
    keyword? s = some (k, rest) ↔ s = k.letters ++ rest := by
  constructor
  · intro h
    obtain ⟨k', -, hk⟩ := List.exists_of_findSome?_eq_some h
    obtain ⟨rest', hr, he⟩ := Option.map_eq_some_iff.mp hk
    obtain ⟨rfl, rfl⟩ := Prod.mk.inj he
    exact Text.eq_append_of_after? hr
  · rintro rfl
    -- no keyword starts with another, so the order of the table does not matter
    cases k with
    | todo => simp [keyword?, Keyword.all, Text.after?, Keyword.letters]
    | fixme => simp [keyword?, Keyword.all, Text.after?, Keyword.letters]

/-- **The tags that are read.** -/
theorem readTag_eq_ok_iff {s after : List Char} {k : Keyword} :
    readTag s = .ok (k, after) ↔
      ∃ rest, s = k.letters ++ rest ∧ rest.head?.all isSeparator = true ∧
        after = dropSeparator rest := by
  unfold readTag
  constructor
  · intro h
    split at h
    · simp at h
    · next k' rest hk =>
      split at h
      · next hsep =>
        obtain ⟨rfl, rfl⟩ := Prod.mk.inj (Except.ok.inj h)
        exact ⟨rest, keyword?_eq_some_iff.mp hk, hsep, rfl⟩
      · simp at h
  · rintro ⟨rest, rfl, hsep, rfl⟩
    rw [keyword?_eq_some_iff.mpr rfl]
    simp only [hsep, if_true]

/-- **The tags that are found**, with how much they take up. -/
theorem tag?_eq_some_iff {previous : Option Char} {s : List Char} {k : Keyword} {size : Nat} :
    tag? previous s = some (k, size) ↔
      previous.any isIdentChar = false ∧
        ∃ rest, s = k.letters ++ rest ∧ rest.head?.all isSeparator = true ∧
          size = s.length - (dropSeparator rest).length := by
  unfold tag?
  constructor
  · intro h
    split at h
    · simp at h
    · next hp =>
      split at h
      · next k' after hread =>
        obtain ⟨rfl, rfl⟩ := Prod.mk.inj (Option.some.inj h)
        obtain ⟨rest, hs, hsep, rfl⟩ := readTag_eq_ok_iff.mp hread
        exact ⟨by simpa using hp, rest, hs, hsep, rfl⟩
      · simp at h
  · rintro ⟨hp, rest, hs, hsep, rfl⟩
    have hread := readTag_eq_ok_iff.mpr ⟨rest, hs, hsep, rfl⟩
    simp [hp, hread]

theorem exists_append_dropColon (s : List Char) :
    ∃ colon, s = colon ++ dropColon s ∧ ∀ c ∈ colon, c = ':' := by
  unfold dropColon
  split
  · exact ⟨[':'], rfl, by simp⟩
  · exact ⟨[], rfl, by simp⟩

/-- A separator is made of spaces, tabs and colons. -/
theorem exists_append_dropSeparator (s : List Char) :
    ∃ separator, s = separator ++ dropSeparator s ∧
      ∀ c ∈ separator, isGap c = true ∨ c = ':' := by
  obtain ⟨colon, hs, hcolon⟩ := exists_append_dropColon (s.dropWhile isGap)
  refine ⟨s.takeWhile isGap ++ colon ++ (dropColon (s.dropWhile isGap)).takeWhile isGap, ?_, ?_⟩
  · rw [dropSeparator, List.append_assoc, List.takeWhile_append_dropWhile, List.append_assoc, ← hs,
      List.takeWhile_append_dropWhile]
  · intro c hc
    simp only [List.mem_append] at hc
    rcases hc with (hc | hc) | hc
    · exact .inl (List.mem_takeWhile_imp hc)
    · exact .inr (hcolon c hc)
    · exact .inl (List.mem_takeWhile_imp hc)

/-! ## Tags before a line end -/

/-- A text that is empty or starts with a line end. -/
def EndsLine (s : List Char) : Prop :=
  ∀ c, s.head? = some c → isLineEnd c = true

theorem endsLine_cons {c : Char} (hc : isLineEnd c = true) (s : List Char) :
    EndsLine (c :: s) := by
  intro d hd
  obtain rfl : c = d := by simpa using hd
  exact hc

/-- What a line end is: a blank, but neither a colon nor a gap. -/
theorem lineEnd_facts {c : Char} (hc : isLineEnd c = true) :
    isSeparator c = true ∧ isGap c = false ∧ c ≠ ':' := by
  have h : c = '\r' ∨ c = '\n' := by simpa [isLineEnd] using hc
  rcases h with rfl | rfl <;> decide

theorem isLineEnd_of_mem_letters {k : Keyword} {c : Char} (hc : c ∈ k.letters) :
    isLineEnd c = false := by
  have all : k.letters.all (!isLineEnd ·) = true := by
    cases k <;> decide
  simpa using List.all_eq_true.mp all c hc

/-- A keyword before a line end ends before it. -/
theorem exists_of_letters_append {a b rest : List Char} {k : Keyword} (hb : EndsLine b)
    (h : a ++ b = k.letters ++ rest) : ∃ rest', a = k.letters ++ rest' ∧ rest = rest' ++ b := by
  rcases List.append_eq_append_iff.mp h with ⟨tail, hk, hbt⟩ | ⟨rest', ha, hr⟩
  · cases tail with
    | nil => exact ⟨[], by simpa using hk.symm, by simpa using hbt.symm⟩
    | cons c tail =>
      -- the keyword would reach past `a`, and one of its letters would end the line
      have hend := hb c (by simp [hbt])
      have hnot := isLineEnd_of_mem_letters (k := k) (c := c) (by simp [hk])
      simp [hnot] at hend
  · exact ⟨rest', ha, hr⟩

theorem dropWhile_append_of_head {p : Char → Bool} {b : List Char}
    (hb : ∀ c, b.head? = some c → p c = false) (a : List Char) :
    (a ++ b).dropWhile p = a.dropWhile p ++ b := by
  induction a with
  | nil =>
    cases b with
    | nil => rfl
    | cons c b => simp [hb c rfl]
  | cons c a ih =>
    rw [List.cons_append, List.dropWhile_cons, List.dropWhile_cons, ih]
    split <;> rfl

theorem dropColon_cons_of_ne {c : Char} (hc : c ≠ ':') (s : List Char) :
    dropColon (c :: s) = c :: s := by
  unfold dropColon
  split <;> simp_all

theorem dropColon_append {b : List Char} (hb : ∀ c, b.head? = some c → c ≠ ':')
    (a : List Char) : dropColon (a ++ b) = dropColon a ++ b := by
  cases a with
  | nil =>
    cases b with
    | nil => rfl
    | cons c b => exact dropColon_cons_of_ne (hb c rfl) b
  | cons c a =>
    by_cases hc : c = ':'
    · subst hc
      rfl
    · rw [List.cons_append, dropColon_cons_of_ne hc, dropColon_cons_of_ne hc, List.cons_append]

/-- A separator goes no further than the line. -/
theorem dropSeparator_append {b : List Char} (hb : EndsLine b) (a : List Char) :
    dropSeparator (a ++ b) = dropSeparator a ++ b := by
  have hgap : ∀ c, b.head? = some c → isGap c = false := fun c hc => (lineEnd_facts (hb c hc)).2.1
  have hcolon : ∀ c, b.head? = some c → c ≠ ':' := fun c hc => (lineEnd_facts (hb c hc)).2.2
  rw [dropSeparator, dropWhile_append_of_head hgap, dropColon_append hcolon,
    dropWhile_append_of_head hgap, dropSeparator]

/-- **A line end is as good as the end of the text**: a tag before it is
the tag that is there without it. -/
theorem readTag_append_eq_ok_iff {a b after : List Char} {k : Keyword} (hb : EndsLine b) :
    readTag (a ++ b) = .ok (k, after) ↔
      ∃ after', readTag a = .ok (k, after') ∧ after = after' ++ b := by
  constructor
  · intro h
    obtain ⟨rest, hs, hsep, rfl⟩ := readTag_eq_ok_iff.mp h
    obtain ⟨rest', rfl, rfl⟩ := exists_of_letters_append hb hs
    refine ⟨dropSeparator rest', readTag_eq_ok_iff.mpr ⟨rest', rfl, ?_, rfl⟩,
      dropSeparator_append hb rest'⟩
    cases rest' with
    | nil => rfl
    | cons c rest' => simpa using hsep
  · rintro ⟨after', h, rfl⟩
    obtain ⟨rest, rfl, hsep, rfl⟩ := readTag_eq_ok_iff.mp h
    refine readTag_eq_ok_iff.mpr ⟨rest ++ b, List.append_assoc _ _ _, ?_,
      (dropSeparator_append hb rest).symm⟩
    cases rest with
    | nil =>
      cases hd : b.head? with
      | none => simp [hd]
      | some c => simpa [hd] using (lineEnd_facts (hb c hd)).1
    | cons c rest => simpa using hsep

theorem tag?_append {b : List Char} (hb : EndsLine b) (previous : Option Char) (a : List Char) :
    tag? previous (a ++ b) = tag? previous a := by
  unfold tag?
  split
  · rfl
  · cases ha : readTag a with
    | ok found =>
      obtain ⟨k, after⟩ := found
      rw [(readTag_append_eq_ok_iff hb).mpr ⟨after, ha, rfl⟩]
      simp only [List.length_append]
      congr 2
      omega
    | error _ =>
      cases hab : readTag (a ++ b) with
      | ok found =>
        obtain ⟨k, after⟩ := found
        obtain ⟨after', h, -⟩ := (readTag_append_eq_ok_iff hb).mp hab
        simp [ha] at h
      | error _ => rfl

/-! ## The marks of a text -/

/-- A mark stands where the text starts, or later. -/
theorem le_start_of_mem_marksFrom {previous : Option Char} {pos : Nat} {s : List Char} {m : Mark}
    (h : m ∈ marksFrom previous pos s) : pos ≤ m.start := by
  induction s generalizing previous pos with
  | nil => simp [marksFrom] at h
  | cons c s ih =>
    unfold marksFrom at h
    split at h
    · rcases List.mem_cons.mp h with rfl | h
      · exact le_rfl
      · have := ih h
        omega
    · have := ih h
      omega

/-- **Marks stand in order**, no two at one place. -/
theorem pairwise_start_marksFrom (previous : Option Char) (pos : Nat) (s : List Char) :
    (marksFrom previous pos s).Pairwise (·.start < ·.start) := by
  induction s generalizing previous pos with
  | nil => simp [marksFrom]
  | cons c s ih =>
    unfold marksFrom
    split
    · refine List.pairwise_cons.mpr ⟨?_, ih _ _⟩
      intro m hm
      have hle := le_start_of_mem_marksFrom hm
      show pos < m.start
      omega
    · exact ih _ _

/-- Of what precedes a text only matters whether it is part of a word. -/
theorem marksFrom_congr {p q : Option Char} (h : p.any isIdentChar = q.any isIdentChar)
    (pos : Nat) (s : List Char) : marksFrom p pos s = marksFrom q pos s := by
  cases s with
  | nil => rfl
  | cons c s => simp only [marksFrom, tag?, h]

/-- Marks move with their text. -/
theorem marksFrom_add (previous : Option Char) (pos n : Nat) (s : List Char) :
    marksFrom previous (pos + n) s = (marksFrom previous pos s).map (Mark.shift n) := by
  induction s generalizing previous pos with
  | nil => rfl
  | cons c s ih =>
    have hnext := ih (some c) (pos + 1)
    rw [show pos + 1 + n = pos + n + 1 by omega] at hnext
    unfold marksFrom
    split
    · next k size _ =>
      rw [hnext, List.map_cons, Mark.shift, show pos + n + size = pos + size + n by omega]
    · exact hnext

/-- The character before what follows `a`. -/
def lastOr (previous : Option Char) (a : List Char) : Option Char :=
  a.getLast?.or previous

theorem lastOr_cons (previous : Option Char) (c : Char) (a : List Char) :
    lastOr previous (c :: a) = lastOr (some c) a := by
  unfold lastOr
  rw [List.getLast?_cons]
  cases a.getLast? <;> rfl

/-- **A text before a line end has its own marks.** -/
theorem marksFrom_append {b : List Char} (hb : EndsLine b) (previous : Option Char) (pos : Nat)
    (a : List Char) :
    marksFrom previous pos (a ++ b) =
      marksFrom previous pos a ++ marksFrom (lastOr previous a) (pos + a.length) b := by
  induction a generalizing previous pos with
  | nil => simp [marksFrom, lastOr]
  | cons c a ih =>
    have htag := tag?_append hb previous (c :: a)
    rw [List.cons_append] at htag
    rw [List.cons_append, marksFrom, marksFrom, htag, ih, lastOr_cons, List.length_cons,
      show pos + 1 + a.length = pos + (a.length + 1) by omega]
    split <;> rfl

/-- A character that no keyword starts with. -/
def StartsNone (c : Char) : Prop :=
  ∀ k : Keyword, k.letters.head? ≠ some c

instance (c : Char) : Decidable (StartsNone c) :=
  decidable_of_iff (∀ k ∈ Keyword.all, k.letters.head? ≠ some c)
    ⟨fun h k => h k (by cases k <;> decide), fun h k _ => h k⟩

theorem tag?_eq_none_of_startsNone {c : Char} (hc : StartsNone c) (previous : Option Char)
    (s : List Char) : tag? previous (c :: s) = none := by
  unfold tag?
  split
  · rfl
  · split
    · next k after h =>
      obtain ⟨rest, hs, -, -⟩ := readTag_eq_ok_iff.mp h
      have hhead : k.letters.head? = some c := by
        cases k <;> simp_all [Keyword.letters]
      exact absurd hhead (hc k)
    · rfl

/-- There are no marks where no keyword can start. -/
theorem marksFrom_append_of_startsNone {a : List Char} (ha : ∀ c ∈ a, StartsNone c)
    (previous : Option Char) (pos : Nat) (b : List Char) :
    marksFrom previous pos (a ++ b) = marksFrom (lastOr previous a) (pos + a.length) b := by
  induction a generalizing previous pos with
  | nil => simp [lastOr]
  | cons c a ih =>
    rw [List.forall_mem_cons] at ha
    rw [List.cons_append, marksFrom, tag?_eq_none_of_startsNone ha.1]
    simp only
    rw [ih ha.2, lastOr_cons, List.length_cons,
      show pos + 1 + a.length = pos + (a.length + 1) by omega]

/-- Inside a word no mark starts. -/
theorem marksFrom_cons_of_isIdentChar {p : Char} (hp : isIdentChar p = true) (pos : Nat)
    (c : Char) (s : List Char) :
    marksFrom (some p) pos (c :: s) = marksFrom (some c) (pos + 1) s := by
  have hnone : tag? (some p) (c :: s) = none := by
    simp [tag?, hp]
  rw [marksFrom, hnone]

/-- The letters of a keyword are part of a word, so none of them but the
first can start a mark. -/
theorem marksFrom_letters {k : Keyword} {c : Char} {s rest : List Char}
    (h : c :: s = k.letters ++ rest) (pos : Nat) :
    ∃ last, marksFrom (some c) (pos + 1) s =
      marksFrom (some last) (pos + k.letters.length) rest := by
  cases k with
  | todo =>
    obtain ⟨rfl, rfl⟩ := List.cons.inj h
    refine ⟨'O', ?_⟩
    change marksFrom _ _ ('O' :: 'D' :: 'O' :: rest) = _
    iterate 3 rw [marksFrom_cons_of_isIdentChar (by decide)]
    rfl
  | fixme =>
    obtain ⟨rfl, rfl⟩ := List.cons.inj h
    refine ⟨'E', ?_⟩
    change marksFrom _ _ ('I' :: 'X' :: 'M' :: 'E' :: rest) = _
    iterate 4 rw [marksFrom_cons_of_isIdentChar (by decide)]
    rfl

theorem startsNone_of_separator {c : Char} (h : isGap c = true ∨ c = ':') : StartsNone c := by
  have hc : c = ' ' ∨ c = '\t' ∨ c = ':' := by
    rcases h with h | h
    · have : c = ' ' ∨ c = '\t' := by simpa [isGap] using h
      rcases this with h | h
      · exact .inl h
      · exact .inr (.inl h)
    · exact .inr (.inr h)
  rcases hc with rfl | rfl | rfl <;> decide

/-- **Nothing inside a tag starts another**: what a tag has taken can be
skipped. -/
theorem marksFrom_tag {previous : Option Char} {c : Char} {s : List Char} {k : Keyword}
    {size : Nat} (h : tag? previous (c :: s) = some (k, size)) (pos : Nat) :
    ∃ p after, marksFrom (some c) (pos + 1) s = marksFrom p (pos + size) after := by
  obtain ⟨-, rest, hs, -, hsize⟩ := tag?_eq_some_iff.mp h
  obtain ⟨separator, hrest, hsep⟩ := exists_append_dropSeparator rest
  obtain ⟨last, hlast⟩ := marksFrom_letters hs pos
  -- a tag is its letters and its separator, and neither holds a mark
  have hsize' : size = k.letters.length + separator.length := by
    have hlen := congrArg List.length hs
    have hlen' := congrArg List.length hrest
    rw [List.length_append] at hlen hlen'
    omega
  refine ⟨lastOr (some last) separator, dropSeparator rest, ?_⟩
  rw [hlast, hsize', ← Nat.add_assoc, ← marksFrom_append_of_startsNone
    (fun c hc => startsNone_of_separator (hsep c hc)), ← hrest]

/-! ## What a mark is -/

/-- What stands before a keyword and after it leaves it whole: no
identifier character before, and a colon, a blank or nothing after. -/
structure Whole (before after : List Char) : Prop where
  before_apart : ∀ c, before.getLast? = some c → isIdentChar c = false
  after_apart : ∀ c, after.head? = some c → c = ':' ∨ isBlank c = true

theorem exists_tag?_iff {previous : Option Char} {s : List Char} {k : Keyword} :
    (∃ size, tag? previous s = some (k, size)) ↔
      previous.any isIdentChar = false ∧
        ∃ rest, s = k.letters ++ rest ∧ rest.head?.all isSeparator = true := by
  constructor
  · rintro ⟨size, h⟩
    obtain ⟨hp, rest, hs, hsep, -⟩ := tag?_eq_some_iff.mp h
    exact ⟨hp, rest, hs, hsep⟩
  · rintro ⟨hp, rest, hs, hsep⟩
    exact ⟨_, tag?_eq_some_iff.mpr ⟨hp, rest, hs, hsep, rfl⟩⟩

theorem exists_mem_marksFrom_cons {previous : Option Char} {pos : Nat} {c : Char} {s : List Char}
    {P : Mark → Prop} :
    (∃ m ∈ marksFrom previous pos (c :: s), P m) ↔
      (∃ k size, tag? previous (c :: s) = some (k, size) ∧ P ⟨k, pos, pos + size⟩) ∨
        ∃ m ∈ marksFrom (some c) (pos + 1) s, P m := by
  rw [marksFrom]
  cases tag? previous (c :: s) with
  | none => simp
  | some found =>
    obtain ⟨k, size⟩ := found
    simp

/-- By induction on the text: a keyword stands at its start, or in what
follows its first character. -/
theorem exists_mem_marksFrom_iff {previous : Option Char} {pos p : Nat} {s : List Char}
    {k : Keyword} :
    (∃ m ∈ marksFrom previous pos s, m.keyword = k ∧ m.start = p) ↔
      ∃ before after, s = before ++ k.letters ++ after ∧ p = pos + before.length ∧
        (lastOr previous before).any isIdentChar = false ∧
          after.head?.all isSeparator = true := by
  induction s generalizing previous pos with
  | nil =>
    constructor
    · rintro ⟨m, hm, -⟩
      simp [marksFrom] at hm
    · rintro ⟨before, after, hs, -⟩
      cases k <;> simp [Keyword.letters] at hs
  | cons c s ih =>
    rw [exists_mem_marksFrom_cons, ih]
    constructor
    · rintro (⟨k', size, htag, rfl, rfl⟩ | ⟨before, after, rfl, rfl, hp, hsep⟩)
      · obtain ⟨hp, rest, hs, hsep⟩ := exists_tag?_iff.mp ⟨size, htag⟩
        exact ⟨[], rest, hs, rfl, hp, hsep⟩
      · refine ⟨c :: before, after, rfl, ?_, by rwa [lastOr_cons], hsep⟩
        rw [List.length_cons]
        omega
    · rintro ⟨before, after, hs, rfl, hp, hsep⟩
      cases before with
      | nil =>
        obtain ⟨size, htag⟩ := exists_tag?_iff.mpr ⟨hp, after, hs, hsep⟩
        exact .inl ⟨k, size, htag, rfl, rfl⟩
      | cons d before =>
        obtain ⟨rfl, rfl⟩ := List.cons.inj hs
        refine .inr ⟨before, after, rfl, ?_, by rwa [lastOr_cons] at hp, hsep⟩
        rw [List.length_cons]
        omega

/-- **What the marks of a text are**: its whole keywords. -/
theorem exists_mem_marks_iff {s : List Char} {k : Keyword} {p : Nat} :
    (∃ m ∈ marks s, m.keyword = k ∧ m.start = p) ↔
      ∃ before after, s = before ++ k.letters ++ after ∧ p = before.length ∧
        Whole before after := by
  have hwhole (before after : List Char) :
      ((lastOr none before).any isIdentChar = false ∧ after.head?.all isSeparator = true) ↔
        Whole before after := by
    rw [lastOr, Option.or_none]
    constructor
    · rintro ⟨hb, ha⟩
      refine ⟨?_, ?_⟩
      · intro c hc
        simpa [hc] using hb
      · intro c hc
        simpa [hc, isSeparator] using ha
    · rintro ⟨hb, ha⟩
      refine ⟨?_, ?_⟩
      · cases hc : before.getLast? with
        | none => rfl
        | some c => exact hb c hc
      · cases hc : after.head? with
        | none => rfl
        | some c => simpa [isSeparator] using ha c hc
  rw [marks, exists_mem_marksFrom_iff]
  simp only [Nat.zero_add, hwhole]

/-! ## The hits on the lines -/

/-- A mark of a line, as the scanner tells it. -/
def Mark.onLine (line : Nat) (m : Mark) : Hit :=
  ⟨m.keyword, line, m.start, m.textStart⟩

/-- **Skipping loses nothing.** Where no mark stands before `resume`, the
hits are the marks. -/
theorem hitsFrom_eq {previous : Option Char} {pos resume : Nat} {s : List Char}
    (h : ∀ m ∈ marksFrom previous pos s, resume ≤ m.start) (line : Nat) :
    hitsFrom line previous pos resume s =
      (marksFrom previous pos s).map (Mark.onLine line) := by
  induction s generalizing previous pos resume with
  | nil => rfl
  | cons c s ih =>
    unfold hitsFrom
    split
    · next hskip =>
      -- at a place that is skipped there is no mark
      have hnone : tag? previous (c :: s) = none := by
        rw [Bool.or_eq_true, decide_eq_true_eq] at hskip
        rcases hskip with hlt | hp
        · cases htag : tag? previous (c :: s) with
          | none => rfl
          | some found =>
            obtain ⟨k, size⟩ := found
            have := h ⟨k, pos, pos + size⟩ (by simp [marksFrom, htag])
            simp only at this
            omega
        · simp [tag?, hp]
      simp only [marksFrom, hnone] at h ⊢
      exact ih h
    · next hskip =>
      rw [Bool.or_eq_true, not_or, Bool.not_eq_true, Bool.not_eq_true] at hskip
      split
      · next k after hread =>
        have htag : tag? previous (c :: s) =
            some (k, (c :: s).length - after.length) := by
          simp [tag?, hskip.2, hread]
        -- the scanner goes on after the tag, and so do the marks
        obtain ⟨p, rest, hrest⟩ := marksFrom_tag htag pos
        have hnext : ∀ m ∈ marksFrom (some c) (pos + 1) s,
            pos + ((c :: s).length - after.length) ≤ m.start := by
          intro m hm
          rw [hrest] at hm
          exact le_start_of_mem_marksFrom hm
        simp only [marksFrom, htag, List.map_cons, ih hnext]
        rfl
      · next e hread =>
        have htag : tag? previous (c :: s) = none := by
          simp [tag?, hskip.2, hread]
        simp only [marksFrom, htag] at h ⊢
        exact ih h

theorem hitsOnLine_eq (line : Nat) (s : List Char) :
    hitsOnLine line s = (marks s).map (Mark.onLine line) :=
  hitsFrom_eq (fun m _ => Nat.zero_le m.start) line

/-- A hit, as a mark of the text that the pieces are the lines of. -/
def Hit.toMark (pieces : List (List Char)) (h : Hit) : Mark :=
  ⟨h.keyword, Text.place pieces h.line h.start, Text.place pieces h.line h.textStart⟩

/-- The hits of the lines after another line are one line further down. -/
theorem hitsFromLine_succ (line : Nat) (texts : List (List Char)) :
    hitsFromLine (line + 1) texts =
      (hitsFromLine line texts).map fun h => { h with line := h.line + 1 } := by
  induction texts generalizing line with
  | nil => rfl
  | cons text texts ih =>
    rw [hitsFromLine, hitsFromLine, hitsOnLine_eq, hitsOnLine_eq, ih, List.map_append,
      List.map_map]
    rfl

theorem lines_of_not_mem {a : List Char} (h : '\n' ∉ a) :
    lines a = [Text.dropTrailing ['\r'] a] := by
  rw [lines, Text.splitOn_of_not_mem h]
  rfl

theorem lines_append_cons {a : List Char} (h : '\n' ∉ a) (b : List Char) :
    lines (a ++ '\n' :: b) = Text.dropTrailing ['\r'] a :: lines b := by
  rw [lines, Text.splitOn_append_cons h]
  rfl

/-- Carriage returns at the end of a line hold no mark and hide none. -/
theorem marks_dropTrailing (a : List Char) : marks (Text.dropTrailing ['\r'] a) = marks a := by
  obtain ⟨n, ha⟩ := Text.exists_dropTrailing_append '\r' a
  have hret : ∀ c ∈ List.replicate n '\r', c = '\r' := fun c hc => List.eq_of_mem_replicate hc
  have hend : EndsLine (List.replicate n '\r') := by
    intro c hc
    rw [hret c (List.mem_of_mem_head? hc)]
    decide
  have hnone : ∀ c ∈ List.replicate n '\r', StartsNone c := by
    intro c hc
    rw [hret c hc]
    decide
  -- what was taken off ends the line for the rest, and starts no keyword itself
  have hmarks (p : Option Char) (pos : Nat) : marksFrom p pos (List.replicate n '\r') = [] := by
    have := marksFrom_append_of_startsNone hnone p pos []
    rwa [List.append_nil] at this
  conv_rhs => rw [ha]
  rw [marks, marks, marksFrom_append hend, hmarks, List.append_nil]

/-- A line feed parts the marks before it from those after it. -/
theorem marks_append_cons (a b : List Char) :
    marks (a ++ '\n' :: b) = marks a ++ (marks b).map (Mark.shift (a.length + 1)) := by
  have hafter : marksFrom (lastOr none a) (0 + a.length) ('\n' :: b) =
      marksFrom none (0 + (a.length + 1)) b := by
    rw [marksFrom, tag?_eq_none_of_startsNone (by decide)]
    simp only
    rw [marksFrom_congr (show (some '\n').any isIdentChar = none.any isIdentChar by decide),
      Nat.add_assoc]
  rw [marks, marksFrom_append (endsLine_cons (by decide) b), hafter, marksFrom_add, marks, marks]

/-- **The hits on the lines of a comment are the marks of its body**, each
at its place. -/
theorem marks_eq_map_hits (body : List Char) :
    marks body = (hits (lines body)).map (Hit.toMark (Text.splitOn '\n' body)) := by
  have hfirst (pieces : List (List Char)) (a : List Char) :
      ((marks a).map (Mark.onLine 0)).map (Hit.toMark pieces) = marks a := by
    rw [List.map_map]
    refine Eq.trans (List.map_congr_left fun m _ => ?_) (List.map_id _)
    simp [Mark.onLine, Hit.toMark]
  induction body using Text.linesInduction with
  | last a ha =>
    rw [lines_of_not_mem ha, hits, hitsFromLine, hitsFromLine, List.append_nil, hitsOnLine_eq,
      hfirst, marks_dropTrailing]
  | more a b ha ih =>
    -- one line further down is one line and its line feed further on
    have hlater : ((hits (lines b)).map fun h => { h with line := h.line + 1 }).map
        (Hit.toMark (a :: Text.splitOn '\n' b)) = (marks b).map (Mark.shift (a.length + 1)) := by
      rw [ih, List.map_map, List.map_map]
      refine List.map_congr_left fun h _ => ?_
      simp [Hit.toMark, Mark.shift]
    rw [lines_append_cons ha, Text.splitOn_append_cons ha, hits, hitsFromLine, hitsFromLine_succ,
      hitsOnLine_eq, List.map_append, hfirst, marks_dropTrailing]
    rw [hits] at hlater
    rw [hlater, marks_append_cons]

/-! ## Where hits stand -/

/-- **A tag takes up part of its text**, and not nothing. -/
theorem size_of_tag? {previous : Option Char} {s : List Char} {k : Keyword} {size : Nat}
    (h : tag? previous s = some (k, size)) : 0 < size ∧ size ≤ s.length := by
  obtain ⟨-, rest, rfl, -, rfl⟩ := tag?_eq_some_iff.mp h
  obtain ⟨separator, hrest, -⟩ := exists_append_dropSeparator rest
  have hlen := congrArg List.length hrest
  have hletters : 0 < k.letters.length := by
    cases k <;> decide
  rw [List.length_append] at hlen ⊢
  omega

theorem bounds_of_mem_marksFrom {previous : Option Char} {pos : Nat} {s : List Char} {m : Mark}
    (h : m ∈ marksFrom previous pos s) : m.start < m.textStart ∧ m.textStart ≤ pos + s.length := by
  induction s generalizing previous pos with
  | nil => simp [marksFrom] at h
  | cons c s ih =>
    have later (h : m ∈ marksFrom (some c) (pos + 1) s) :
        m.start < m.textStart ∧ m.textStart ≤ pos + (c :: s).length := by
      obtain ⟨hlt, hle⟩ := ih h
      rw [List.length_cons]
      omega
    unfold marksFrom at h
    split at h
    · next k size htag =>
      rcases List.mem_cons.mp h with rfl | h
      · obtain ⟨hpos, hle⟩ := size_of_tag? htag
        simp only
        omega
      · exact later h
    · exact later h

/-- A hit is a mark of the line that it names. -/
theorem exists_of_mem_hitsFromLine {line : Nat} {texts : List (List Char)} {h : Hit}
    (hm : h ∈ hitsFromLine line texts) :
    ∃ text m, line ≤ h.line ∧ texts[h.line - line]? = some text ∧ m ∈ marks text ∧
      h = m.onLine h.line := by
  induction texts generalizing line with
  | nil => simp [hitsFromLine] at hm
  | cons text texts ih =>
    rw [hitsFromLine, List.mem_append, hitsOnLine_eq, List.mem_map] at hm
    rcases hm with ⟨m, hm, rfl⟩ | hm
    · exact ⟨text, m, le_rfl, by simp [Mark.onLine], hm, rfl⟩
    · obtain ⟨text', m, hle, htext, hm, heq⟩ := ih hm
      refine ⟨text', m, by omega, ?_, hm, heq⟩
      rw [show h.line - line = (h.line - (line + 1)) + 1 by omega, List.getElem?_cons_succ]
      exact htext

/-- **The line of a hit is the number of line feeds before it** in the
body of its comment. -/
theorem count_take_start {body : List Char} {h : Hit} (hm : h ∈ hits (lines body)) :
    (body.take (h.toMark (Text.splitOn '\n' body)).start).count '\n' = h.line := by
  obtain ⟨text, m, -, htext, hmark, heq⟩ := exists_of_mem_hitsFromLine hm
  rw [Nat.sub_zero, lines, List.getElem?_map, Option.map_eq_some_iff] at htext
  obtain ⟨piece, hpiece, rfl⟩ := htext
  have hbounds := bounds_of_mem_marksFrom hmark
  have hstart : h.start = m.start := by
    rw [heq]
    rfl
  have hlen : (Text.dropTrailing ['\r'] piece).length ≤ piece.length := by
    obtain ⟨n, hn⟩ := Text.exists_dropTrailing_append '\r' piece
    have := congrArg List.length hn
    rw [List.length_append] at this
    omega
  exact Text.count_take_place body hpiece (by omega)

end Marginalia.Comment
