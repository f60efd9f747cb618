import Marginalia.Text.Find
import Mathlib.Data.List.Basic

/-!
# Lines and places

A text is split at its line feeds, and a place in it can be named in two
ways: by its offset, or by its line and the offset on that line. `place`
goes from the second to the first, and `count_take_place` back: the line
of a place is the number of line feeds before it. A text that is cut at a
place has its lines cut there (`splitOn_take_place`,
`splitOn_drop_place`). `linesInduction` is the induction that all of these
follow, over the lines of a text.
-/

namespace Marginalia.Text

/-! ## Splitting -/

theorem splitOn_cons (mark c : Char) (s : List Char) :
    splitOn mark (c :: s) =
      if c = mark then [] :: splitOn mark s else (splitOn mark s).modifyHead (c :: ·) := rfl

/-- A text without the mark is one piece. -/
theorem splitOn_of_not_mem {mark : Char} {s : List Char} (h : mark ∉ s) :
    splitOn mark s = [s] := by
  induction s with
  | nil => rfl
  | cons c s ih =>
    rw [List.mem_cons, not_or] at h
    rw [splitOn_cons, if_neg (Ne.symm h.1), ih h.2]
    rfl

/-- There is a piece at least. -/
theorem splitOn_ne_nil (mark : Char) (s : List Char) : splitOn mark s ≠ [] := by
  induction s with
  | nil => exact List.cons_ne_nil _ _
  | cons c s ih =>
    rw [splitOn_cons]
    split
    · exact List.cons_ne_nil _ _
    · rwa [Ne, List.modifyHead_eq_nil_iff]

/-- A mark ends the pieces before it. -/
theorem splitOn_append_mark (mark : Char) (a b : List Char) :
    splitOn mark (a ++ mark :: b) = splitOn mark a ++ splitOn mark b := by
  induction a with
  | nil =>
    rw [List.nil_append, splitOn_cons, if_pos rfl]
    rfl
  | cons c a ih =>
    rw [List.cons_append, splitOn_cons, splitOn_cons, ih]
    split
    · rfl
    · obtain ⟨first, others, hs⟩ := List.exists_cons_of_ne_nil (splitOn_ne_nil mark a)
      rw [hs]
      rfl

/-- The first mark ends the first piece. -/
theorem splitOn_append_cons {mark : Char} {a : List Char} (h : mark ∉ a) (b : List Char) :
    splitOn mark (a ++ mark :: b) = a :: splitOn mark b := by
  rw [splitOn_append_mark, splitOn_of_not_mem h, List.singleton_append]

/-- A piece does not have the mark that the pieces are split at. -/
theorem not_mem_of_mem_splitOn {mark : Char} {s piece : List Char}
    (h : piece ∈ splitOn mark s) : mark ∉ piece := by
  induction s generalizing piece with
  | nil =>
    rw [List.mem_singleton.mp h]
    exact List.not_mem_nil
  | cons c s ih =>
    rw [splitOn_cons] at h
    split at h
    · rcases List.mem_cons.mp h with rfl | h
      · exact List.not_mem_nil
      · exact ih h
    · next hc =>
      cases hs : splitOn mark s with
      | nil => simp [hs] at h
      | cons first others =>
        rw [hs] at h ih
        rcases List.mem_cons.mp h with rfl | h
        · rw [List.mem_cons, not_or]
          exact ⟨Ne.symm hc, ih List.mem_cons_self⟩
        · exact ih (List.mem_cons_of_mem _ h)

/-- The first piece is empty only at the start of a text that is empty or
starts with the mark. -/
theorem eq_nil_or_cons_of_splitOn {mark : Char} {s : List Char} {pieces : List (List Char)}
    (h : splitOn mark s = [] :: pieces) :
    s = [] ∧ pieces = [] ∨ ∃ rest, s = mark :: rest ∧ pieces = splitOn mark rest := by
  cases s with
  | nil => exact .inl ⟨rfl, (List.cons.inj h).2.symm⟩
  | cons c s =>
    rw [splitOn_cons] at h
    split at h
    · next hc => exact .inr ⟨s, by rw [hc], (List.cons.inj h).2.symm⟩
    · obtain ⟨first, others, hs⟩ := List.exists_cons_of_ne_nil (splitOn_ne_nil mark s)
      rw [hs] at h
      cases (List.cons.inj h).1

/-- Only the empty text is a single empty piece. -/
theorem eq_nil_of_splitOn {mark : Char} {s : List Char} (h : splitOn mark s = [[]]) : s = [] := by
  rcases eq_nil_or_cons_of_splitOn h with ⟨hs, -⟩ | ⟨rest, -, hrest⟩
  · exact hs
  · exact absurd hrest.symm (splitOn_ne_nil mark rest)

/-- Splitting undoes joining: the pieces come back, if there are any. -/
theorem splitOn_joinWith {mark : Char} {pieces : List (List Char)} (hne : pieces ≠ [])
    (h : ∀ piece ∈ pieces, mark ∉ piece) : splitOn mark (joinWith mark pieces) = pieces := by
  induction pieces with
  | nil => exact absurd rfl hne
  | cons piece pieces ih =>
    rw [List.forall_mem_cons] at h
    cases pieces with
    | nil => rw [joinWith, List.intercalate_singleton, splitOn_of_not_mem h.1]
    | cons second others =>
      rw [joinWith, List.intercalate_cons_cons, List.append_assoc, List.singleton_append,
        splitOn_append_cons h.1, ← joinWith, ih (List.cons_ne_nil _ _) h.2]

/-- Lines that are each ended by the mark are the pieces, with an empty one
after the last mark. -/
theorem splitOn_flatMap_concat {mark : Char} {pieces : List (List Char)}
    (h : ∀ piece ∈ pieces, mark ∉ piece) :
    splitOn mark (pieces.flatMap (· ++ [mark])) = pieces ++ [[]] := by
  induction pieces with
  | nil => rfl
  | cons piece pieces ih =>
    rw [List.forall_mem_cons] at h
    rw [List.flatMap_cons, List.append_assoc, List.singleton_append, splitOn_append_cons h.1,
      ih h.2, List.cons_append]

/-- **Induction over the lines of a text**: it is one line, or a line and
a text after it. -/
theorem linesInduction {P : List Char → Prop}
    (last : ∀ a, '\n' ∉ a → P a)
    (more : ∀ a b, '\n' ∉ a → P b → P (a ++ '\n' :: b)) (s : List Char) : P s := by
  induction hn : s.length using Nat.strongRecOn generalizing s with
  | ind n ih =>
    by_cases hmem : '\n' ∈ s
    · obtain ⟨a, b, rfl, ha⟩ := List.eq_append_cons_of_mem hmem
      have hlt : b.length < n := by
        rw [← hn, List.length_append, List.length_cons]
        omega
      exact more a b ha (ih b.length hlt b rfl)
    · exact last s hmem

/-! ## Places -/

/-- The offset of a place that is given by its line and the offset on that
line. Each line before it counts with its line feed. -/
def place : List (List Char) → Nat → Nat → Nat
  | a :: pieces, line + 1, offset => place pieces line offset + (a.length + 1)
  | _, _, offset => offset

@[simp] theorem place_zero (pieces : List (List Char)) (offset : Nat) :
    place pieces 0 offset = offset := by
  cases pieces <;> rfl

@[simp] theorem place_cons_succ (a : List Char) (pieces : List (List Char)) (line offset : Nat) :
    place (a :: pieces) (line + 1) offset = place pieces line offset + (a.length + 1) := rfl

/-- **The line of a place is the number of line feeds before it.** -/
theorem count_take_place (s : List Char) {piece : List Char} {line offset : Nat}
    (hline : (splitOn '\n' s)[line]? = some piece) (hoffset : offset ≤ piece.length) :
    (s.take (place (splitOn '\n' s) line offset)).count '\n' = line := by
  induction s using linesInduction generalizing line with
  | last a ha =>
    rw [splitOn_of_not_mem ha] at hline ⊢
    cases line with
    | zero =>
      rw [place_zero]
      exact List.count_eq_zero_of_not_mem fun hmem => ha (List.mem_of_mem_take hmem)
    | succ line => simp at hline
  | more a b ha ih =>
    rw [splitOn_append_cons ha] at hline ⊢
    cases line with
    | zero =>
      obtain rfl : a = piece := by simpa using hline
      rw [place_zero, List.take_append_of_le_length hoffset]
      exact List.count_eq_zero_of_not_mem fun hmem => ha (List.mem_of_mem_take hmem)
    | succ line =>
      -- the first line has the one line feed that ends it, and the place is past it
      have hb := ih (by simpa using hline)
      have hfeed : a ++ '\n' :: b = (a ++ ['\n']) ++ b := by simp
      have hlen : place (splitOn '\n' b) line offset + (a.length + 1) =
          (a ++ ['\n']).length + place (splitOn '\n' b) line offset := by
        rw [List.length_append, List.length_singleton]
        omega
      rw [place_cons_succ, hfeed, hlen, List.take_length_add_append, List.count_append,
        List.count_append, hb, List.count_eq_zero_of_not_mem ha, List.count_singleton_self]
      omega

/-! ## Cutting at a place -/

/-- The lines up to a place: those before its line, and its line up to
it. -/
theorem splitOn_take_place (s : List Char) {piece : List Char} {line offset : Nat}
    (hline : (splitOn '\n' s)[line]? = some piece) (hoffset : offset ≤ piece.length) :
    splitOn '\n' (s.take (place (splitOn '\n' s) line offset)) =
      (splitOn '\n' s).take line ++ [piece.take offset] := by
  induction s using linesInduction generalizing line with
  | last a ha =>
    rw [splitOn_of_not_mem ha] at hline ⊢
    cases line with
    | zero =>
      obtain rfl : a = piece := by simpa using hline
      rw [place_zero, splitOn_of_not_mem fun hmem => ha (List.mem_of_mem_take hmem)]
      rfl
    | succ line => simp at hline
  | more a b ha ih =>
    rw [splitOn_append_cons ha] at hline ⊢
    cases line with
    | zero =>
      obtain rfl : a = piece := by simpa using hline
      rw [place_zero, List.take_append_of_le_length hoffset,
        splitOn_of_not_mem fun hmem => ha (List.mem_of_mem_take hmem)]
      rfl
    | succ line =>
      -- the first line stays whole, and the rest is cut
      have hlen : place (splitOn '\n' b) line offset + (a.length + 1) =
          a.length + (place (splitOn '\n' b) line offset + 1) := by omega
      rw [place_cons_succ, hlen, List.take_length_add_append, List.take_succ_cons,
        splitOn_append_cons ha, ih (by simpa using hline), List.take_succ_cons, List.cons_append]

/-- The lines from a place on: its line from there, and those after it. -/
theorem splitOn_drop_place (s : List Char) {piece : List Char} {line offset : Nat}
    (hline : (splitOn '\n' s)[line]? = some piece) (hoffset : offset ≤ piece.length) :
    splitOn '\n' (s.drop (place (splitOn '\n' s) line offset)) =
      ((splitOn '\n' s).drop line).modifyHead (·.drop offset) := by
  induction s using linesInduction generalizing line with
  | last a ha =>
    rw [splitOn_of_not_mem ha] at hline ⊢
    cases line with
    | zero =>
      obtain rfl : a = piece := by simpa using hline
      rw [place_zero, splitOn_of_not_mem fun hmem => ha (List.mem_of_mem_drop hmem)]
      rfl
    | succ line => simp at hline
  | more a b ha ih =>
    rw [splitOn_append_cons ha] at hline ⊢
    cases line with
    | zero =>
      obtain rfl : a = piece := by simpa using hline
      rw [place_zero, List.drop_append_of_le_length hoffset,
        splitOn_append_cons fun hmem => ha (List.mem_of_mem_drop hmem)]
      rfl
    | succ line =>
      have hlen : place (splitOn '\n' b) line offset + (a.length + 1) =
          a.length + (place (splitOn '\n' b) line offset + 1) := by omega
      rw [place_cons_succ, hlen, List.drop_length_add_append, List.drop_succ_cons,
        ih (by simpa using hline), List.drop_succ_cons]

/-- Of the lines only those before a place decide its offset. -/
theorem place_take_append {pieces : List (List Char)} {line n : Nat} (h : line ≤ n)
    (hn : n ≤ pieces.length) (more : List (List Char)) (offset : Nat) :
    place (pieces.take n ++ more) line offset = place pieces line offset := by
  induction pieces generalizing line n with
  | nil =>
    obtain rfl : line = 0 := by
      rw [List.length_nil] at hn
      omega
    rw [place_zero, place_zero]
  | cons a pieces ih =>
    cases line with
    | zero => rw [place_zero, place_zero]
    | succ line =>
      obtain ⟨n, rfl⟩ : ∃ m, n = m + 1 := ⟨n - 1, by omega⟩
      rw [List.take_succ_cons, List.cons_append, place_cons_succ, place_cons_succ,
        ih (by omega) (by simpa using hn)]

/-! ## What trimming takes off -/

/-- Only copies of the piece are taken off the start. -/
theorem exists_append_dropLeading (piece s : List Char) :
    ∃ n, s = (List.replicate n piece).flatten ++ dropLeading piece s := by
  induction hn : s.length using Nat.strongRecOn generalizing s with
  | ind n ih =>
    unfold dropLeading
    split
    · exact ⟨0, by simp⟩
    · next hne =>
      split
      · exact ⟨0, by simp⟩
      · next rest hrest =>
        have hlt := length_lt_of_after? hne hrest
        obtain ⟨m, hm⟩ := ih rest.length (by omega) rest rfl
        refine ⟨m + 1, ?_⟩
        rw [List.replicate_succ, List.flatten_cons, List.append_assoc, ← hm]
        exact eq_append_of_after? hrest

/-- **None is left there.** -/
theorem not_isPrefix_dropLeading {piece : List Char} (hne : piece ≠ []) (s : List Char) :
    ¬ piece <+: dropLeading piece s := by
  induction hn : s.length using Nat.strongRecOn generalizing s with
  | ind n ih =>
    unfold dropLeading
    rw [dif_neg hne]
    split
    · next hnone =>
      rintro ⟨rest, rfl⟩
      rw [after?_append] at hnone
      cases hnone
    · next rest hrest =>
      have hlt := length_lt_of_after? hne hrest
      exact ih rest.length (by omega) rest rfl

/-- Copies are copies in reverse. -/
theorem reverse_flatten_replicate (n : Nat) (piece : List Char) :
    (List.replicate n piece).flatten.reverse = (List.replicate n piece.reverse).flatten := by
  rw [List.reverse_flatten, List.map_replicate, List.reverse_replicate]

/-- Only copies of the piece are taken off the end. -/
theorem exists_dropTrailing_append_copies (piece s : List Char) :
    ∃ n, s = dropTrailing piece s ++ (List.replicate n piece).flatten := by
  obtain ⟨n, hn⟩ := exists_append_dropLeading piece.reverse s.reverse
  have hrev := congrArg List.reverse hn
  rw [List.reverse_reverse, List.reverse_append, reverse_flatten_replicate,
    List.reverse_reverse] at hrev
  exact ⟨n, hrev⟩

/-- Only copies of the character are taken off the end. -/
theorem exists_dropTrailing_append (c : Char) (s : List Char) :
    ∃ n, s = dropTrailing [c] s ++ List.replicate n c := by
  obtain ⟨n, hn⟩ := exists_dropTrailing_append_copies [c] s
  rw [List.flatten_replicate_singleton] at hn
  exact ⟨n, hn⟩

end Marginalia.Text
