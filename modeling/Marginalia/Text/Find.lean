/-!
# Finding one text in another

The searches that comment delimiters, borders and lines are read with.
Texts are lists of characters, and a successful search answers with the
parts it found, so that putting them together again gives the text
searched.
-/

namespace Marginalia.Text

/-- What follows `opening` when the text starts with it. -/
def after? : List Char → List Char → Option (List Char)
  | [], s => some s
  | _ :: _, [] => none
  | o :: opening, c :: s => if o = c then after? opening s else none

/-- What follows comes after what was matched. -/
theorem eq_append_of_after? {opening s rest : List Char} (h : after? opening s = some rest) :
    s = opening ++ rest := by
  fun_induction after? opening s with
  | case1 s => simpa using h
  | case2 => simp at h
  | case3 opening c s ih => simp [ih h]
  | case4 => simp at h

/-- A text that starts with `opening` is recognised. -/
@[simp]
theorem after?_append (opening rest : List Char) :
    after? opening (opening ++ rest) = some rest := by
  induction opening with
  | nil => rfl
  | cons o opening ih => simp [after?, ih]

/-- The offset of the first occurrence of `pattern` in a text that
starts at the offset `n` itself. -/
def findFrom (pattern : List Char) (n : Nat) : List Char → Option Nat
  | [] => if pattern = [] then some n else none
  | c :: rest =>
    if (after? pattern (c :: rest)).isSome then some n else findFrom pattern (n + 1) rest

/-- The offset of the first occurrence of `pattern`. -/
def find? (pattern s : List Char) : Option Nat :=
  findFrom pattern 0 s

/-- The pattern stands at the offset found. -/
theorem exists_after?_of_findFrom {pattern s : List Char} {k n : Nat}
    (h : findFrom pattern k s = some n) :
    k ≤ n ∧ ∃ rest, after? pattern (s.drop (n - k)) = some rest := by
  induction s generalizing k with
  | nil =>
    simp only [findFrom] at h
    split at h
    · next hp => exact ⟨by simp_all, [], by simp [hp, after?]⟩
    · simp at h
  | cons c s ih =>
    simp only [findFrom] at h
    split at h
    · next hs =>
      obtain rfl : k = n := by simpa using h
      simpa using Option.isSome_iff_exists.mp hs
    · obtain ⟨hk, rest, hr⟩ := ih h
      refine ⟨by omega, rest, ?_⟩
      rw [show n - k = (n - (k + 1)) + 1 by omega, List.drop_succ_cons]
      exact hr

/-- What stands before the first occurrence of `pattern` and what stands
after it. -/
def cut? (pattern s : List Char) : Option (List Char × List Char) :=
  (find? pattern s).map fun n => (s.take n, s.drop (n + pattern.length))

/-- Nothing is lost in a cut but the pattern. -/
theorem eq_append_of_cut? {pattern s before rest : List Char}
    (h : cut? pattern s = some (before, rest)) : s = before ++ pattern ++ rest := by
  obtain ⟨n, hn, he⟩ := Option.map_eq_some_iff.mp h
  obtain ⟨rfl, rfl⟩ := Prod.mk.inj he
  obtain ⟨-, rest, hr⟩ := exists_after?_of_findFrom hn
  have hs := eq_append_of_after? hr
  rw [Nat.sub_zero] at hs
  rw [← List.drop_drop, hs, List.drop_left, List.append_assoc, ← hs, List.take_append_drop]

/-- A match of a text that is not empty leaves less. -/
theorem length_lt_of_after? {opening s rest : List Char} (hne : opening ≠ [])
    (h : after? opening s = some rest) : rest.length < s.length := by
  have hs := congrArg List.length (eq_append_of_after? h)
  have := List.length_pos_iff.mpr hne
  simp only [List.length_append] at hs
  omega

/-- The text without the copies of `piece` it starts with. An empty
piece removes nothing. -/
def dropLeading (piece s : List Char) : List Char :=
  if hne : piece = [] then
    s
  else
    match h : after? piece s with
    | none => s
    | some rest =>
      have := length_lt_of_after? hne h
      dropLeading piece rest
termination_by s.length

/-- The text without the copies of `piece` it ends with. -/
def dropTrailing (piece s : List Char) : List Char :=
  (dropLeading piece.reverse s.reverse).reverse

/-- The pieces of a text between the occurrences of `mark`: one more
than there are marks. -/
def splitOn (mark : Char) (s : List Char) : List (List Char) :=
  s.foldr (fun c pieces => if c = mark then [] :: pieces else pieces.modifyHead (c :: ·)) [[]]

/-- The pieces with `mark` between each two. -/
def joinWith (mark : Char) (pieces : List (List Char)) : List Char :=
  List.intercalate [mark] pieces

end Marginalia.Text
