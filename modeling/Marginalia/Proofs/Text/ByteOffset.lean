import Marginalia.Text.Utf8

/-!
# Offsets in bytes

A place in a text can be given by the bytes before it. Not every number of
bytes is a place: some lie past the end, and some inside a character.
`divideAt?` finds the place where there is one, and `slice?` what lies
between two; there is something between them exactly where the text is put
together from three parts of that many bytes (`slice?_eq_some_iff`).
-/

namespace Marginalia.Text

/-- How many bytes a text takes up. -/
def size (s : List Char) : Nat :=
  (Utf8.encode s).length

@[simp] theorem size_nil : size [] = 0 := rfl

@[simp] theorem size_append (a b : List Char) : size (a ++ b) = size a + size b := by
  rw [size, Utf8.encode, List.flatMap_append, List.length_append]
  rfl

@[simp] theorem size_cons (c : Char) (s : List Char) : size (c :: s) = c.utf8Size + size s := by
  rw [← List.singleton_append, size_append]
  simp [size, Utf8.encode]

/-- The text up to a byte offset, and the text from there on; nothing where
the offset lies inside a character or past the end. -/
def divideAt? : Nat → List Char → Option (List Char × List Char)
  | 0, s => some ([], s)
  | _ + 1, [] => none
  | n + 1, c :: s =>
    if c.utf8Size ≤ n + 1 then
      (divideAt? (n + 1 - c.utf8Size) s).map fun parts => (c :: parts.1, parts.2)
    else
      none

/-- A text is divided between its characters. -/
theorem divideAt?_size (a b : List Char) : divideAt? (size a) (a ++ b) = some (a, b) := by
  induction a with
  | nil => simp [divideAt?]
  | cons c a ih =>
    have hc := c.utf8Size_pos
    obtain ⟨n, hn⟩ : ∃ n, size (c :: a) = n + 1 := ⟨size (c :: a) - 1, by rw [size_cons]; omega⟩
    have hrest : n + 1 - c.utf8Size = size a := by
      rw [← hn, size_cons]
      omega
    rw [hn, List.cons_append, divideAt?, hrest, ih, if_pos (by rw [← hn, size_cons]; omega)]
    rfl

/-- **The places of a text, by their bytes**, and no others. -/
theorem divideAt?_eq_some_iff {n : Nat} {s a b : List Char} :
    divideAt? n s = some (a, b) ↔ s = a ++ b ∧ size a = n := by
  constructor
  · intro h
    fun_induction divideAt? n s generalizing a with
    | case1 s =>
      obtain ⟨rfl, rfl⟩ := Prod.mk.inj (Option.some.inj h)
      exact ⟨rfl, rfl⟩
    | case2 => cases h
    | case3 n c s hle ih =>
      obtain ⟨⟨a', b'⟩, hparts, he⟩ := Option.map_eq_some_iff.mp h
      obtain ⟨rfl, rfl⟩ := Prod.mk.inj he
      obtain ⟨rfl, hsize⟩ := ih hparts
      refine ⟨rfl, ?_⟩
      rw [size_cons, hsize]
      omega
    | case4 => cases h
  · rintro ⟨rfl, rfl⟩
    exact divideAt?_size a b

/-- The part of a text between two byte offsets; nothing where one of them is
no place of the text, or where the second comes first. -/
def slice? (start stop : Nat) (s : List Char) : Option (List Char) :=
  (divideAt? stop s).bind fun parts => (divideAt? start parts.1).map Prod.snd

/-- **The slices of a text** lie between two of its places. -/
theorem slice?_eq_some_iff {start stop : Nat} {s b : List Char} :
    slice? start stop s = some b ↔
      ∃ a c, s = a ++ b ++ c ∧ size a = start ∧ size (a ++ b) = stop := by
  constructor
  · intro h
    obtain ⟨⟨upTo, c⟩, hstop, h⟩ := Option.bind_eq_some_iff.mp h
    obtain ⟨⟨a, b'⟩, hstart, rfl⟩ := Option.map_eq_some_iff.mp h
    obtain ⟨rfl, hsize⟩ := divideAt?_eq_some_iff.mp hstop
    obtain ⟨rfl, rfl⟩ := divideAt?_eq_some_iff.mp hstart
    exact ⟨a, c, rfl, rfl, hsize⟩
  · rintro ⟨a, c, rfl, rfl, rfl⟩
    rw [slice?, divideAt?_size, Option.bind_some, divideAt?_size]
    rfl

example : slice? 1 3 "aéb".toList = some ['é'] ∧ slice? 1 2 "aéb".toList = none := by
  decide

/-! ## The bytes before a character -/

section

variable {s : List Char} {p q : Nat}

/-- What is taken up to a later place is what is taken up to an earlier one,
and more. -/
theorem take_append_drop_take (h : p ≤ q) (s : List Char) :
    s.take p ++ (s.take q).drop p = s.take q := by
  have htake : (s.take q).take p = s.take p := by
    rw [List.take_take, Nat.min_eq_left h]
  rw [← htake, List.take_append_drop]

theorem size_take_le (h : p ≤ q) (s : List Char) : size (s.take p) ≤ size (s.take q) := by
  rw [← take_append_drop_take h s, size_append]
  omega

theorem size_take_le_size (p : Nat) (s : List Char) : size (s.take p) ≤ size s := by
  have h := congrArg size (List.take_append_drop p s)
  rw [size_append] at h
  omega

theorem size_take_lt (h : p < q) (hq : q ≤ s.length) : size (s.take p) < size (s.take q) := by
  obtain ⟨c, rest, hdrop⟩ : ∃ c rest, (s.take q).drop p = c :: rest := by
    refine List.exists_cons_of_length_pos ?_
    rw [List.length_drop, List.length_take]
    omega
  have hc := c.utf8Size_pos
  rw [← take_append_drop_take (Nat.le_of_lt h) s, hdrop, size_append, size_cons]
  omega

/-- **Bytes order the places of a text as characters do.** -/
theorem size_take_lt_iff (hq : q ≤ s.length) : size (s.take p) < size (s.take q) ↔ p < q := by
  constructor
  · intro h
    refine Nat.lt_of_not_le fun hle => ?_
    have := size_take_le hle s
    omega
  · intro h
    exact size_take_lt h hq

/-- A slice between two places, in the order of the text. -/
theorem slice?_size_take (h : p ≤ q) (s : List Char) :
    slice? (size (s.take p)) (size (s.take q)) s = some ((s.take q).drop p) := by
  refine slice?_eq_some_iff.mpr ⟨s.take p, s.drop q, ?_, rfl, ?_⟩
  · rw [take_append_drop_take h, List.take_append_drop]
  · rw [take_append_drop_take h]

end

end Marginalia.Text
