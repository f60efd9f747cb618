/-!
# Sets of code points

A property of characters is given as the list of the ranges of code
points that have it, in ascending order. Membership walks the list and
stops at the first range above the code point, so a character of the
ASCII range is settled within the first few entries whatever the size of
the table.
-/

namespace Marginalia

/-- A set of code points: inclusive ranges `(lo, hi)`, ascending and
apart. -/
abbrev CodeSet := List (Nat × Nat)

namespace CodeSet

/-- Whether the code point `n` lies in one of the ranges. -/
def contains (n : Nat) : CodeSet → Bool
  | [] => false
  | (lo, hi) :: rest => lo ≤ n && (n ≤ hi || contains n rest)

end CodeSet

/-- The code point of the character that a code point gives. -/
theorem toNat_ofNat {n : Nat} (h : n.isValidChar) : (Char.ofNat n).toNat = n := by
  rw [Char.ofNat, dif_pos h]
  rfl

end Marginalia
