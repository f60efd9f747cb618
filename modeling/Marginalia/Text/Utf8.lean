/-!
# UTF-8

Reading bytes as text. A character is a lead byte and as many followers
as the lead asks for, each in the range the lead allows; a lead whose
followers stop short, or a byte that leads nothing, is damage. Damage is
read one maximal subpart at a time: the lead with the followers that
still fit. Lenient reading puts one replacement character for each,
strict reading refuses the bytes.
-/

namespace Marginalia.Utf8

/-- The bytes of a text. -/
def encode (s : List Char) : List UInt8 :=
  s.flatMap String.utf8EncodeChar

/-- The ranges in which the bytes after `lead` must lie, one for each;
none when no character starts with that byte. Overlong forms, surrogates
and code points past the last plane are excluded by the range of the
first follower. -/
def followers? (lead : UInt8) : Option (List (UInt8 × UInt8)) :=
  if lead < 0x80 then some []
  else if lead < 0xc2 then none
  else if lead < 0xe0 then some [(0x80, 0xbf)]
  else if lead = 0xe0 then some [(0xa0, 0xbf), (0x80, 0xbf)]
  else if lead = 0xed then some [(0x80, 0x9f), (0x80, 0xbf)]
  else if lead < 0xf0 then some [(0x80, 0xbf), (0x80, 0xbf)]
  else if lead = 0xf0 then some [(0x90, 0xbf), (0x80, 0xbf), (0x80, 0xbf)]
  else if lead < 0xf4 then some [(0x80, 0xbf), (0x80, 0xbf), (0x80, 0xbf)]
  else if lead = 0xf4 then some [(0x80, 0x8f), (0x80, 0xbf), (0x80, 0xbf)]
  else none

/-- The bytes that lie in the given ranges, up to the first that does
not. -/
def takeFollowers : List (UInt8 × UInt8) → List UInt8 → List UInt8
  | (lo, hi) :: ranges, b :: bytes =>
    if lo ≤ b && b ≤ hi then b :: takeFollowers ranges bytes else []
  | _, _ => []

/-- The code point of a lead byte with its followers: six bits of each
follower below the bits that the lead holds besides its mark. -/
def codePoint (lead : UInt8) (following : List UInt8) : Nat :=
  let high := if following.isEmpty then lead.toNat else lead.toNat % Nat.pow 2 (6 - following.length)
  following.foldl (fun n b => n * 64 + b.toNat % 64) high

/-- Reads what starts at `lead`: a character, or none for a maximal
damaged subpart; and the bytes after it. -/
def readOne (lead : UInt8) (rest : List UInt8) : Option Char × List UInt8 :=
  match followers? lead with
  | none => (none, rest)
  | some ranges =>
    let following := takeFollowers ranges rest
    let char := if following.length = ranges.length then
      some (Char.ofNat (codePoint lead following))
    else
      none
    (char, rest.drop following.length)

theorem length_readOne_le (lead : UInt8) (rest : List UInt8) :
    (readOne lead rest).2.length ≤ rest.length := by
  unfold readOne
  split <;> simp

/-- The characters read from the bytes, with none in the place of
damage, after those in `done`. -/
def readOnto (done : List (Option Char)) : List UInt8 → List (Option Char)
  | [] => done.reverse
  | lead :: rest => readOnto ((readOne lead rest).1 :: done) (readOne lead rest).2
termination_by bytes => bytes.length
decreasing_by exact Nat.lt_succ_of_le (length_readOne_le lead rest)

/-- The characters read from the bytes, with none in the place of each
damaged subpart. -/
def read (bytes : List UInt8) : List (Option Char) :=
  readOnto [] bytes

/-- The character that stands for damage. -/
def replacement : Char := Char.ofNat 0xfffd

/-- Lenient reading: every damaged subpart becomes one replacement
character. -/
def decodeLossy (bytes : List UInt8) : List Char :=
  (read bytes).map (·.getD replacement)

/-- Strict reading: none when the bytes are damaged anywhere. -/
def decode? (bytes : List UInt8) : Option (List Char) :=
  (read bytes).mapM id

end Marginalia.Utf8
