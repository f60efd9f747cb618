import Marginalia.Settings.Stop
import Marginalia.Text.Digit

/-!
# Numbers in settings

A number without a fraction or an exponent is an integer where it fits
into 64 bits, and every other number is a float. A float is its digits,
as many as fit into 64 bits, times a power of ten: one multiplication or
division by that power, which may leave the last bit off the nearest
float. Minus zero is a float too.
-/

namespace Marginalia.Settings

open Text (digit? isDigit maxCount)

/-- A number that was read. -/
inductive Number where
  | natural (n : Nat)
  /-- The opposite of a natural number. -/
  | negative (n : Nat)
  | float (x : Float)

/-- Whether a text starts with a decimal digit. -/
def startsWithDigit (s : List Char) : Bool :=
  s.head?.any isDigit

/-- The value of the digits read so far, how many there were, and what
follows. -/
structure Digits where
  value : Nat
  count : Nat
  rest : List Char

/-- Appends digits to a value, as long as it does not pass the limit. -/
def takeDigits (limit value : Nat) : List Char → Digits
  | [] => ⟨value, 0, []⟩
  | c :: rest =>
    match digit? c with
    | none => ⟨value, 0, c :: rest⟩
    | some d =>
      if value * 10 + d ≤ limit then
        let more := takeDigits limit (value * 10 + d) rest
        { more with count := more.count + 1 }
      else
        ⟨value, 0, c :: rest⟩

/-- The greatest exponent that is counted. -/
def maxExponent : Nat := Nat.pow 2 31 - 1

/-- A power of ten up to the greatest that a float can hold, which is
the 308th. -/
def tenTo (n : Nat) : Float :=
  Float.ofScientific 1 false n

/-- A float divided by a power of ten, at most 308 places at a time. -/
def divideByTenTo (x : Float) (n : Nat) : Float :=
  if n ≤ 308 then x / tenTo n
  else if x == 0.0 then x
  else divideByTenTo (x / tenTo 308) (n - 308)
termination_by n

/-- A float multiplied by a power of ten; none when the product is too
large. -/
def multiplyByTenTo? (x : Float) (n : Nat) : Option Float :=
  if n ≤ 308 then
    let product := x * tenTo n
    if product.isInf then none else some product
  else if x == 0.0 then some x
  else none

/-- The float of the given digits and power of ten, if it is not too
large. -/
def magnitude? (digits : Nat) (exponent : Int) : Option Float :=
  let x := digits.toUInt64.toFloat
  if exponent < 0 then some (divideByTenTo x (-exponent).toNat)
  else multiplyByTenTo? x exponent.toNat

/-- Ends a float with the given digits and power of ten. -/
def closeFloat (negative : Bool) (digits : Nat) (exponent : Int) (s : List Char) :
    Except Stop (Number × List Char) :=
  match magnitude? digits exponent with
  | some m => .ok (.float (if negative then -m else m), s)
  | none => Stop.before .numberOutOfRange s

/-- The sign at the start of an exponent, and what follows it. -/
def takeSign : List Char → Bool × List Char
  | '+' :: rest => (false, rest)
  | '-' :: rest => (true, rest)
  | s => (false, s)

/-- Reads an exponent, after its letter. An exponent past all counting
makes zero of zero and of every number it divides, and is out of range
for the others. -/
def readExponent (negative : Bool) (digits : Nat) (exponent : Int) (s : List Char) :
    Except Stop (Number × List Char) :=
  let (down, s) := takeSign s
  match s with
  | [] => Stop.before .endInValue []
  | c :: _ =>
    if isDigit c then
      let more := takeDigits maxExponent 0 s
      let shift : Int := if down then -(more.value : Int) else more.value
      match more.rest with
      | [] => closeFloat negative digits (exponent + shift) []
      | d :: rest =>
        if isDigit d then
          if digits ≠ 0 && !down then Stop.before .numberOutOfRange rest
          else .ok (.float (if negative then -0.0 else 0.0), rest.dropWhile isDigit)
        else
          closeFloat negative digits (exponent + shift) (d :: rest)
    else
      Stop.past .invalidNumber s

/-- Reads what may follow the digits of a float: an exponent. -/
def readFloatEnd (negative : Bool) (digits : Nat) (exponent : Int) (s : List Char) :
    Except Stop (Number × List Char) :=
  match s with
  | 'e' :: rest | 'E' :: rest => readExponent negative digits exponent rest
  | _ => closeFloat negative digits exponent s

/-- Reads a fraction, after its point. Digits that no longer fit are
passed over. -/
def readFraction (negative : Bool) (digits : Nat) (exponent : Int) (s : List Char) :
    Except Stop (Number × List Char) :=
  let more := takeDigits maxCount digits s
  if more.count = 0 && !startsWithDigit more.rest then
    Stop.past (if more.rest.isEmpty then .endInValue else .invalidNumber) more.rest
  else
    readFloatEnd negative more.value (exponent - more.count) (more.rest.dropWhile isDigit)

/-- Ends a number without a fraction or an exponent. -/
def closeInteger (negative : Bool) (digits : Nat) : Number :=
  if !negative then .natural digits
  else if 0 < digits ∧ digits ≤ Nat.pow 2 63 then .negative digits
  else .float (-digits.toUInt64.toFloat)

/-- Reads what follows the digits before the point, `dropped` of which
did not fit. -/
def readNumberEnd (negative : Bool) (digits dropped : Nat) (s : List Char) :
    Except Stop (Number × List Char) :=
  match s with
  | '.' :: rest => readFraction negative digits dropped rest
  | 'e' :: rest | 'E' :: rest => readExponent negative digits dropped rest
  | _ =>
    if dropped = 0 then .ok (closeInteger negative digits, s)
    else closeFloat negative digits dropped s

/-- Reads a number, after its minus sign if it has one. -/
def readNumber (negative : Bool) (s : List Char) : Except Stop (Number × List Char) :=
  match s with
  | [] => Stop.before .endInValue []
  | c :: rest =>
    if c = '0' then
      if startsWithDigit rest then Stop.past .invalidNumber rest
      else readNumberEnd negative 0 0 rest
    else if isDigit c then
      let more := takeDigits maxCount 0 s
      let dropped := more.rest.takeWhile isDigit
      readNumberEnd negative more.value dropped.length (more.rest.dropWhile isDigit)
    else
      Stop.past .invalidNumber s

/-! ## Numbers passed over -/

/-- Passes over an exponent, after its letter. -/
def skipExponent (s : List Char) : Except Stop (List Char) :=
  let (_, s) := takeSign s
  if startsWithDigit s then .ok (s.dropWhile isDigit) else Stop.past .invalidNumber s

/-- Passes over what may follow the digits of a number: an exponent. -/
def skipFloatEnd (s : List Char) : Except Stop (List Char) :=
  match s with
  | 'e' :: rest | 'E' :: rest => skipExponent rest
  | _ => .ok s

/-- Passes over what may follow the digits before the point. -/
def skipNumberEnd (s : List Char) : Except Stop (List Char) :=
  match s with
  | '.' :: rest =>
    if startsWithDigit rest then skipFloatEnd (rest.dropWhile isDigit)
    else Stop.past .invalidNumber rest
  | _ => skipFloatEnd s

/-- Passes over a number, after its minus sign if it has one. -/
def skipNumber (s : List Char) : Except Stop (List Char) :=
  match s with
  | [] => Stop.before .invalidNumber []
  | c :: rest =>
    if c = '0' then
      if startsWithDigit rest then Stop.past .invalidNumber rest else skipNumberEnd rest
    else if isDigit c then
      skipNumberEnd (rest.dropWhile isDigit)
    else
      Stop.past .invalidNumber s

/-! ## What is left -/

theorem length_dropWhile_le {s : List Char} (p : Char → Bool) :
    (s.dropWhile p).length ≤ s.length :=
  (List.dropWhile_sublist _).length_le

theorem length_takeDigits_le (limit value : Nat) (s : List Char) :
    (takeDigits limit value s).rest.length ≤ s.length := by
  induction s generalizing value with
  | nil => simp [takeDigits]
  | cons c s ih =>
    unfold takeDigits
    split
    · simp
    · split
      · exact Nat.le_succ_of_le (ih _)
      · simp

theorem length_takeSign_le (s : List Char) : (takeSign s).2.length ≤ s.length := by
  unfold takeSign
  split <;> simp

theorem length_le_of_closeFloat {negative : Bool} {digits : Nat} {exponent : Int}
    {s rest : List Char} {n : Number} (h : closeFloat negative digits exponent s = .ok (n, rest)) :
    rest.length ≤ s.length := by
  unfold closeFloat at h
  split at h
  · obtain ⟨-, rfl⟩ := Prod.mk.inj (Except.ok.inj h)
    exact Nat.le_refl _
  · simp [Stop.before] at h

theorem length_le_of_readExponent {negative : Bool} {digits : Nat} {exponent : Int}
    {s rest : List Char} {n : Number}
    (h : readExponent negative digits exponent s = .ok (n, rest)) : rest.length ≤ s.length := by
  have hs := length_takeSign_le s
  unfold readExponent at h
  generalize takeSign s = signed at h hs
  obtain ⟨down, t⟩ := signed
  have ht := length_takeDigits_le maxExponent 0 t
  dsimp only at h hs
  split at h
  · simp [Stop.before] at h
  · split at h
    · split at h
      · have := length_le_of_closeFloat h
        simp at this
        simp [this]
      · next d r he =>
        rw [he] at ht
        simp only [List.length_cons] at ht
        split at h
        · split at h
          · simp [Stop.before] at h
          · obtain ⟨-, rfl⟩ := Prod.mk.inj (Except.ok.inj h)
            have := length_dropWhile_le isDigit (s := r)
            simp only [List.length_cons] at hs
            omega
        · have := length_le_of_closeFloat h
          simp only [List.length_cons] at this hs
          omega
    · simp [Stop.past] at h

theorem length_le_of_readFloatEnd {negative : Bool} {digits : Nat} {exponent : Int}
    {s rest : List Char} {n : Number}
    (h : readFloatEnd negative digits exponent s = .ok (n, rest)) : rest.length ≤ s.length := by
  unfold readFloatEnd at h
  split at h
  · exact Nat.le_succ_of_le (length_le_of_readExponent h)
  · exact Nat.le_succ_of_le (length_le_of_readExponent h)
  · exact length_le_of_closeFloat h

theorem length_le_of_readFraction {negative : Bool} {digits : Nat} {exponent : Int}
    {s rest : List Char} {n : Number}
    (h : readFraction negative digits exponent s = .ok (n, rest)) : rest.length ≤ s.length := by
  have ht := length_takeDigits_le maxCount digits s
  unfold readFraction at h
  dsimp only at h
  split at h
  · simp [Stop.past] at h
  · have := length_le_of_readFloatEnd h
    have := length_dropWhile_le isDigit (s := (takeDigits maxCount digits s).rest)
    omega

theorem length_le_of_readNumberEnd {negative : Bool} {digits dropped : Nat} {s rest : List Char}
    {n : Number} (h : readNumberEnd negative digits dropped s = .ok (n, rest)) :
    rest.length ≤ s.length := by
  unfold readNumberEnd at h
  split at h
  · exact Nat.le_succ_of_le (length_le_of_readFraction h)
  · exact Nat.le_succ_of_le (length_le_of_readExponent h)
  · exact Nat.le_succ_of_le (length_le_of_readExponent h)
  · split at h
    · obtain ⟨-, rfl⟩ := Prod.mk.inj (Except.ok.inj h)
      exact Nat.le_refl _
    · exact length_le_of_closeFloat h

theorem length_le_of_readNumber {negative : Bool} {s rest : List Char} {n : Number}
    (h : readNumber negative s = .ok (n, rest)) : rest.length ≤ s.length := by
  unfold readNumber at h
  split at h
  · simp [Stop.before] at h
  · next c r =>
    split at h
    · split at h
      · simp [Stop.past] at h
      · exact Nat.le_succ_of_le (length_le_of_readNumberEnd h)
    · split at h
      · have := length_le_of_readNumberEnd h
        have := length_takeDigits_le maxCount 0 (c :: r)
        have := length_dropWhile_le isDigit (s := (takeDigits maxCount 0 (c :: r)).rest)
        omega
      · simp [Stop.past] at h

theorem length_le_of_skipExponent {s rest : List Char} (h : skipExponent s = .ok rest) :
    rest.length ≤ s.length := by
  have hs := length_takeSign_le s
  unfold skipExponent at h
  dsimp only at h
  split at h
  · obtain rfl := Except.ok.inj h
    exact Nat.le_trans (length_dropWhile_le _) hs
  · simp [Stop.past] at h

theorem length_le_of_skipFloatEnd {s rest : List Char} (h : skipFloatEnd s = .ok rest) :
    rest.length ≤ s.length := by
  unfold skipFloatEnd at h
  split at h
  · exact Nat.le_succ_of_le (length_le_of_skipExponent h)
  · exact Nat.le_succ_of_le (length_le_of_skipExponent h)
  · simp_all

theorem length_le_of_skipNumberEnd {s rest : List Char} (h : skipNumberEnd s = .ok rest) :
    rest.length ≤ s.length := by
  unfold skipNumberEnd at h
  split at h
  · split at h
    · exact Nat.le_succ_of_le (Nat.le_trans (length_le_of_skipFloatEnd h) (length_dropWhile_le _))
    · simp [Stop.past] at h
  · exact length_le_of_skipFloatEnd h

theorem length_lt_of_skipNumber {s rest : List Char} (h : skipNumber s = .ok rest) :
    rest.length < s.length := by
  unfold skipNumber at h
  split at h
  · simp [Stop.before] at h
  · split at h
    · split at h
      · simp [Stop.past] at h
      · exact Nat.lt_succ_of_le (length_le_of_skipNumberEnd h)
    · split at h
      · exact Nat.lt_succ_of_le
          (Nat.le_trans (length_le_of_skipNumberEnd h) (length_dropWhile_le _))
      · simp [Stop.past] at h

end Marginalia.Settings
