import Marginalia.Settings.Stop
import Marginalia.Text.Digit

/-!
# Text in settings

Reading what stands between two double quotes, after the first. A
backslash starts an escape; an escape of four hexadecimal digits that is
the first half of a surrogate pair must be followed by the second half.
A control character may not stand there by itself.
-/

namespace Marginalia.Settings

open Text (hexDigit?)

/-- The number that four hexadecimal digits stand for. -/
def hexValue? (a b c d : Char) : Option Nat := do
  let a ← hexDigit? a
  let b ← hexDigit? b
  let c ← hexDigit? c
  let d ← hexDigit? d
  return ((a * 16 + b) * 16 + c) * 16 + d

/-- Stops in an escape whose four bytes are not digits or not there. -/
def stopInHex {α : Type} (s : List Char) : Except Stop α :=
  if (Utf8.encode s).length < 4 then Stop.before .endInText []
  else .error ⟨.invalidEscape, s, 4⟩

/-- Reads four hexadecimal digits. -/
def readHex : List Char → Except Stop (Nat × List Char)
  | a :: b :: c :: d :: rest =>
    match hexValue? a b c d with
    | some n => .ok (n, rest)
    | none => stopInHex (a :: b :: c :: d :: rest)
  | s => stopInHex s

/-- The character that a letter after a backslash stands for. -/
def plainEscape? : Char → Option Char
  | '"' => some '"'
  | '\\' => some '\\'
  | '/' => some '/'
  | 'b' => some '\x08'
  | 'f' => some '\x0c'
  | 'n' => some '\n'
  | 'r' => some '\r'
  | 't' => some '\t'
  | _ => none

/-- Whether a number is the first half of a surrogate pair. -/
def isHighSurrogate (n : Nat) : Bool :=
  0xd800 ≤ n && n ≤ 0xdbff

/-- Whether a number is the second half of a surrogate pair. -/
def isLowSurrogate (n : Nat) : Bool :=
  0xdc00 ≤ n && n ≤ 0xdfff

/-- The character of a surrogate pair. -/
def joinSurrogates (high low : Nat) : Char :=
  Char.ofNat ((high - 0xd800) * 0x400 + (low - 0xdc00) + 0x10000)

/-- Reads one given character that has to follow the first half of a
surrogate pair. -/
def readPairMark (mark : Char) : List Char → Except Stop (List Char)
  | [] => Stop.before .endInText []
  | c :: rest => if c = mark then .ok rest else Stop.past .missingSurrogate (c :: rest)

/-- Reads the second half of a surrogate pair, after the first. -/
def readSecondHalf (high : Nat) (s : List Char) : Except Stop (Char × List Char) := do
  let s ← readPairMark '\\' s
  let s ← readPairMark 'u' s
  let (low, s) ← readHex s
  if isLowSurrogate low then return (joinSurrogates high low, s)
  else Stop.before .loneSurrogate s

/-- Reads an escape by code point, after its letter. -/
def readCodePoint (s : List Char) : Except Stop (Char × List Char) := do
  let (n, s) ← readHex s
  if isLowSurrogate n then Stop.before .loneSurrogate s
  else if isHighSurrogate n then readSecondHalf n s
  else return (Char.ofNat n, s)

/-- Reads an escape, after its backslash. -/
def readEscape : List Char → Except Stop (Char × List Char)
  | [] => Stop.before .endInText []
  | c :: rest =>
    match plainEscape? c with
    | some d => .ok (d, rest)
    | none => if c = 'u' then readCodePoint rest else Stop.past .invalidEscape (c :: rest)

/-- Passes over an escape, after its backslash. Halves of surrogate
pairs need no partner here. -/
def skipEscape : List Char → Except Stop (List Char)
  | [] => Stop.before .endInText []
  | c :: rest =>
    match plainEscape? c with
    | some _ => .ok rest
    | none =>
      if c = 'u' then readHex rest >>= fun found => .ok found.2
      else Stop.past .invalidEscape (c :: rest)

/-! ## What is left -/

theorem length_le_of_readHex {s rest : List Char} {n : Nat} (h : readHex s = .ok (n, rest)) :
    rest.length ≤ s.length := by
  have stuck {s : List Char} (h : stopInHex s = .ok (n, rest)) : False := by
    unfold stopInHex at h
    split at h <;> simp [Stop.before] at h
  unfold readHex at h
  split at h
  · split at h
    · obtain ⟨rfl, rfl⟩ := Prod.mk.inj (Except.ok.inj h)
      simp
      omega
    · exact (stuck h).elim
  · exact (stuck h).elim

theorem length_le_of_readPairMark {mark : Char} {s rest : List Char}
    (h : readPairMark mark s = .ok rest) : rest.length ≤ s.length := by
  unfold readPairMark at h
  split at h
  · simp [Stop.before] at h
  · split at h
    · simp_all
    · simp [Stop.past] at h

theorem length_le_of_readSecondHalf {high : Nat} {s rest : List Char} {c : Char}
    (h : readSecondHalf high s = .ok (c, rest)) : rest.length ≤ s.length := by
  obtain ⟨s₁, h₁, h⟩ := exists_of_bind_eq_ok h
  obtain ⟨s₂, h₂, h⟩ := exists_of_bind_eq_ok h
  obtain ⟨⟨low, s₃⟩, h₃, h⟩ := exists_of_bind_eq_ok h
  have := length_le_of_readPairMark h₁
  have := length_le_of_readPairMark h₂
  have := length_le_of_readHex h₃
  dsimp only at h
  split at h
  · obtain ⟨-, rfl⟩ := Prod.mk.inj (Except.ok.inj h)
    omega
  · simp [Stop.before] at h

theorem length_le_of_readCodePoint {s rest : List Char} {c : Char}
    (h : readCodePoint s = .ok (c, rest)) : rest.length ≤ s.length := by
  obtain ⟨⟨n, s₁⟩, h₁, h⟩ := exists_of_bind_eq_ok h
  have := length_le_of_readHex h₁
  dsimp only at h
  split at h
  · simp [Stop.before] at h
  · split at h
    · have := length_le_of_readSecondHalf h
      omega
    · obtain ⟨-, rfl⟩ := Prod.mk.inj (Except.ok.inj h)
      omega

theorem length_le_of_readEscape {s rest : List Char} {c : Char}
    (h : readEscape s = .ok (c, rest)) : rest.length ≤ s.length := by
  unfold readEscape at h
  split at h
  · simp [Stop.before] at h
  · split at h
    · simp_all
    · split at h
      · exact Nat.le_succ_of_le (length_le_of_readCodePoint h)
      · simp [Stop.past] at h

theorem length_le_of_skipEscape {s rest : List Char} (h : skipEscape s = .ok rest) :
    rest.length ≤ s.length := by
  unfold skipEscape at h
  split at h
  · simp [Stop.before] at h
  · split at h
    · simp_all
    · split at h
      · obtain ⟨found, hx, h⟩ := exists_of_bind_eq_ok h
        obtain rfl := Except.ok.inj h
        exact Nat.le_succ_of_le (length_le_of_readHex hx)
      · simp [Stop.past] at h

/-! ## Whole texts -/

/-- Reads a text up to its closing quote, after the characters in
`done`, which are in reverse. -/
def readTextOnto (done : List Char) : List Char → Except Stop (List Char × List Char)
  | [] => Stop.before .endInText []
  | c :: rest =>
    if c = '"' then .ok (done.reverse, rest)
    else if c = '\\' then
      match h : readEscape rest with
      | .error stop => .error stop
      | .ok (d, rest') =>
        have := length_le_of_readEscape h
        readTextOnto (d :: done) rest'
    else if c.toNat < 0x20 then Stop.past .controlCharacter (c :: rest)
    else readTextOnto (c :: done) rest
termination_by s => s.length

/-- Reads a text, after its opening quote. -/
def readText (s : List Char) : Except Stop (String × List Char) :=
  readTextOnto [] s >>= fun found => .ok (String.ofList found.1, found.2)

/-- Passes over a text, after its opening quote. -/
def skipText : List Char → Except Stop (List Char)
  | [] => Stop.before .endInText []
  | c :: rest =>
    if c = '"' then .ok rest
    else if c = '\\' then
      match h : skipEscape rest with
      | .error stop => .error stop
      | .ok rest' =>
        have := length_le_of_skipEscape h
        skipText rest'
    else if c.toNat < 0x20 then Stop.before .controlCharacter (c :: rest)
    else skipText rest
termination_by s => s.length

theorem length_lt_of_readTextOnto {done s text rest : List Char}
    (h : readTextOnto done s = .ok (text, rest)) : rest.length < s.length := by
  fun_induction readTextOnto done s with
  | case1 => simp [Stop.before] at h
  | case2 => simp_all
  | case3 => simp at h
  | case4 _ _ _ _ _ _ _ ih =>
    have := ih h
    simp only [List.length_cons]
    omega
  | case5 => simp [Stop.past] at h
  | case6 _ _ _ _ _ _ ih =>
    have := ih h
    simp only [List.length_cons]
    omega

theorem length_lt_of_readText {s rest : List Char} {text : String}
    (h : readText s = .ok (text, rest)) : rest.length < s.length := by
  obtain ⟨found, hx, h⟩ := exists_of_bind_eq_ok h
  obtain ⟨-, rfl⟩ := Prod.mk.inj (Except.ok.inj h)
  exact length_lt_of_readTextOnto hx

theorem length_lt_of_skipText {s rest : List Char} (h : skipText s = .ok rest) :
    rest.length < s.length := by
  fun_induction skipText s with
  | case1 => simp [Stop.before] at h
  | case2 => simp_all
  | case3 => simp at h
  | case4 _ _ _ _ _ ih =>
    have := ih h
    simp only [List.length_cons]
    omega
  | case5 => simp [Stop.before] at h
  | case6 _ _ _ _ _ ih =>
    have := ih h
    simp only [List.length_cons]
    omega

end Marginalia.Settings
