import Marginalia.Settings.Number
import Marginalia.Settings.Text

/-!
# Values passed over

The value of a key that means nothing is checked for its form and
forgotten. Lists and objects may be nested to any depth: the brackets
that are still open are kept in a list, innermost first, and the text is
read once from front to back.
-/

namespace Marginalia.Settings

open Text (isDigit)

/-- A bracket that is open. -/
inductive Bracket where
  | list
  | object
  deriving DecidableEq

namespace Bracket

/-- What closes a bracket. -/
def closing : Bracket → Char
  | list => ']'
  | object => '\x7d'

/-- Why a text that ends inside a bracket is refused. -/
def endInside : Bracket → Cause
  | list => .endInList
  | object => .endInObject

/-- Why a text that goes on after a value, with neither a comma nor the
closing bracket, is refused. -/
def notEnded : Bracket → Cause
  | list => .expectedListEnd
  | object => .expectedObjectEnd

end Bracket

/-- Passes over a value that is neither a list nor an object. -/
def skipScalar : List Char → Except Stop (List Char)
  | [] => Stop.past .endInValue []
  | c :: rest =>
    if c = 'n' then readWord ['u', 'l', 'l'] rest
    else if c = 't' then readWord ['r', 'u', 'e'] rest
    else if c = 'f' then readWord ['a', 'l', 's', 'e'] rest
    else if c = '-' then skipNumber rest
    else if isDigit c then skipNumber (c :: rest)
    else if c = '"' then skipText rest
    else Stop.past .expectedValue (c :: rest)

/-- Passes over a key with its colon. -/
def skipKey (s : List Char) : Except Stop (List Char) :=
  match skipFiller s with
  | [] => Stop.past .endInObject []
  | c :: rest =>
    if c = '"' then skipText rest >>= readColon else Stop.past .keyNotText (c :: rest)

/-- The next token of a text leaves less. -/
theorem length_lt_of_skipFiller {s rest : List Char} {c : Char} (h : skipFiller s = c :: rest) :
    rest.length < s.length := by
  have := length_skipFiller_le s
  rw [h, List.length_cons] at this
  omega

theorem length_lt_of_skipScalar {s rest : List Char} (h : skipScalar s = .ok rest) :
    rest.length < s.length := by
  unfold skipScalar at h
  split at h
  · simp [Stop.past] at h
  · split at h
    · exact Nat.lt_succ_of_le (length_le_of_readWord h)
    · split at h
      · exact Nat.lt_succ_of_le (length_le_of_readWord h)
      · split at h
        · exact Nat.lt_succ_of_le (length_le_of_readWord h)
        · split at h
          · exact Nat.lt_succ_of_lt (length_lt_of_skipNumber h)
          · split at h
            · exact length_lt_of_skipNumber h
            · split at h
              · exact Nat.lt_succ_of_lt (length_lt_of_skipText h)
              · simp [Stop.past] at h

theorem length_lt_of_skipKey {s rest : List Char} (h : skipKey s = .ok rest) :
    rest.length < s.length := by
  have hs := length_skipFiller_le s
  unfold skipKey at h
  split at h
  · simp [Stop.past] at h
  · next c r he =>
    rw [he, List.length_cons] at hs
    split at h
    · obtain ⟨t, ht, h⟩ := exists_of_bind_eq_ok h
      have := length_lt_of_skipText ht
      have := length_le_of_readColon h
      omega
    · simp [Stop.past] at h

mutual

/-- Passes over a value, and over what follows it up to the end of the
outermost open bracket. -/
def skipValue (brackets : List Bracket) (s : List Char) : Except Stop (List Char) :=
  match hs : skipFiller s with
  | [] => Stop.past .endInValue []
  | c :: rest =>
    have := length_lt_of_skipFiller hs
    if c = '[' then openBracket .list brackets rest
    else if c = '\x7b' then openBracket .object brackets rest
    else
      match h : skipScalar (c :: rest) with
      | .error stop => .error stop
      | .ok rest' =>
        have : rest'.length ≤ rest.length := Nat.le_of_lt_succ (length_lt_of_skipScalar h)
        skipRest brackets rest'
termination_by (s.length, 0)

/-- Passes over a list or an object from behind its opening bracket on. -/
def openBracket (b : Bracket) (brackets : List Bracket) (s : List Char) :
    Except Stop (List Char) :=
  match hs : skipFiller s with
  | [] => Stop.past b.endInside []
  | c :: rest =>
    have := length_lt_of_skipFiller hs
    if c = b.closing then skipRest brackets rest else skipItem b brackets s
termination_by (s.length, 2)

/-- Passes over an item of a list or an object that is open, and over
all that follows. -/
def skipItem (b : Bracket) (brackets : List Bracket) (s : List Char) : Except Stop (List Char) :=
  match b with
  | .list => skipValue (.list :: brackets) s
  | .object =>
    match h : skipKey s with
    | .error stop => .error stop
    | .ok rest =>
      have := length_lt_of_skipKey h
      skipValue (.object :: brackets) rest
termination_by (s.length, 1)

/-- Passes over what follows a value up to the end of the outermost open
bracket. -/
def skipRest (brackets : List Bracket) (s : List Char) : Except Stop (List Char) :=
  match brackets with
  | [] => .ok s
  | b :: outer =>
    match hs : skipFiller s with
    | [] => Stop.past b.endInside []
    | c :: rest =>
      have := length_lt_of_skipFiller hs
      if c = ',' then skipItem b outer rest
      else if c = b.closing then skipRest outer rest
      else Stop.past b.notEnded (c :: rest)
termination_by (s.length, 0)

end

/-! ## What is left -/

mutual

theorem length_le_of_skipValue {brackets : List Bracket} {s rest : List Char}
    (h : skipValue brackets s = .ok rest) : rest.length ≤ s.length := by
  rw [skipValue] at h
  split at h
  · simp [Stop.past] at h
  · next c r hs =>
    have := length_lt_of_skipFiller hs
    split at h
    · exact Nat.le_of_lt (Nat.lt_of_le_of_lt (length_le_of_openBracket h) this)
    · split at h
      · exact Nat.le_of_lt (Nat.lt_of_le_of_lt (length_le_of_openBracket h) this)
      · split at h
        · simp at h
        · next r' hr =>
          have : r'.length ≤ r.length := Nat.le_of_lt_succ (length_lt_of_skipScalar hr)
          have := length_le_of_skipRest h
          omega
termination_by (s.length, 0)

theorem length_le_of_openBracket {b : Bracket} {brackets : List Bracket} {s rest : List Char}
    (h : openBracket b brackets s = .ok rest) : rest.length ≤ s.length := by
  rw [openBracket] at h
  split at h
  · simp [Stop.past] at h
  · next c r hs =>
    have := length_lt_of_skipFiller hs
    split at h
    · have := length_le_of_skipRest h
      omega
    · exact length_le_of_skipItem h
termination_by (s.length, 2)

theorem length_le_of_skipItem {b : Bracket} {brackets : List Bracket} {s rest : List Char}
    (h : skipItem b brackets s = .ok rest) : rest.length ≤ s.length := by
  rw [skipItem.eq_def] at h
  split at h
  · exact length_le_of_skipValue h
  · split at h
    · simp at h
    · next r hr =>
      have := length_lt_of_skipKey hr
      have := length_le_of_skipValue h
      omega
termination_by (s.length, 1)

theorem length_le_of_skipRest {brackets : List Bracket} {s rest : List Char}
    (h : skipRest brackets s = .ok rest) : rest.length ≤ s.length := by
  rw [skipRest.eq_def] at h
  split at h
  · simp_all
  · split at h
    · simp [Stop.past] at h
    · next c r hs =>
      have := length_lt_of_skipFiller hs
      split at h
      · have := length_le_of_skipItem h
        omega
      · split at h
        · have := length_le_of_skipRest h
          omega
        · simp [Stop.past] at h
termination_by (s.length, 0)

end

end Marginalia.Settings
