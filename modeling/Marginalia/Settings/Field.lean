import Marginalia.Settings.Basic
import Marginalia.Settings.Skip

/-!
# The settings that a text can give

Four settings can be given in a text; the hooks cannot. Each has a key
and a kind of value. A value of another kind is refused, by what it is:
its form is checked first, and of a list or an object nothing but the
opening bracket is looked at.
-/

namespace Marginalia.Settings

open Text (isDigit)

/-- A setting that a text can give. -/
inductive Field where
  | fileName
  | padding
  | newLine
  | verbose
  deriving DecidableEq

namespace Field

/-- Every field, in the order in which a list gives them. -/
def all : List Field := [fileName, padding, newLine, verbose]

/-- The key of a field. -/
def key : Field → String
  | fileName => "fileName"
  | padding => "padding"
  | newLine => "newLine"
  | verbose => "verbose"

/-- The field with the given key. -/
def ofKey? (key : String) : Option Field :=
  all.find? (·.key = key)

end Field

/-- What a number is when it is not wanted. -/
def Number.found : Number → Found
  | natural n => .integer n
  | negative n => .integer (-n)
  | float x => .float x

/-- Reads what the value is that a text starts with. Of a list or an
object only the opening bracket is looked at, and it is not consumed. -/
def identify : List Char → Except Stop (Found × List Char)
  | [] => Stop.past .endInValue []
  | c :: rest =>
    if c = 'n' then readWord ['u', 'l', 'l'] rest >>= fun rest => .ok (.null, rest)
    else if c = 't' then readWord ['r', 'u', 'e'] rest >>= fun rest => .ok (.boolean true, rest)
    else if c = 'f' then
      readWord ['a', 'l', 's', 'e'] rest >>= fun rest => .ok (.boolean false, rest)
    else if c = '-' then readNumber true rest >>= fun r => .ok (r.1.found, r.2)
    else if isDigit c then readNumber false (c :: rest) >>= fun r => .ok (r.1.found, r.2)
    else if c = '"' then readText rest >>= fun r => .ok (.text r.1, r.2)
    else if c = '[' then .ok (.sequence, c :: rest)
    else if c = '\x7b' then .ok (.map, c :: rest)
    else Stop.past .expectedValue (c :: rest)

/-- Refuses the value that a text starts with, by what it is. -/
def refuse {α : Type} (wanted : Wanted) (s : List Char) : Except Stop α :=
  identify s >>= fun r => Stop.before (.wrongType r.1 wanted) r.2

/-- Reads the value of a setting that is a text. -/
def readTextValue (s : List Char) : Except Stop (String × List Char) :=
  match skipFiller s with
  | [] => Stop.past .endInValue []
  | c :: rest => if c = '"' then readText rest else refuse .text (c :: rest)

/-- Takes a number as a count. -/
def countOf : Number × List Char → Except Stop (Nat × List Char)
  | (.natural n, rest) => .ok (n, rest)
  | (.negative n, rest) => Stop.before (.wrongValue (.integer (-n)) .count) rest
  | (.float x, rest) => Stop.before (.wrongType (.float x) .count) rest

/-- Reads the value of a setting that is a count. -/
def readCountValue (s : List Char) : Except Stop (Nat × List Char) :=
  match skipFiller s with
  | [] => Stop.past .endInValue []
  | c :: rest =>
    if c = '-' then readNumber true rest >>= countOf
    else if isDigit c then readNumber false (c :: rest) >>= countOf
    else refuse .count (c :: rest)

/-- Reads the value of a setting that is true or false. -/
def readFlagValue (s : List Char) : Except Stop (Bool × List Char) :=
  match skipFiller s with
  | [] => Stop.past .endInValue []
  | c :: rest =>
    if c = 't' then readWord ['r', 'u', 'e'] rest >>= fun rest => .ok (true, rest)
    else if c = 'f' then readWord ['a', 'l', 's', 'e'] rest >>= fun rest => .ok (false, rest)
    else refuse .flag (c :: rest)

/-- Reads the value of a field into the settings. -/
def readField (f : Field) (settings : Settings) (s : List Char) :
    Except Stop (Settings × List Char) :=
  match f with
  | .fileName => readTextValue s >>= fun r => .ok ({ settings with fileName := r.1 }, r.2)
  | .padding => readCountValue s >>= fun r => .ok ({ settings with padding := r.1 }, r.2)
  | .newLine => readTextValue s >>= fun r => .ok ({ settings with newLine := r.1 }, r.2)
  | .verbose => readFlagValue s >>= fun r => .ok ({ settings with verbose := r.1 }, r.2)

/-! ## What is left -/

/-- Nothing is read from a value that is refused. -/
theorem refuse_ne_ok {α : Type} (wanted : Wanted) (s : List Char) (a : α) :
    refuse wanted s ≠ .ok a := by
  intro h
  obtain ⟨r, -, h⟩ := exists_of_bind_eq_ok h
  simp [Stop.before] at h

theorem length_le_of_readTextValue {s rest : List Char} {text : String}
    (h : readTextValue s = .ok (text, rest)) : rest.length ≤ s.length := by
  unfold readTextValue at h
  split at h
  · simp [Stop.past] at h
  · next c r hs =>
    have := length_lt_of_skipFiller hs
    split at h
    · have := length_lt_of_readText h
      omega
    · exact (refuse_ne_ok _ _ _ h).elim

theorem eq_of_countOf {found : Number × List Char} {n : Nat} {rest : List Char}
    (h : countOf found = .ok (n, rest)) : rest = found.2 := by
  unfold countOf at h
  split at h
  · simp_all
  · simp [Stop.before] at h
  · simp [Stop.before] at h

theorem length_le_of_readCountValue {s rest : List Char} {n : Nat}
    (h : readCountValue s = .ok (n, rest)) : rest.length ≤ s.length := by
  unfold readCountValue at h
  split at h
  · simp [Stop.past] at h
  · next c r hs =>
    have := length_lt_of_skipFiller hs
    split at h
    · obtain ⟨found, hf, h⟩ := exists_of_bind_eq_ok h
      have := length_le_of_readNumber hf
      rw [eq_of_countOf h]
      omega
    · split at h
      · obtain ⟨found, hf, h⟩ := exists_of_bind_eq_ok h
        have := length_le_of_readNumber hf
        rw [eq_of_countOf h]
        simp only [List.length_cons] at this
        omega
      · exact (refuse_ne_ok _ _ _ h).elim

theorem length_le_of_readFlagValue {s rest : List Char} {b : Bool}
    (h : readFlagValue s = .ok (b, rest)) : rest.length ≤ s.length := by
  unfold readFlagValue at h
  split at h
  · simp [Stop.past] at h
  · next c r hs =>
    have := length_lt_of_skipFiller hs
    split at h
    · obtain ⟨found, hf, h⟩ := exists_of_bind_eq_ok h
      obtain ⟨-, rfl⟩ := Prod.mk.inj (Except.ok.inj h)
      have := length_le_of_readWord hf
      omega
    · split at h
      · obtain ⟨found, hf, h⟩ := exists_of_bind_eq_ok h
        obtain ⟨-, rfl⟩ := Prod.mk.inj (Except.ok.inj h)
        have := length_le_of_readWord hf
        omega
      · exact (refuse_ne_ok _ _ _ h).elim

theorem length_le_of_readField {f : Field} {settings settings' : Settings} {s rest : List Char}
    (h : readField f settings s = .ok (settings', rest)) : rest.length ≤ s.length := by
  unfold readField at h
  split at h
  all_goals
    obtain ⟨found, hf, h⟩ := exists_of_bind_eq_ok h
    obtain ⟨-, rfl⟩ := Prod.mk.inj (Except.ok.inj h)
  · exact length_le_of_readTextValue hf
  · exact length_le_of_readCountValue hf
  · exact length_le_of_readTextValue hf
  · exact length_le_of_readFlagValue hf

end Marginalia.Settings
