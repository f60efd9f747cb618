import Marginalia.Settings.Failure
import Marginalia.Text.Utf8

/-!
# Where reading stops

A reader of settings works on what is left of the text and stops with a
cause, at what is left and so many bytes further. The line and the
column are only counted when a failure is reported: lines by the line
feeds before the place, columns by the bytes after the last of them.
-/

namespace Marginalia.Settings

/-- A place where reading stopped: the cause, the text left, and how
many bytes of it lie before the place. -/
structure Stop where
  cause : Cause
  rest : List Char
  ahead : Nat

namespace Stop

/-- Stops in front of the text that is left. -/
def before {α : Type} (cause : Cause) (rest : List Char) : Except Stop α :=
  .error ⟨cause, rest, 0⟩

/-- Stops behind the first byte of the text that is left. -/
def past {α : Type} (cause : Cause) (rest : List Char) : Except Stop α :=
  .error ⟨cause, rest, 1⟩

/-- The failure of reading the text `whole`. -/
def failure (s : Stop) (whole : List Char) : Failure :=
  let bytes := Utf8.encode whole
  let seen := bytes.take (bytes.length - (Utf8.encode s.rest).length + s.ahead)
  { cause := s.cause
    line := 1 + seen.count 10
    column := (seen.reverse.takeWhile (· != 10)).length }

end Stop

/-- Whether a character may stand between the tokens of a settings text. -/
def isFiller (c : Char) : Bool :=
  c == ' ' || c == '\n' || c == '\t' || c == '\r'

/-- The text from its next token on. -/
def skipFiller (s : List Char) : List Char :=
  s.dropWhile isFiller

/-- Reads the rest of a word. -/
def readWord : List Char → List Char → Except Stop (List Char)
  | [], s => .ok s
  | _ :: _, [] => Stop.before .endInValue []
  | w :: word, c :: s => if w = c then readWord word s else Stop.past .expectedWord (c :: s)

/-- Reads the colon after a key. -/
def readColon (s : List Char) : Except Stop (List Char) :=
  match skipFiller s with
  | [] => Stop.past .endInObject []
  | c :: rest => if c = ':' then .ok rest else Stop.past .expectedColon (c :: rest)

/-! ## What is left -/

/-- A sequence of two readings that succeeds is two readings that do. -/
theorem exists_of_bind_eq_ok {α β : Type} {x : Except Stop α} {f : α → Except Stop β} {b : β}
    (h : (x >>= f) = .ok b) : ∃ a, x = .ok a ∧ f a = .ok b := by
  cases x with
  | error e => exact absurd h (by simp [bind, Except.bind])
  | ok a => exact ⟨a, rfl, h⟩

theorem length_skipFiller_le (s : List Char) : (skipFiller s).length ≤ s.length :=
  (List.dropWhile_sublist _).length_le

theorem length_le_of_readWord {word s rest : List Char} (h : readWord word s = .ok rest) :
    rest.length ≤ s.length := by
  fun_induction readWord word s with
  | case1 s => simp_all
  | case2 => simp [Stop.before] at h
  | case3 _ _ _ ih => exact Nat.le_succ_of_le (ih h)
  | case4 => simp [Stop.past] at h

theorem length_le_of_readColon {s rest : List Char} (h : readColon s = .ok rest) :
    rest.length ≤ s.length := by
  have hs := length_skipFiller_le s
  unfold readColon at h
  split at h
  · simp [Stop.past] at h
  · next c r he =>
    rw [he] at hs
    split at h
    · obtain rfl := Except.ok.inj h
      simp at hs
      omega
    · simp [Stop.past] at h

end Marginalia.Settings
