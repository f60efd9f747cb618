import Marginalia.Proofs.Settings.WellFormed
import Marginalia.Settings.Field

/-!
# Values that are chosen for fields

A choice is a field with a value of the kind that the field takes. `Writes`
says how such a value is written: a text in any spelling, a count by its
decimal digits, a flag by one of two words. What is written so is read as
that choice, and nothing else of the settings changes (`readField_append`).
Choices that are made in turn, no two of them for the same field, are all
kept (`get_choose_of_mem`).
-/

namespace Marginalia.Settings

open Text (digit? isDigit maxCount)

/-! ## Choices -/

/-- The kind of value that a field takes. -/
def Field.Kind : Field → Type
  | fileName => String
  | padding => Nat
  | newLine => String
  | verbose => Bool

/-- The value of a field in the settings. -/
def get (settings : Settings) : (f : Field) → f.Kind
  | .fileName => settings.fileName
  | .padding => settings.padding
  | .newLine => settings.newLine
  | .verbose => settings.verbose

/-- The settings with another value of one field. -/
def set (settings : Settings) : (f : Field) → f.Kind → Settings
  | .fileName, text => { settings with fileName := text }
  | .padding, n => { settings with padding := n }
  | .newLine, text => { settings with newLine := text }
  | .verbose, b => { settings with verbose := b }

/-- A value that is chosen for a field. -/
structure Choice where
  field : Field
  value : field.Kind

/-- The fields that some choices are for. -/
def fieldsOf (choices : List Choice) : List Field :=
  choices.map Choice.field

/-- The settings after some choices, one after the other. -/
def choose (settings : Settings) (choices : List Choice) : Settings :=
  choices.foldl (fun settings choice => settings.set choice.field choice.value) settings

section

variable (settings : Settings)

theorem get_set_self (f : Field) (v : f.Kind) : (settings.set f v).get f = v := by
  cases f <;> rfl

theorem get_set_of_ne {f g : Field} (h : g ≠ f) (v : f.Kind) :
    (settings.set f v).get g = settings.get g := by
  cases f <;> cases g <;> first | rfl | exact absurd rfl h

theorem hooks_set (f : Field) (v : f.Kind) :
    (settings.set f v).noteHook = settings.noteHook ∧
      (settings.set f v).headerHook = settings.headerHook := by
  cases f <;> exact ⟨rfl, rfl⟩

theorem choose_append (choices later : List Choice) :
    settings.choose (choices ++ later) = (settings.choose choices).choose later :=
  List.foldl_append

/-- No choice reaches the hooks. -/
theorem hooks_choose (choices : List Choice) :
    (settings.choose choices).noteHook = settings.noteHook ∧
      (settings.choose choices).headerHook = settings.headerHook := by
  induction choices generalizing settings with
  | nil => exact ⟨rfl, rfl⟩
  | cons choice choices ih =>
    obtain ⟨hnote, hheader⟩ := settings.hooks_set choice.field choice.value
    obtain ⟨hnotes, hheaders⟩ := ih (settings.set choice.field choice.value)
    exact ⟨hnotes.trans hnote, hheaders.trans hheader⟩

/-- What is not chosen stays. -/
theorem get_choose_of_notMem {choices : List Choice} {f : Field}
    (h : f ∉ fieldsOf choices) : (settings.choose choices).get f = settings.get f := by
  induction choices generalizing settings with
  | nil => rfl
  | cons choice choices ih =>
    rw [fieldsOf, List.map_cons, List.mem_cons, not_or] at h
    exact (ih _ h.2).trans (settings.get_set_of_ne h.1 choice.value)

/-- **What is chosen is kept**, where no field is chosen twice. -/
theorem get_choose_of_mem {choices : List Choice} (h : (fieldsOf choices).Nodup)
    {choice : Choice} (hc : choice ∈ choices) :
    (settings.choose choices).get choice.field = choice.value := by
  induction choices generalizing settings with
  | nil => exact absurd hc List.not_mem_nil
  | cons first choices ih =>
    rw [fieldsOf, List.map_cons, List.nodup_cons] at h
    obtain rfl | hc := List.mem_cons.mp hc
    · exact (get_choose_of_notMem _ h.1).trans (settings.get_set_self ..)
    · exact ih _ h.2 hc

end

/-! ## Counts -/

theorem le_ofDigitChars (s : List Char) (n : Nat) : n ≤ Nat.ofDigitChars 10 s n := by
  induction s generalizing n with
  | nil => exact Nat.le_refl n
  | cons c s ih =>
    rw [Nat.ofDigitChars_cons]
    exact Nat.le_trans (by omega) (ih _)

theorem digit?_of_isDigit {c : Char} (h : isDigit c = true) :
    digit? c = some (c.toNat - '0'.toNat) := by
  unfold isDigit digit? at h
  unfold digit?
  split at h <;> simp_all

/-- Digits are taken as a whole where their number is in the range. -/
theorem takeDigits_append {s rest : List Char} {limit value : Nat}
    (hs : ∀ d ∈ s, isDigit d = true) (hr : startsWithDigit rest = false)
    (h : Nat.ofDigitChars 10 s value ≤ limit) :
    takeDigits limit value (s ++ rest) = ⟨Nat.ofDigitChars 10 s value, s.length, rest⟩ := by
  induction s generalizing value with
  | nil =>
    cases rest with
    | nil => rfl
    | cons c rest =>
      have hc : digit? c = none := by simpa [startsWithDigit, isDigit] using hr
      rw [List.nil_append, takeDigits, hc]
      rfl
  | cons c s ih =>
    rw [List.forall_mem_cons] at hs
    rw [Nat.ofDigitChars_cons, Nat.mul_comm] at h
    have hle := Nat.le_trans (le_ofDigitChars s _) h
    rw [List.cons_append, takeDigits, digit?_of_isDigit hs.1]
    dsimp only
    rw [if_pos hle, ih hs.2 h, Nat.ofDigitChars_cons, Nat.mul_comm value 10]
    rfl

theorem readNumberEnd_of_endsNumber {rest : List Char} (h : EndsNumber rest) (n : Nat) :
    readNumberEnd false n 0 rest = .ok (.natural n, rest) := by
  rw [readNumberEnd]
  · rfl
  all_goals
    rintro _ rfl
    exact (h _ rfl).2 (by decide)

/-- **A count is read by its digits.** -/
theorem readNumber_append {s rest : List Char} (h : Whole s)
    (hle : Nat.ofDigitChars 10 s 0 ≤ maxCount) (hr : EndsNumber rest) :
    readNumber false (s ++ rest) = .ok (.natural (Nat.ofDigitChars 10 s 0), rest) := by
  have hdigit := startsWithDigit_eq_false fun c hc => (hr c hc).1
  cases h with
  | zero =>
    rw [List.singleton_append, readNumber, if_pos rfl, hdigit, if_neg (by decide)]
    exact readNumberEnd_of_endsNumber hr 0
  | @digits c s hc hzero hs =>
    have htake := takeDigits_append (List.forall_mem_cons.mpr ⟨hc, hs⟩) hdigit hle
    have hnone : rest.takeWhile isDigit = [] := by
      cases rest with
      | nil => rfl
      | cons c rest => exact List.takeWhile_cons_of_neg (by simpa [startsWithDigit] using hdigit)
    have hrest : rest.dropWhile isDigit = rest :=
      dropWhile_isDigit_append (s := []) (by simp) hdigit
    rw [List.cons_append] at htake ⊢
    rw [readNumber, if_neg hzero, if_pos hc]
    simp only [htake, hnone, hrest]
    exact readNumberEnd_of_endsNumber hr _

/-! ## Values of fields -/

/-- How the value of a field is written. -/
inductive Writes : (f : Field) → f.Kind → List Char → Prop
  | fileName {text : String} {written : List Char} :
      Spells text.toList written → Writes .fileName text ('"' :: (written ++ ['"']))
  /-- A count is at most the greatest that 64 bits hold. -/
  | padding {digits : List Char} :
      Whole digits → Nat.ofDigitChars 10 digits 0 ≤ maxCount →
      Writes .padding (Nat.ofDigitChars 10 digits 0) digits
  | newLine {text : String} {written : List Char} :
      Spells text.toList written → Writes .newLine text ('"' :: (written ++ ['"']))
  | yes : Writes .verbose true ['t', 'r', 'u', 'e']
  | no : Writes .verbose false ['f', 'a', 'l', 's', 'e']

theorem readTextValue_append {text : String} {written gap : List Char}
    (h : Spells text.toList written) (hg : Filler gap) (rest : List Char) :
    readTextValue (gap ++ ('"' :: (written ++ ['"']) ++ rest)) = .ok (text, rest) := by
  rw [List.cons_append, List.append_assoc, readTextValue, skipFiller_append hg,
    skipFiller_cons rfl]
  exact readText_append h rest

theorem readCountValue_append {s gap rest : List Char} (h : Whole s)
    (hle : Nat.ofDigitChars 10 s 0 ≤ maxCount) (hg : Filler gap) (hr : EndsNumber rest) :
    readCountValue (gap ++ (s ++ rest)) = .ok (Nat.ofDigitChars 10 s 0, rest) := by
  have hread := readNumber_append h hle hr
  obtain ⟨c, tail, rfl, hc⟩ : ∃ c tail, s = c :: tail ∧ isDigit c = true := by
    cases h with
    | zero => exact ⟨_, _, rfl, by decide⟩
    | digits hc _ _ => exact ⟨_, _, rfl, hc⟩
  obtain ⟨hfiller, hne⟩ := ne_of_isDigit hc
  rw [List.cons_append] at hread ⊢
  rw [readCountValue, skipFiller_append hg, skipFiller_cons hfiller]
  dsimp only
  rw [if_neg (fun h => hne (by simp [h])), if_pos hc, hread]
  rfl

theorem readFlagValue_append {gap : List Char} (hg : Filler gap) (rest : List Char) :
    readFlagValue (gap ++ (['t', 'r', 'u', 'e'] ++ rest)) = .ok (true, rest) ∧
      readFlagValue (gap ++ (['f', 'a', 'l', 's', 'e'] ++ rest)) = .ok (false, rest) := by
  constructor <;> rw [readFlagValue, skipFiller_append hg] <;> rfl

/-- **A value is read as it was chosen**, into its field. -/
theorem readField_append {f : Field} {v : f.Kind} {s gap rest : List Char} (h : Writes f v s)
    (hg : Filler gap) (hr : EndsNumber rest) (settings : Settings) :
    readField f settings (gap ++ (s ++ rest)) = .ok (settings.set f v, rest) := by
  cases h with
  | fileName ht => rw [readField, readTextValue_append ht hg]; rfl
  | newLine ht => rw [readField, readTextValue_append ht hg]; rfl
  | padding hw hle => rw [readField, readCountValue_append hw hle hg hr]; rfl
  | yes => rw [readField, (readFlagValue_append hg rest).1]; rfl
  | no => rw [readField, (readFlagValue_append hg rest).2]; rfl

end Marginalia.Settings
