import Marginalia.Settings.Field

/-!
# Settings texts

A settings text is an object, whose members give the settings by key in
any order, or a list, which gives them in the order of the fields and
may be shorter. What is not given keeps its default. In an object the
values of other keys are passed over, and a key of a setting may stand
only once; a list may hold no more than the fields.
-/

namespace Marginalia.Settings

/-! ## Lists -/

/-- Whether a list goes on, and the text from its next element on, or
from behind its end on. -/
def nextElement (first : Bool) (s : List Char) : Except Stop (Bool × List Char) :=
  match skipFiller s with
  | [] => Stop.past .endInList []
  | c :: rest =>
    if c = ']' then .ok (false, rest)
    else if first then .ok (true, c :: rest)
    else if c = ',' then
      match skipFiller rest with
      | [] => Stop.past .endInValue []
      | d :: rest =>
        if d = ']' then Stop.past .trailingComma (d :: rest) else .ok (true, d :: rest)
    else Stop.past .expectedListEnd (c :: rest)

/-- Reads the end of a list that has given every field. -/
def readListEnd (s : List Char) : Except Stop (List Char) :=
  match skipFiller s with
  | [] => Stop.past .endInList []
  | c :: rest =>
    if c = ']' then .ok rest
    else if c = ',' then
      match skipFiller rest with
      | [] => Stop.past .trailingCharacters []
      | d :: rest =>
        Stop.past (if d = ']' then .trailingComma else .trailingCharacters) (d :: rest)
    else Stop.past .trailingCharacters (c :: rest)

/-- Reads the elements of a list as the given fields. -/
def readElements (first : Bool) (settings : Settings) (s : List Char) :
    List Field → Except Stop (Settings × List Char)
  | [] => readListEnd s >>= fun rest => .ok (settings, rest)
  | f :: fields =>
    nextElement first s >>= fun
      | (false, rest) => .ok (settings, rest)
      | (true, rest) =>
        readField f settings rest >>= fun (settings, rest) =>
          readElements false settings rest fields

/-! ## Objects -/

/-- Whether an object goes on, and the text from behind the quote of its
next key on, or from behind its end on. -/
def nextMember (first : Bool) (s : List Char) : Except Stop (Bool × List Char) :=
  match skipFiller s with
  | [] => Stop.past .endInObject []
  | c :: rest =>
    if c = '\x7d' then .ok (false, rest)
    else if first then
      if c = '"' then .ok (true, rest) else Stop.past .keyNotText (c :: rest)
    else if c = ',' then
      match skipFiller rest with
      | [] => Stop.past .endInValue []
      | d :: rest =>
        if d = '"' then .ok (true, rest)
        else Stop.past (if d = '\x7d' then .trailingComma else .keyNotText) (d :: rest)
    else Stop.past .expectedObjectEnd (c :: rest)

/-- Refuses a second member for a field, behind its key and, where the
object ends there, behind its end. -/
def refuseDuplicate {α : Type} (f : Field) (s : List Char) : Except Stop α :=
  match skipFiller s with
  | '\x7d' :: rest => Stop.before (.duplicateField f.key) rest
  | rest => Stop.before (.duplicateField f.key) rest

/-- Reads what follows the key of a member. -/
def readMember (key : String) (given : List Field) (settings : Settings) (s : List Char) :
    Except Stop ((List Field × Settings) × List Char) :=
  match Field.ofKey? key with
  | none =>
    readColon s >>= fun s => skipValue [] s >>= fun s => .ok ((given, settings), s)
  | some f =>
    if f ∈ given then refuseDuplicate f s
    else readColon s >>= fun s =>
      readField f settings s >>= fun r => .ok ((f :: given, r.1), r.2)

theorem length_lt_of_nextMember {first : Bool} {s rest : List Char}
    (h : nextMember first s = .ok (true, rest)) : rest.length < s.length := by
  unfold nextMember at h
  split at h
  · simp [Stop.past] at h
  · next c r hs =>
    have := length_lt_of_skipFiller hs
    split at h
    · simp at h
    · split at h
      · split at h
        · simp_all
        · simp [Stop.past] at h
      · split at h
        · split at h
          · simp [Stop.past] at h
          · next d r' hr =>
            have := length_lt_of_skipFiller hr
            split at h
            · obtain ⟨-, rfl⟩ := Prod.mk.inj (Except.ok.inj h)
              omega
            · simp [Stop.past] at h
        · simp [Stop.past] at h

theorem length_le_of_readMember {key : String} {given : List Field} {settings : Settings}
    {s rest : List Char} {result : List Field × Settings}
    (h : readMember key given settings s = .ok (result, rest)) : rest.length ≤ s.length := by
  unfold readMember at h
  split at h
  · obtain ⟨s₁, h₁, h⟩ := exists_of_bind_eq_ok h
    obtain ⟨s₂, h₂, h⟩ := exists_of_bind_eq_ok h
    obtain ⟨-, rfl⟩ := Prod.mk.inj (Except.ok.inj h)
    exact Nat.le_trans (length_le_of_skipValue h₂) (length_le_of_readColon h₁)
  · split at h
    · unfold refuseDuplicate at h
      split at h <;> simp [Stop.before] at h
    · obtain ⟨s₁, h₁, h⟩ := exists_of_bind_eq_ok h
      obtain ⟨r, h₂, h⟩ := exists_of_bind_eq_ok h
      obtain ⟨-, rfl⟩ := Prod.mk.inj (Except.ok.inj h)
      exact Nat.le_trans (length_le_of_readField h₂) (length_le_of_readColon h₁)

/-- Reads the members of an object, `given` being the fields that were
given so far. -/
def readMembers (first : Bool) (given : List Field) (settings : Settings) (s : List Char) :
    Except Stop (Settings × List Char) :=
  match hn : nextMember first s with
  | .error stop => .error stop
  | .ok (false, rest) => .ok (settings, rest)
  | .ok (true, rest) =>
    match hk : readText rest with
    | .error stop => .error stop
    | .ok (key, rest') =>
      match hm : readMember key given settings rest' with
      | .error stop => .error stop
      | .ok ((given, settings), rest'') =>
        have : rest''.length < s.length := by
          have := length_lt_of_nextMember hn
          have := length_lt_of_readText hk
          have := length_le_of_readMember hm
          omega
        readMembers false given settings rest''
termination_by s.length

/-! ## Whole texts -/

/-- Reads the list or the object that a text starts with. -/
def readDocument (s : List Char) : Except Stop (Settings × List Char) :=
  match skipFiller s with
  | [] => Stop.past .endInValue []
  | c :: rest =>
    if c = '[' then readElements true {} rest Field.all
    else if c = '\x7b' then readMembers true [] {} rest
    else refuse .settings (c :: rest)

/-- Reads a whole text. -/
def readWhole (s : List Char) : Except Stop Settings :=
  readDocument s >>= fun (settings, rest) =>
    match skipFiller rest with
    | [] => .ok settings
    | rest => Stop.past .trailingCharacters rest

/-- The settings that a text gives. -/
def ofText (text : String) : Except Failure Settings :=
  (readWhole text.toList).mapError (·.failure text.toList)

end Marginalia.Settings
