import Marginalia.Settings.Text

/-!
# How texts are spelled

A character of a text may stand for itself, be named by the letter after a
backslash, or be given by its code point in one group of four hexadecimal
digits or, beyond the first sixteen bits, in two: the halves of a surrogate
pair. `Spells` says which spellings a text has, and a reader gives back the
text that is spelled, however it is (`readText_append`). Where a text is
only passed over, halves of surrogate pairs may also stand alone (`Loose`,
`skipText_append`).
-/

namespace Marginalia.Settings

open Text (hexDigit?)

/-! ## Spellings -/

/-- The letters that may follow a backslash, with what they stand for. -/
def shortEscapes : List (Char × Char) :=
  [('"', '"'), ('\\', '\\'), ('/', '/'), ('b', '\x08'), ('f', '\x0c'), ('n', '\n'), ('r', '\r'),
    ('t', '\t')]

/-- Whether a character may stand for itself. -/
def Bare (c : Char) : Prop :=
  c ≠ '"' ∧ c ≠ '\\' ∧ 0x20 ≤ c.toNat

instance (c : Char) : Decidable (Bare c) :=
  inferInstanceAs (Decidable (_ ∧ _ ∧ _))

/-- Four hexadecimal digits, in capitals or not, of a number. -/
inductive Hex : List Char → Nat → Prop
  | digits {a b c d : Char} {i j k l n : Nat} :
      hexDigit? a = some i → hexDigit? b = some j → hexDigit? c = some k → hexDigit? d = some l →
      n = i * 0x1000 + j * 0x100 + k * 0x10 + l → Hex [a, b, c, d] n

/-- The spellings of a character. -/
inductive Letter : Char → List Char → Prop
  | bare {c : Char} : Bare c → Letter c [c]
  | short {c e : Char} : (e, c) ∈ shortEscapes → Letter c ['\\', e]
  | codePoint {c : Char} {digits : List Char} :
      Hex digits c.toNat → Letter c ('\\' :: 'u' :: digits)
  /-- A surrogate pair: ten bits of what exceeds sixteen are in each half. -/
  | pair {c : Char} {high low : List Char} :
      0x10000 ≤ c.toNat →
      Hex high (0xd800 + (c.toNat - 0x10000) / 0x400) →
      Hex low (0xdc00 + (c.toNat - 0x10000) % 0x400) →
      Letter c ('\\' :: 'u' :: (high ++ '\\' :: 'u' :: low))

/-- **The spellings of a text.** -/
inductive Spells : List Char → List Char → Prop
  | nil : Spells [] []
  | cons {c : Char} {text w written : List Char} :
      Letter c w → Spells text written → Spells (c :: text) (w ++ written)

/-- What may stand between two quotes that are passed over. -/
inductive Loose : List Char → Prop
  | nil : Loose []
  | bare {c : Char} {s : List Char} : Bare c → Loose s → Loose (c :: s)
  | short {c e : Char} {s : List Char} : (e, c) ∈ shortEscapes → Loose s → Loose ('\\' :: e :: s)
  | codePoint {digits s : List Char} {n : Nat} :
      Hex digits n → Loose s → Loose ('\\' :: 'u' :: (digits ++ s))

/-- Where every character may stand for itself, a text is its own
spelling. -/
theorem Spells.of_bare {text : List Char} (h : text.all (Bare ·) = true) :
    Spells text text := by
  induction text with
  | nil => exact .nil
  | cons c text ih =>
    simp only [List.all_cons, Bool.and_eq_true, decide_eq_true_eq] at h
    exact .cons (.bare h.1) (ih h.2)

/-! ## Single characters -/

theorem plainEscape?_of_mem {e c : Char} (h : (e, c) ∈ shortEscapes) :
    plainEscape? e = some c := by
  simp only [shortEscapes, List.mem_cons, Prod.mk.injEq, List.not_mem_nil, or_false] at h
  rcases h with h | h | h | h | h | h | h | h <;> obtain ⟨rfl, rfl⟩ := h <;> rfl

theorem readHex_append {digits : List Char} {n : Nat} (h : Hex digits n) (rest : List Char) :
    readHex (digits ++ rest) = .ok (n, rest) := by
  cases h with
  | @digits a b c d i j k l _ ha hb hc hd hn =>
    have hvalue : ((i * 16 + j) * 16 + k) * 16 + l = n := by omega
    simp only [List.cons_append, List.nil_append, readHex, hexValue?, ha, hb, hc, hd,
      Option.bind_eq_bind, Option.bind_some, Option.pure_def, hvalue]

/-- No character is the half of a surrogate pair. -/
theorem not_isSurrogate (c : Char) :
    isHighSurrogate c.toNat = false ∧ isLowSurrogate c.toNat = false := by
  have hvalid : c.toNat < 0xd800 ∨ 0xdfff < c.toNat ∧ c.toNat < 0x110000 := c.valid
  simp only [isHighSurrogate, isLowSurrogate, Bool.and_eq_false_iff, decide_eq_false_iff_not]
  omega

/-- The halves of a character are halves, and join to it. -/
theorem surrogates_of_le {c : Char} (h : 0x10000 ≤ c.toNat) :
    isHighSurrogate (0xd800 + (c.toNat - 0x10000) / 0x400) = true ∧
      isLowSurrogate (0xd800 + (c.toNat - 0x10000) / 0x400) = false ∧
      isLowSurrogate (0xdc00 + (c.toNat - 0x10000) % 0x400) = true ∧
      joinSurrogates (0xd800 + (c.toNat - 0x10000) / 0x400)
        (0xdc00 + (c.toNat - 0x10000) % 0x400) = c := by
  have hvalid : c.toNat < 0xd800 ∨ 0xdfff < c.toNat ∧ c.toNat < 0x110000 := c.valid
  have hjoin : (0xd800 + (c.toNat - 0x10000) / 0x400 - 0xd800) * 0x400 +
      (0xdc00 + (c.toNat - 0x10000) % 0x400 - 0xdc00) + 0x10000 = c.toNat := by omega
  refine ⟨?_, ?_, ?_, by rw [joinSurrogates, hjoin, Char.ofNat_toNat]⟩
  all_goals
    simp only [isHighSurrogate, isLowSurrogate, Bool.and_eq_true, Bool.and_eq_false_iff,
      decide_eq_true_eq, decide_eq_false_iff_not]
    omega

theorem readEscape_short {e c : Char} (h : (e, c) ∈ shortEscapes) (rest : List Char) :
    readEscape (e :: rest) = .ok (c, rest) := by
  simp only [readEscape, plainEscape?_of_mem h]

theorem readEscape_codePoint {c : Char} {digits : List Char} (h : Hex digits c.toNat)
    (rest : List Char) : readEscape ('u' :: (digits ++ rest)) = .ok (c, rest) := by
  obtain ⟨hhigh, hlow⟩ := not_isSurrogate c
  simp [readEscape, plainEscape?, readCodePoint, readHex_append h, bind, Except.bind, hhigh, hlow,
    pure, Except.pure]

theorem readEscape_pair {c : Char} {high low : List Char} (hc : 0x10000 ≤ c.toNat)
    (hhigh : Hex high (0xd800 + (c.toNat - 0x10000) / 0x400))
    (hlow : Hex low (0xdc00 + (c.toNat - 0x10000) % 0x400)) (rest : List Char) :
    readEscape ('u' :: (high ++ '\\' :: 'u' :: (low ++ rest))) = .ok (c, rest) := by
  obtain ⟨isHigh, notLow, isLow, join⟩ := surrogates_of_le hc
  simp [readEscape, plainEscape?, readCodePoint, readSecondHalf, readPairMark, readHex_append hhigh,
    readHex_append hlow, bind, Except.bind, pure, Except.pure, isHigh, notLow, isLow, join]

/-! ## Whole texts -/

/-- An escape that can be read is read as one character. -/
theorem readTextOnto_escape {done s rest : List Char} {c : Char}
    (h : readEscape s = .ok (c, rest)) :
    readTextOnto done ('\\' :: s) = readTextOnto (c :: done) rest := by
  rw [readTextOnto, if_neg (by decide), if_pos rfl]
  split
  · next he => simp [he] at h
  · next he =>
    obtain ⟨rfl, rfl⟩ := Prod.mk.inj (Except.ok.inj (he.symm.trans h))
    rfl

theorem readTextOnto_letter {c : Char} {w : List Char} (h : Letter c w) (done rest : List Char) :
    readTextOnto done (w ++ rest) = readTextOnto (c :: done) rest := by
  cases h with
  | bare hc =>
    obtain ⟨hquote, hslash, hcontrol⟩ := hc
    rw [List.singleton_append, readTextOnto, if_neg hquote, if_neg hslash,
      if_neg (Nat.not_lt.mpr hcontrol)]
  | short he => exact readTextOnto_escape (readEscape_short he rest)
  | codePoint hd => exact readTextOnto_escape (readEscape_codePoint hd rest)
  | pair hc hhigh hlow =>
    simp only [List.cons_append, List.append_assoc]
    exact readTextOnto_escape (readEscape_pair hc hhigh hlow rest)

theorem readTextOnto_append {text written : List Char} (h : Spells text written)
    (done rest : List Char) :
    readTextOnto done (written ++ '"' :: rest) = .ok (done.reverse ++ text, rest) := by
  induction h generalizing done with
  | nil => rw [List.nil_append, readTextOnto, if_pos rfl, List.append_nil]
  | cons hc _ ih =>
    rw [List.append_assoc, readTextOnto_letter hc, ih, List.reverse_cons, List.append_assoc,
      List.singleton_append]

/-- **A text is read as what is spelled.** -/
theorem readText_append {text : String} {written : List Char} (h : Spells text.toList written)
    (rest : List Char) : readText (written ++ '"' :: rest) = .ok (text, rest) := by
  rw [readText, readTextOnto_append h, List.reverse_nil, List.nil_append]
  exact congrArg (fun text => Except.ok (text, rest)) (String.ofList_toList)

/-- An escape that can be passed over is. -/
theorem skipText_escape {s rest : List Char} (h : skipEscape s = .ok rest) :
    skipText ('\\' :: s) = skipText rest := by
  rw [skipText, if_neg (by decide), if_pos rfl]
  split
  · next he => simp [he] at h
  · next he =>
    obtain rfl := Except.ok.inj (he.symm.trans h)
    rfl

/-- **A text is passed over up to its closing quote.** -/
theorem skipText_append {s : List Char} (h : Loose s) (rest : List Char) :
    skipText (s ++ '"' :: rest) = .ok rest := by
  induction h with
  | nil => rw [List.nil_append, skipText, if_pos rfl]
  | bare hc _ ih =>
    obtain ⟨hquote, hslash, hcontrol⟩ := hc
    rw [List.cons_append, skipText, if_neg hquote, if_neg hslash,
      if_neg (Nat.not_lt.mpr hcontrol), ih]
  | @short c e s he _ ih =>
    have hskip : skipEscape (e :: (s ++ '"' :: rest)) = .ok (s ++ '"' :: rest) := by
      simp only [skipEscape, plainEscape?_of_mem he]
    exact (skipText_escape hskip).trans ih
  | @codePoint digits s n hd _ ih =>
    have hskip : skipEscape ('u' :: (digits ++ (s ++ '"' :: rest))) = .ok (s ++ '"' :: rest) := by
      simp [skipEscape, plainEscape?, readHex_append hd, bind, Except.bind]
    rw [List.cons_append, List.cons_append, List.append_assoc, skipText_escape hskip, ih]

end Marginalia.Settings
