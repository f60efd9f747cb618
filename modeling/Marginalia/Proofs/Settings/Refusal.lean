import Marginalia.Proofs.Settings.Choice

/-!
# Values that a field refuses

A value that is well formed may still be none of the kind that a field
takes: another kind of value, a number that is no count or too large a one,
or a text with half a surrogate pair in it. So a value is written for a
field (`Writes`) or refused by it, wherever it stands
(`Value.writes_or_refused`), and reading goes on behind a value just where it
is written for its field (`readField_bind_eq_ok_iff`).
-/

namespace Marginalia.Settings

open Text (digit? hexDigit? isDigit maxCount)

/-! ## Texts that are broken -/

/-- What may stand between two quotes but spells no text, with half a
surrogate pair in it. -/
def Broken (s : List Char) : Prop :=
  ∀ done rest found, readTextOnto done (s ++ '"' :: rest) ≠ .ok found

theorem hexDigit?_lt {c : Char} {i : Nat} (h : hexDigit? c = some i) : i < 16 := by
  have hlast : '9'.toNat = 57 ∧ 'f'.toNat = 102 ∧ 'F'.toNat = 70 := by decide
  have hle {a b : Char} (hab : a ≤ b) : a.toNat ≤ b.toNat := hab
  unfold hexDigit? at h
  split at h
  · next hc =>
    have := hle hc.2
    have := Option.some.inj h
    omega
  · split at h
    · next hc =>
      have := hle hc.2
      have := Option.some.inj h
      omega
    · split at h
      · next hc =>
        have := hle hc.2
        have := Option.some.inj h
        omega
      · cases h

theorem Hex.lt {digits : List Char} {n : Nat} (h : Hex digits n) : n < 0x10000 := by
  cases h with
  | digits ha hb hc hd hn =>
    have := hexDigit?_lt ha
    have := hexDigit?_lt hb
    have := hexDigit?_lt hc
    have := hexDigit?_lt hd
    omega

/-- A number of four digits that is no half of a surrogate pair is the code
point of a character. -/
theorem Hex.toNat_ofNat {digits : List Char} {n : Nat} (h : Hex digits n)
    (hhigh : isHighSurrogate n = false) (hlow : isLowSurrogate n = false) :
    (Char.ofNat n).toNat = n := by
  have hlt := h.lt
  simp only [isHighSurrogate, isLowSurrogate, Bool.and_eq_false_iff, decide_eq_false_iff_not]
    at hhigh hlow
  refine Marginalia.toNat_ofNat ?_
  unfold Nat.isValidChar
  omega

/-- Two halves of a surrogate pair are those of a character. -/
theorem exists_char_of_surrogates {high low : Nat} (hhigh : isHighSurrogate high = true)
    (hlow : isLowSurrogate low = true) :
    ∃ c : Char, 0x10000 ≤ c.toNat ∧ 0xd800 + (c.toNat - 0x10000) / 0x400 = high ∧
      0xdc00 + (c.toNat - 0x10000) % 0x400 = low := by
  simp only [isHighSurrogate, isLowSurrogate, Bool.and_eq_true, decide_eq_true_eq] at hhigh hlow
  have hvalid : ((high - 0xd800) * 0x400 + (low - 0xdc00) + 0x10000).isValidChar := by
    unfold Nat.isValidChar
    omega
  refine ⟨joinSurrogates high low, ?_⟩
  rw [joinSurrogates, Marginalia.toNat_ofNat hvalid]
  omega

theorem readTextOnto_escape_error {done s : List Char} {stop : Stop}
    (h : readEscape s = .error stop) : readTextOnto done ('\\' :: s) = .error stop := by
  rw [readTextOnto, if_neg (by decide), if_pos rfl]
  split
  · next he => rw [Except.error.inj (he.symm.trans h)]
  · next he => simp [he] at h

/-- An escape that cannot be read breaks a text. -/
theorem Broken.of_escape {s : List Char}
    (h : ∀ rest, ∃ stop, readEscape (s ++ '"' :: rest) = .error stop) : Broken ('\\' :: s) := by
  intro done rest found hread
  obtain ⟨stop, hstop⟩ := h rest
  rw [List.cons_append, readTextOnto_escape_error hstop] at hread
  cases hread

/-- What breaks a text breaks it behind further characters too. -/
theorem Broken.letter_append {c : Char} {w s : List Char} (hs : Broken s) (hc : Letter c w) :
    Broken (w ++ s) := by
  intro done rest found hread
  rw [List.append_assoc, readTextOnto_letter hc] at hread
  exact hs _ rest found hread

theorem spells_or_broken_letter {c : Char} {w s : List Char} (hc : Letter c w)
    (h : (∃ text, Spells text s) ∨ Broken s) :
    (∃ text, Spells text (w ++ s)) ∨ Broken (w ++ s) := by
  rcases h with ⟨text, ht⟩ | hs
  · exact .inl ⟨c :: text, .cons hc ht⟩
  · exact .inr (hs.letter_append hc)

/-- After the first half of a pair stands the second, or nothing that can be
read. -/
theorem Loose.secondHalf_or_error {s : List Char} (h : Loose s) (high : Nat) :
    (∃ low m tail, s = '\\' :: 'u' :: (low ++ tail) ∧ Hex low m ∧ isLowSurrogate m = true ∧
        Loose tail) ∨
      ∀ rest, ∃ stop, readSecondHalf high (s ++ '"' :: rest) = .error stop := by
  cases h with
  | nil => exact .inr fun _ => ⟨_, rfl⟩
  | bare hc _ =>
    refine .inr fun rest => ?_
    simp [readSecondHalf, readPairMark, hc.2.1, bind, Except.bind, Stop.past]
  | @short c e s he _ =>
    have hu : e ≠ 'u' := by
      rintro rfl
      simp [shortEscapes] at he
    refine .inr fun rest => ?_
    simp [readSecondHalf, readPairMark, hu, bind, Except.bind, Stop.past]
  | @codePoint low tail m hd ht =>
    by_cases hm : isLowSurrogate m = true
    · exact .inl ⟨low, m, tail, rfl, hd, hm, ht⟩
    · refine .inr fun rest => ?_
      simp [readSecondHalf, readPairMark, readHex_append hd, bind, Except.bind, hm, Stop.before]

/-- **What may stand between two quotes spells a text or is broken.** By
recursion on its length: the second half of a surrogate pair goes with the
first. -/
theorem Loose.spells_or_broken {s : List Char} (h : Loose s) :
    (∃ text, Spells text s) ∨ Broken s := by
  cases h with
  | nil => exact .inl ⟨[], .nil⟩
  | bare hc hs => exact spells_or_broken_letter (.bare hc) hs.spells_or_broken
  | short he hs => exact spells_or_broken_letter (.short he) hs.spells_or_broken
  | @codePoint digits s n hd hs =>
    by_cases hlow : isLowSurrogate n = true
    · refine .inr (.of_escape fun rest => ?_)
      simp [readEscape, plainEscape?, readCodePoint, readHex_append hd, bind, Except.bind, hlow,
        Stop.before]
    · rw [Bool.not_eq_true] at hlow
      by_cases hhigh : isHighSurrogate n = true
      · rcases hs.secondHalf_or_error n with ⟨low, m, tail, he, hd', hm, ht⟩ | hstop
        · obtain ⟨c, hc, rfl, rfl⟩ := exists_char_of_surrogates hhigh hm
          have hlt : tail.length < s.length := by
            simp only [he, List.length_cons, List.length_append]
            omega
          have hpair := spells_or_broken_letter (.pair hc hd hd') ht.spells_or_broken
          simpa [he] using hpair
        · refine .inr (.of_escape fun rest => ?_)
          obtain ⟨stop, hstop⟩ := hstop rest
          simp [readEscape, plainEscape?, readCodePoint, readHex_append hd, bind, Except.bind,
            hlow, hhigh, hstop]
      · rw [Bool.not_eq_true] at hhigh
        have hletter : Letter (Char.ofNat n) ('\\' :: 'u' :: digits) :=
          .codePoint (by rwa [hd.toNat_ofNat hhigh hlow])
        exact spells_or_broken_letter hletter hs.spells_or_broken
termination_by s.length
decreasing_by all_goals simp only [List.length_cons, List.length_append]; omega

/-! ## Numbers that are no counts -/

/-- Reading leads to no natural number. -/
def NoNatural (read : Except Stop (Number × List Char)) : Prop :=
  ∀ n rest, read ≠ .ok (.natural n, rest)

theorem NoNatural.countOf {read : Except Stop (Number × List Char)} (h : NoNatural read)
    (found : Nat × List Char) : (read >>= countOf) ≠ .ok found := by
  intro hread
  obtain ⟨⟨number, rest⟩, hnumber, hcount⟩ := exists_of_bind_eq_ok hread
  cases number with
  | natural n => exact h n rest hnumber
  | negative | float => cases hcount

theorem noNatural_closeFloat (negative : Bool) (digits : Nat) (exponent : Int) (s : List Char) :
    NoNatural (closeFloat negative digits exponent s) := by
  intro n rest h
  unfold closeFloat at h
  split at h <;> cases h

theorem noNatural_readExponent (negative : Bool) (digits : Nat) (exponent : Int)
    (s : List Char) : NoNatural (readExponent negative digits exponent s) := by
  intro n rest h
  unfold readExponent at h
  dsimp only at h
  split at h
  · cases h
  · split at h
    · split at h
      · exact noNatural_closeFloat _ _ _ _ _ _ h
      · split at h
        · split at h <;> cases h
        · exact noNatural_closeFloat _ _ _ _ _ _ h
    · cases h

theorem noNatural_readFraction (negative : Bool) (digits : Nat) (exponent : Int)
    (s : List Char) : NoNatural (readFraction negative digits exponent s) := by
  intro n rest h
  unfold readFraction at h
  dsimp only at h
  split at h
  · cases h
  · unfold readFloatEnd at h
    split at h
    · exact noNatural_readExponent _ _ _ _ _ _ h
    · exact noNatural_readExponent _ _ _ _ _ _ h
    · exact noNatural_closeFloat _ _ _ _ _ _ h

/-- A number that has a sign, or more digits than fit, is none; nor is one
that goes on with a fraction or an exponent. -/
theorem noNatural_readNumberEnd {negative : Bool} {digits dropped : Nat} {s : List Char}
    (h : negative = true ∨ dropped ≠ 0 ∨ ∃ c ∈ s.head?, c ∈ ['.', 'e', 'E']) :
    NoNatural (readNumberEnd negative digits dropped s) := by
  intro n rest hread
  unfold readNumberEnd at hread
  split at hread
  · exact noNatural_readFraction _ _ _ _ _ _ hread
  · exact noNatural_readExponent _ _ _ _ _ _ hread
  · exact noNatural_readExponent _ _ _ _ _ _ hread
  · next hpoint he hE =>
    split at hread
    · next hdropped =>
      rcases h with rfl | hne | ⟨c, hc, hmem⟩
      · simp only [closeInteger, Bool.not_true, Bool.false_eq_true, if_false] at hread
        split at hread <;> cases hread
      · exact hne hdropped
      · obtain ⟨tail, rfl⟩ : ∃ tail, s = c :: tail := List.head?_eq_some_iff.mp hc
        simp only [List.mem_cons, List.not_mem_nil, or_false] at hmem
        rcases hmem with rfl | rfl | rfl
        · exact hpoint _ rfl
        · exact he _ rfl
        · exact hE _ rfl
    · exact noNatural_closeFloat _ _ _ _ _ _ hread

/-- Digits that do not fit are left to the point all the same. -/
theorem dropWhile_isDigit_takeDigits (limit value : Nat) (s : List Char) :
    (takeDigits limit value s).rest.dropWhile isDigit = s.dropWhile isDigit := by
  induction s generalizing value with
  | nil => rfl
  | cons c s ih =>
    rw [takeDigits]
    split
    · rfl
    · next d hd =>
      split
      · rw [List.dropWhile_cons_of_pos (by simp [isDigit, hd])]
        exact ih _
      · rfl

/-- Digits are left where their number is out of the range. -/
theorem startsWithDigit_takeDigits {s : List Char} {limit value : Nat}
    (hs : ∀ d ∈ s, isDigit d = true) (hv : value ≤ limit)
    (h : limit < Nat.ofDigitChars 10 s value) (rest : List Char) :
    startsWithDigit (takeDigits limit value (s ++ rest)).rest = true := by
  induction s generalizing value with
  | nil => exact absurd h (Nat.not_lt.mpr hv)
  | cons c s ih =>
    rw [List.forall_mem_cons] at hs
    rw [Nat.ofDigitChars_cons, Nat.mul_comm] at h
    rw [List.cons_append, takeDigits, digit?_of_isDigit hs.1]
    dsimp only
    split
    · next hle => exact ih hs.2 hle h
    · exact hs.1

/-- What follows its digits decides the rest of a number. -/
theorem exists_readNumber_eq {whole rest : List Char} (h : Whole whole)
    (hr : startsWithDigit rest = false) (negative : Bool) :
    ∃ digits dropped, readNumber negative (whole ++ rest) =
        readNumberEnd negative digits dropped rest ∧
      (maxCount < Nat.ofDigitChars 10 whole 0 → dropped ≠ 0) := by
  cases h with
  | zero =>
    refine ⟨0, 0, ?_, by decide⟩
    rw [List.singleton_append, readNumber, if_pos rfl, hr, if_neg (by decide)]
  | @digits c s hc hzero hs =>
    have hall : ∀ d ∈ c :: s, isDigit d = true := List.forall_mem_cons.mpr ⟨hc, hs⟩
    refine ⟨(takeDigits maxCount 0 (c :: s ++ rest)).value,
      ((takeDigits maxCount 0 (c :: s ++ rest)).rest.takeWhile isDigit).length, ?_, fun hlt => ?_⟩
    · have hdrop := dropWhile_isDigit_takeDigits maxCount 0 (c :: s ++ rest)
      rw [dropWhile_isDigit_append hall hr] at hdrop
      rw [List.cons_append] at hdrop ⊢
      rw [readNumber, if_neg hzero, if_pos hc]
      dsimp only
      rw [hdrop]
    · have hleft := startsWithDigit_takeDigits hall (Nat.zero_le _) hlt rest
      generalize (takeDigits maxCount 0 (c :: s ++ rest)).rest = left at hleft ⊢
      cases left with
      | nil => cases hleft
      | cons d left =>
        have hd : isDigit d = true := hleft
        rw [List.takeWhile_cons_of_pos hd, List.length_cons]
        exact Nat.succ_ne_zero _

theorem noNatural_readNumber_negative (s : List Char) : NoNatural (readNumber true s) := by
  intro n rest h
  unfold readNumber at h
  split at h
  · cases h
  · split at h
    · split at h
      · cases h
      · exact noNatural_readNumberEnd (.inl rfl) _ _ h
    · split at h
      · exact noNatural_readNumberEnd (.inl rfl) _ _ h
      · cases h

/-- **A number is written as a count or is none**, whatever follows it. -/
theorem Numeral.writes_or_noNatural {s : List Char} (h : Numeral s) :
    (∃ n, Writes .padding n s) ∨
      ∀ rest, EndsNumber rest → NoNatural (readNumber false (s ++ rest)) := by
  cases h with
  | @parts sign whole fraction exponent hsign hw hf he =>
    simp only [List.mem_cons, List.not_mem_nil, or_false] at hsign
    obtain rfl | rfl := hsign
    · by_cases hcount : fraction = [] ∧ exponent = [] ∧ Nat.ofDigitChars 10 whole 0 ≤ maxCount
      · obtain ⟨rfl, rfl, hle⟩ := hcount
        rw [List.nil_append, List.append_nil, List.append_nil]
        exact .inl ⟨_, .padding hw hle⟩
      · refine .inr fun rest hr => ?_
        obtain ⟨digits, dropped, hread, hdropped⟩ :=
          exists_readNumber_eq hw (startsWithDigit_fraction_append hf he hr) false
        rw [List.nil_append, List.append_assoc, List.append_assoc, hread]
        refine noNatural_readNumberEnd (.inr ?_)
        cases hf with
        | point _ => exact .inr ⟨'.', rfl, by decide⟩
        | none =>
          cases he with
          | letter hletter _ _ => exact .inr ⟨_, rfl, List.mem_cons_of_mem _ hletter⟩
          | none => exact .inl (hdropped (by simpa using hcount))
    · refine .inr fun rest _ n left hread => ?_
      cases hread

/-! ## Values that fit no field -/

/-- A field takes no value that is written so, wherever it stands. -/
def Refuses (f : Field) (s : List Char) : Prop :=
  ∀ gap rest settings found, Filler gap → EndsNumber rest →
    readField f settings (gap ++ (s ++ rest)) ≠ .ok found

/-- Settings are only read where the value of the field is. -/
theorem Refuses.of_value {f : Field} {α : Type} {s : List Char}
    {read : List Char → Except Stop (α × List Char)}
    (hf : ∀ settings s found, readField f settings s = .ok found → ∃ value, read s = .ok value)
    (h : ∀ gap rest found, Filler gap → EndsNumber rest →
      read (gap ++ (s ++ rest)) ≠ .ok found) : Refuses f s := by
  intro gap rest settings found hg hr hread
  obtain ⟨value, hvalue⟩ := hf _ _ _ hread
  exact h gap rest value hg hr hvalue

/-- What a value can start with. -/
theorem Value.exists_head {s : List Char} (h : Value s) :
    ∃ c tail, s = c :: tail ∧ isFiller c = false ∧
      ((c = '"' ∧ ∃ w, tail = w ++ ['"'] ∧ Loose w) ∨ ((c = '-' ∨ isDigit c = true) ∧ Numeral s) ∨
        s = ['t', 'r', 'u', 'e'] ∨ s = ['f', 'a', 'l', 's', 'e'] ∨ c ∈ ['n', '[', '\x7b']) := by
  cases h with
  | scalar hs =>
    cases hs with
    | null => exact ⟨_, _, rfl, rfl, by simp⟩
    | yes => exact ⟨_, _, rfl, rfl, by simp⟩
    | no => exact ⟨_, _, rfl, rfl, by simp⟩
    | text hw => exact ⟨_, _, rfl, rfl, .inl ⟨rfl, _, rfl, hw⟩⟩
    | number hn =>
      cases id hn with
      | @parts sign whole fraction exponent hsign hw hf he =>
        simp only [List.mem_cons, List.not_mem_nil, or_false] at hsign
        obtain rfl | rfl := hsign
        · cases hw with
          | zero => exact ⟨_, _, rfl, rfl, .inr (.inl ⟨.inr rfl, hn⟩)⟩
          | digits hc _ _ => exact ⟨_, _, rfl, (ne_of_isDigit hc).1, .inr (.inl ⟨.inr hc, hn⟩)⟩
        · exact ⟨_, _, rfl, rfl, .inr (.inl ⟨.inl rfl, hn⟩)⟩
  | empty b _ => cases b <;> exact ⟨_, _, rfl, rfl, by simp [Bracket.opening]⟩
  | bracket b _ => cases b <;> exact ⟨_, _, rfl, rfl, by simp [Bracket.opening]⟩

theorem writes_or_refuses_text {s : List Char} (h : Value s) :
    (∃ (text : String) (w : List Char), s = '"' :: (w ++ ['"']) ∧ Spells text.toList w) ∨
      ∀ gap rest found, Filler gap → EndsNumber rest →
        readTextValue (gap ++ (s ++ rest)) ≠ .ok found := by
  obtain ⟨c, tail, rfl, hfiller, hkind⟩ := h.exists_head
  by_cases hc : c = '"'
  · subst hc
    obtain ⟨w, rfl, hw⟩ : ∃ w, tail = w ++ ['"'] ∧ Loose w := by simpa [isDigit, digit?] using hkind
    rcases hw.spells_or_broken with ⟨text, ht⟩ | hbroken
    · exact .inl ⟨String.ofList text, w, rfl, by rwa [String.toList_ofList]⟩
    · refine .inr fun gap rest found hg _ hread => ?_
      rw [List.cons_append, List.append_assoc, readTextValue, skipFiller_append hg,
        skipFiller_cons rfl] at hread
      obtain ⟨chars, hchars, -⟩ := exists_of_bind_eq_ok hread
      exact hbroken [] rest chars hchars
  · refine .inr fun gap rest found hg _ hread => ?_
    rw [List.cons_append, readTextValue, skipFiller_append hg, skipFiller_cons hfiller] at hread
    dsimp only at hread
    rw [if_neg hc] at hread
    exact refuse_ne_ok _ _ _ hread

theorem writes_or_refuses_flag {s : List Char} (h : Value s) :
    (∃ b, Writes .verbose b s) ∨
      ∀ gap rest found, Filler gap → EndsNumber rest →
        readFlagValue (gap ++ (s ++ rest)) ≠ .ok found := by
  obtain ⟨c, tail, rfl, hfiller, hkind⟩ := h.exists_head
  by_cases hc : c = 't' ∨ c = 'f'
  · have hword : c :: tail = ['t', 'r', 'u', 'e'] ∨ c :: tail = ['f', 'a', 'l', 's', 'e'] := by
      rcases hc with rfl | rfl <;> simpa [isDigit, digit?] using hkind
    rcases hword with h | h <;> rw [h]
    · exact .inl ⟨true, .yes⟩
    · exact .inl ⟨false, .no⟩
  · rw [not_or] at hc
    refine .inr fun gap rest found hg _ hread => ?_
    rw [List.cons_append, readFlagValue, skipFiller_append hg, skipFiller_cons hfiller] at hread
    dsimp only at hread
    rw [if_neg hc.1, if_neg hc.2] at hread
    exact refuse_ne_ok _ _ _ hread

theorem writes_or_refuses_count {s : List Char} (h : Value s) :
    (∃ n, Writes .padding n s) ∨
      ∀ gap rest found, Filler gap → EndsNumber rest →
        readCountValue (gap ++ (s ++ rest)) ≠ .ok found := by
  obtain ⟨c, tail, rfl, hfiller, hkind⟩ := h.exists_head
  by_cases hminus : c = '-'
  · refine .inr fun gap rest found hg _ hread => ?_
    rw [List.cons_append, readCountValue, skipFiller_append hg, skipFiller_cons hfiller] at hread
    dsimp only at hread
    rw [if_pos hminus] at hread
    exact (noNatural_readNumber_negative _).countOf _ hread
  · by_cases hdigit : isDigit c = true
    · have hn : Numeral (c :: tail) := by
        have hne := (ne_of_isDigit hdigit).2
        simp only [List.mem_cons, not_or] at hne
        rcases hkind with ⟨rfl, -⟩ | ⟨-, hn⟩ | h | h | hmem
        · cases hdigit
        · exact hn
        · exact absurd (List.cons.inj h).1 hne.2.1
        · exact absurd (List.cons.inj h).1 hne.2.2.1
        · simp only [List.mem_cons, List.not_mem_nil, or_false] at hmem
          rcases hmem with rfl | rfl | rfl <;> cases hdigit
      refine hn.writes_or_noNatural.imp id fun hnone gap rest found hg hr hread => ?_
      rw [List.cons_append, readCountValue, skipFiller_append hg, skipFiller_cons hfiller] at hread
      dsimp only at hread
      rw [if_neg hminus, if_pos hdigit] at hread
      exact (hnone rest hr).countOf _ hread
    · refine .inr fun gap rest found hg _ hread => ?_
      rw [List.cons_append, readCountValue, skipFiller_append hg, skipFiller_cons hfiller] at hread
      dsimp only at hread
      rw [if_neg hminus, if_neg hdigit] at hread
      exact refuse_ne_ok _ _ _ hread

/-- **A value is written for a field or refused by it.** -/
theorem Value.writes_or_refused {s : List Char} (h : Value s) (f : Field) :
    (∃ v, Writes f v s) ∨ Refuses f s := by
  have value {α β : Type} {x : Except Stop α} {g : α → Except Stop β} {b : β}
      (hread : (x >>= g) = .ok b) : ∃ a, x = .ok a :=
    (exists_of_bind_eq_ok hread).imp fun _ => And.left
  cases f with
  | fileName =>
    refine (writes_or_refuses_text h).imp ?_ (.of_value fun _ _ _ => value)
    rintro ⟨text, w, rfl, ht⟩
    exact ⟨text, .fileName ht⟩
  | padding => exact (writes_or_refuses_count h).imp id (.of_value fun _ _ _ => value)
  | newLine =>
    refine (writes_or_refuses_text h).imp ?_ (.of_value fun _ _ _ => value)
    rintro ⟨text, w, rfl, ht⟩
    exact ⟨text, .newLine ht⟩
  | verbose => exact (writes_or_refuses_flag h).imp id (.of_value fun _ _ _ => value)

/-- **Reading goes on behind a value** just where it is written for its
field, and with that choice. -/
theorem readField_bind_eq_ok_iff {f : Field} {α : Type} {s gap rest : List Char} {a : α}
    (h : Value s) (hg : Filler gap) (hr : EndsNumber rest) (settings : Settings)
    (next : Settings × List Char → Except Stop α) :
    (readField f settings (gap ++ (s ++ rest)) >>= next) = .ok a ↔
      ∃ v, Writes f v s ∧ next (settings.set f v, rest) = .ok a := by
  constructor
  · intro hread
    rcases h.writes_or_refused f with ⟨v, hv⟩ | hrefuses
    · rw [readField_append hv hg hr] at hread
      exact ⟨v, hv, hread⟩
    · obtain ⟨found, hfound, -⟩ := exists_of_bind_eq_ok hread
      exact absurd hfound (hrefuses gap rest settings found hg hr)
  · rintro ⟨v, hv, hnext⟩
    rw [readField_append hv hg hr]
    exact hnext

end Marginalia.Settings
