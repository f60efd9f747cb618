import Marginalia.Proofs.Settings.Spelling
import Marginalia.Settings.Skip

/-!
# Values that are well formed

`Value` says which texts are values: words, numbers and texts, and lists and
objects of values, with filler between the tokens. A number ends where
nothing goes on with it (`EndsNumber`); every other value ends by itself. A
value that is passed over is passed over to its end, however deep it is
nested (`skipValue_append`).
-/

namespace Marginalia.Settings

open Text (isDigit)

/-! ## Filler -/

/-- What may stand between two tokens. -/
def Filler (gap : List Char) : Prop :=
  ∀ c ∈ gap, c ∈ [' ', '\n', '\t', '\r']

instance (gap : List Char) : Decidable (Filler gap) :=
  List.decidableBAll (fun c => c ∈ [' ', '\n', '\t', '\r']) gap

theorem Filler.isFiller {gap : List Char} (h : Filler gap) {c : Char} (hc : c ∈ gap) :
    isFiller c = true := by
  simpa [Settings.isFiller, or_assoc] using h c hc

@[simp]
theorem skipFiller_append {gap : List Char} (h : Filler gap) (s : List Char) :
    skipFiller (gap ++ s) = skipFiller s :=
  List.dropWhile_append_of_pos fun _ hc => h.isFiller hc

theorem skipFiller_eq_nil {gap : List Char} (h : Filler gap) : skipFiller gap = [] := by
  rw [← List.append_nil gap, skipFiller_append h]
  rfl

theorem skipFiller_cons {c : Char} (h : isFiller c = false) (s : List Char) :
    skipFiller (c :: s) = c :: s :=
  List.dropWhile_cons_of_neg (by simp [h])

theorem readColon_append {gap : List Char} (h : Filler gap) (s : List Char) :
    readColon (gap ++ ':' :: s) = .ok s := by
  rw [readColon, skipFiller_append h, skipFiller_cons rfl]
  rfl

/-! ## Numbers -/

/-- A digit or more. -/
inductive DigitRun : List Char → Prop
  | digits {c : Char} {s : List Char} :
      isDigit c = true → (∀ d ∈ s, isDigit d = true) → DigitRun (c :: s)

/-- The digits before the point: a zero by itself, or digits of which the
first is none. -/
inductive Whole : List Char → Prop
  | zero : Whole ['0']
  | digits {c : Char} {s : List Char} :
      isDigit c = true → c ≠ '0' → (∀ d ∈ s, isDigit d = true) → Whole (c :: s)

/-- What may stand between the digits before the point and an exponent. -/
inductive Fraction : List Char → Prop
  | none : Fraction []
  | point {s : List Char} : DigitRun s → Fraction ('.' :: s)

/-- What may stand at the end of a number. -/
inductive Exponent : List Char → Prop
  | none : Exponent []
  | letter {e : Char} {sign s : List Char} :
      e ∈ ['e', 'E'] → sign ∈ [[], ['+'], ['-']] → DigitRun s → Exponent (e :: (sign ++ s))

/-- A number. -/
inductive Numeral : List Char → Prop
  | parts {sign whole fraction exponent : List Char} :
      sign ∈ [[], ['-']] → Whole whole → Fraction fraction → Exponent exponent →
      Numeral (sign ++ (whole ++ (fraction ++ exponent)))

/-- Nothing at the start of a text goes on with a number before it. -/
def EndsNumber (rest : List Char) : Prop :=
  ∀ c ∈ rest.head?, isDigit c = false ∧ c ∉ ['.', 'e', 'E']

theorem EndsNumber.of_cons {c : Char} (h : isDigit c = false ∧ c ∉ ['.', 'e', 'E'])
    (rest : List Char) : EndsNumber (c :: rest) := by
  intro d hd
  obtain rfl := Option.some.inj hd
  exact h

/-- Filler goes on with no number. -/
theorem EndsNumber.filler_append {gap rest : List Char} (hg : Filler gap) (h : EndsNumber rest) :
    EndsNumber (gap ++ rest) := by
  cases gap with
  | nil => exact h
  | cons c gap =>
    have hc := hg c (List.mem_cons_self ..)
    simp only [List.mem_cons, List.not_mem_nil, or_false] at hc
    refine .of_cons ?_ _
    rcases hc with rfl | rfl | rfl | rfl <;> decide

theorem startsWithDigit_eq_false {rest : List Char} (h : ∀ c ∈ rest.head?, isDigit c = false) :
    startsWithDigit rest = false := by
  cases rest with
  | nil => rfl
  | cons c rest => exact h c rfl

/-- Digits are taken up to the first character that is none. -/
theorem dropWhile_isDigit_append {s rest : List Char} (hs : ∀ d ∈ s, isDigit d = true)
    (h : startsWithDigit rest = false) : (s ++ rest).dropWhile isDigit = rest := by
  rw [List.dropWhile_append_of_pos hs]
  cases rest with
  | nil => rfl
  | cons c rest => exact List.dropWhile_cons_of_neg (by simpa [startsWithDigit] using h)

theorem DigitRun.startsWithDigit {s : List Char} (h : DigitRun s) (rest : List Char) :
    startsWithDigit (s ++ rest) = true := by
  cases h with
  | digits hc _ => exact hc

theorem DigitRun.dropWhile_append {s rest : List Char} (h : DigitRun s)
    (hr : Settings.startsWithDigit rest = false) : (s ++ rest).dropWhile isDigit = rest := by
  cases h with
  | digits hc hs => exact dropWhile_isDigit_append (List.forall_mem_cons.mpr ⟨hc, hs⟩) hr

/-- The sign of an exponent is not taken for a digit, nor a digit for a
sign. -/
theorem takeSign_append {sign s : List Char} (hsign : sign ∈ [[], ['+'], ['-']]) (h : DigitRun s)
    (rest : List Char) : (takeSign (sign ++ (s ++ rest))).2 = s ++ rest := by
  simp only [List.mem_cons, List.not_mem_nil, or_false] at hsign
  obtain rfl | rfl | rfl := hsign
  · cases h with
    | @digits c s hc _ =>
      rw [List.nil_append, List.cons_append, takeSign]
      · rintro _ ⟨rfl, -⟩
        exact absurd hc (by decide)
      · rintro _ ⟨rfl, -⟩
        exact absurd hc (by decide)
  · rfl
  · rfl

theorem skipFloatEnd_append {exponent rest : List Char} (h : Exponent exponent)
    (hr : EndsNumber rest) : skipFloatEnd (exponent ++ rest) = .ok rest := by
  have hdigit := startsWithDigit_eq_false fun c hc => (hr c hc).1
  cases h with
  | none =>
    rw [List.nil_append, skipFloatEnd]
    · rintro _ rfl
      exact (hr 'e' rfl).2 (by decide)
    · rintro _ rfl
      exact (hr 'E' rfl).2 (by decide)
  | @letter e sign s he hsign hs =>
    have hskip : skipExponent (sign ++ (s ++ rest)) = .ok rest := by
      simp only [skipExponent, takeSign_append hsign hs, hs.startsWithDigit rest,
        hs.dropWhile_append hdigit, if_true]
    simp only [List.mem_cons, List.not_mem_nil, or_false] at he
    rw [List.cons_append, List.append_assoc]
    obtain rfl | rfl := he <;> exact hskip

/-- An exponent is no digit and no point. -/
theorem Exponent.head_append {exponent rest : List Char} (h : Exponent exponent)
    (hr : EndsNumber rest) : ∀ c ∈ (exponent ++ rest).head?, isDigit c = false ∧ c ≠ '.' := by
  cases h with
  | none => exact fun c hc => ⟨(hr c hc).1, fun h => (hr c hc).2 (by simp [h])⟩
  | letter he _ _ =>
    intro c hc
    obtain rfl := Option.some.inj hc
    simp only [List.mem_cons, List.not_mem_nil, or_false] at he
    rcases he with rfl | rfl <;> decide

theorem skipNumberEnd_append {fraction exponent rest : List Char} (hf : Fraction fraction)
    (he : Exponent exponent) (hr : EndsNumber rest) :
    skipNumberEnd (fraction ++ (exponent ++ rest)) = .ok rest := by
  have hhead := he.head_append hr
  cases hf with
  | none =>
    rw [List.nil_append, skipNumberEnd, skipFloatEnd_append he hr]
    intro _ h
    exact (hhead '.' (by rw [h]; rfl)).2 rfl
  | @point s hs =>
    have hdigit := startsWithDigit_eq_false fun c hc => (hhead c hc).1
    rw [List.cons_append, skipNumberEnd, if_pos (hs.startsWithDigit _),
      hs.dropWhile_append hdigit, skipFloatEnd_append he hr]

/-- The digits before the point end at what follows them. -/
theorem startsWithDigit_fraction_append {fraction exponent rest : List Char}
    (hf : Fraction fraction) (he : Exponent exponent) (hr : EndsNumber rest) :
    startsWithDigit (fraction ++ (exponent ++ rest)) = false := by
  cases hf with
  | none => exact startsWithDigit_eq_false fun c hc => (he.head_append hr c hc).1
  | point _ => rfl

/-- A number is passed over from behind its sign to its end. -/
theorem skipNumber_append {whole fraction exponent rest : List Char} (hw : Whole whole)
    (hf : Fraction fraction) (he : Exponent exponent) (hr : EndsNumber rest) :
    skipNumber (whole ++ (fraction ++ (exponent ++ rest))) = .ok rest := by
  have hdigit := startsWithDigit_fraction_append hf he hr
  cases hw with
  | zero =>
    rw [List.singleton_append, skipNumber, if_pos rfl, hdigit, if_neg (by decide),
      skipNumberEnd_append hf he hr]
  | digits hc hzero hs =>
    rw [List.cons_append, skipNumber, if_neg hzero, if_pos hc,
      dropWhile_isDigit_append hs hdigit, skipNumberEnd_append hf he hr]

/-! ## Values -/

/-- What opens a bracket. -/
def Bracket.opening : Bracket → Char
  | list => '['
  | object => '\x7b'

/-- A value that is neither a list nor an object. -/
inductive Scalar : List Char → Prop
  | null : Scalar ['n', 'u', 'l', 'l']
  | yes : Scalar ['t', 'r', 'u', 'e']
  | no : Scalar ['f', 'a', 'l', 's', 'e']
  | number {s : List Char} : Numeral s → Scalar s
  | text {s : List Char} : Loose s → Scalar ('"' :: (s ++ ['"']))

/-- What stands before a value in a list or an object: in an object, its
key. -/
inductive Lead : Bracket → List Char → Prop
  | element {gap : List Char} : Filler gap → Lead .list gap
  | key {before key after gap : List Char} :
      Filler before → Loose key → Filler after → Filler gap →
      Lead .object (before ++ '"' :: (key ++ '"' :: (after ++ ':' :: gap)))

mutual

/-- **A value that is well formed.** -/
inductive Value : List Char → Prop
  | scalar {s : List Char} : Scalar s → Value s
  | empty (b : Bracket) {gap : List Char} :
      Filler gap → Value (b.opening :: (gap ++ [b.closing]))
  | bracket (b : Bracket) {items : List Char} :
      Items b items → Value (b.opening :: (items ++ [b.closing]))

/-- What may stand between two brackets, if anything but filler does. -/
inductive Items : Bracket → List Char → Prop
  | last {b : Bracket} {lead value gap : List Char} :
      Lead b lead → Value value → Filler gap → Items b (lead ++ (value ++ gap))
  | more {b : Bracket} {lead value gap items : List Char} :
      Lead b lead → Value value → Filler gap → Items b items →
      Items b (lead ++ (value ++ (gap ++ ',' :: items)))

end

/-! ## Passing over values -/

theorem readWord_append (word rest : List Char) : readWord word (word ++ rest) = .ok rest := by
  induction word with
  | nil => rfl
  | cons w word ih => rw [List.cons_append, readWord, if_pos rfl, ih]

/-- A digit is no other character that a value can start with. -/
theorem ne_of_isDigit {c : Char} (h : isDigit c = true) :
    isFiller c = false ∧ c ∉ ['n', 't', 'f', '-', '"', '[', ']', '\x7b'] := by
  refine ⟨Bool.eq_false_iff.mpr fun hf => ?_, fun hc => ?_⟩
  · simp only [isFiller, Bool.or_eq_true, beq_iff_eq] at hf
    rcases hf with ((rfl | rfl) | rfl) | rfl <;> exact absurd h (by decide)
  · simp only [List.mem_cons, List.not_mem_nil, or_false] at hc
    rcases hc with rfl | rfl | rfl | rfl | rfl | rfl | rfl | rfl <;> exact absurd h (by decide)

theorem skipScalar_append {s rest : List Char} (h : Scalar s) (hr : EndsNumber rest) :
    skipScalar (s ++ rest) = .ok rest := by
  cases h with
  | null => exact readWord_append ['u', 'l', 'l'] rest
  | yes => exact readWord_append ['r', 'u', 'e'] rest
  | no => exact readWord_append ['a', 'l', 's', 'e'] rest
  | text ht =>
    rw [List.cons_append, List.append_assoc]
    exact skipText_append ht rest
  | number hn =>
    cases hn with
    | parts hsign hw hf he =>
      have hskip := skipNumber_append hw hf he hr
      simp only [List.mem_cons, List.not_mem_nil, or_false] at hsign
      simp only [List.append_assoc]
      obtain rfl | rfl := hsign
      · cases hw with
        | zero => exact hskip
        | digits hc _ _ =>
          have hne := (ne_of_isDigit hc).2
          simp only [List.mem_cons, not_or] at hne
          rw [List.nil_append, List.cons_append, skipScalar, if_neg hne.1, if_neg hne.2.1,
            if_neg hne.2.2.1, if_neg hne.2.2.2.1, if_pos hc]
          exact hskip
      · exact hskip

theorem Scalar.exists_cons {s : List Char} (h : Scalar s) :
    ∃ c rest, s = c :: rest ∧ isFiller c = false ∧ c ∉ ['[', ']', '\x7b'] := by
  cases h with
  | null | yes | no | text => exact ⟨_, _, rfl, rfl, by decide⟩
  | number hn =>
    cases hn with
    | parts hsign hw _ _ =>
      simp only [List.mem_cons, List.not_mem_nil, or_false] at hsign
      obtain rfl | rfl := hsign
      · cases hw with
        | zero => exact ⟨_, _, rfl, rfl, by decide⟩
        | digits hc _ _ =>
          obtain ⟨hfiller, hne⟩ := ne_of_isDigit hc
          exact ⟨_, _, rfl, hfiller, fun h => hne (by simp_all)⟩
      · exact ⟨_, _, rfl, rfl, by decide⟩

theorem Value.exists_cons {s : List Char} (h : Value s) :
    ∃ c rest, s = c :: rest ∧ isFiller c = false ∧ c ≠ ']' := by
  cases h with
  | scalar hs =>
    obtain ⟨c, rest, rfl, hfiller, hne⟩ := hs.exists_cons
    exact ⟨c, rest, rfl, hfiller, fun h => hne (by simp [h])⟩
  | empty b _ => cases b <;> exact ⟨_, _, rfl, rfl, by decide⟩
  | bracket b _ => cases b <;> exact ⟨_, _, rfl, rfl, by decide⟩

/-- What is enclosed starts with a token, which does not close it. -/
theorem Items.exists_token {b : Bracket} {items : List Char} (h : Items b items) :
    ∃ gap c rest, items = gap ++ c :: rest ∧ Filler gap ∧ isFiller c = false ∧ c ≠ b.closing := by
  have start {lead value : List Char} (hl : Lead b lead) (hv : Value value) (tail : List Char) :
      ∃ gap c rest, lead ++ (value ++ tail) = gap ++ c :: rest ∧ Filler gap ∧
        isFiller c = false ∧ c ≠ b.closing := by
    cases hl with
    | element hg =>
      obtain ⟨c, rest, rfl, hfiller, hne⟩ := hv.exists_cons
      exact ⟨_, c, rest ++ tail, rfl, hg, hfiller, hne⟩
    | key hg _ _ _ => exact ⟨_, '"', _, List.append_assoc .., hg, rfl, by decide⟩
  cases h with
  | last hl hv _ => exact start hl hv _
  | more hl hv _ _ => exact start hl hv _

/-! ## The tokens of nested values -/

section

variable {b : Bracket} {gap : List Char} {brackets : List Bracket}

theorem skipValue_eq (brackets : List Bracket) (s : List Char) :
    skipValue brackets s =
      match skipFiller s with
      | [] => Stop.past .endInValue []
      | c :: rest =>
        if c = '[' then openBracket .list brackets rest
        else if c = '\x7b' then openBracket .object brackets rest
        else skipScalar (c :: rest) >>= skipRest brackets := by
  rw [skipValue]
  split
  · next hs => rw [hs]
  · next c rest hs =>
    simp only [hs]
    split
    · rfl
    · split
      · rfl
      · split <;> next hscalar => rw [hscalar]; rfl

theorem skipValue_filler (hg : Filler gap) (brackets : List Bracket) (s : List Char) :
    skipValue brackets (gap ++ s) = skipValue brackets s := by
  rw [skipValue_eq, skipFiller_append hg, ← skipValue_eq]

theorem skipValue_opening (b : Bracket) (brackets : List Bracket) (s : List Char) :
    skipValue brackets (b.opening :: s) = openBracket b brackets s := by
  cases b <;> rw [skipValue_eq, skipFiller_cons rfl] <;> rfl

theorem skipValue_scalar {s rest : List Char} (h : Scalar s) (hr : EndsNumber rest)
    (brackets : List Bracket) : skipValue brackets (s ++ rest) = skipRest brackets rest := by
  have hskip := skipScalar_append h hr
  obtain ⟨c, tail, rfl, hfiller, hne⟩ := h.exists_cons
  simp only [List.mem_cons, not_or] at hne
  rw [List.cons_append] at hskip ⊢
  rw [skipValue_eq, skipFiller_cons hfiller]
  dsimp only
  rw [if_neg hne.1, if_neg hne.2.2.1, hskip]
  rfl

theorem openBracket_closing (hg : Filler gap) (b : Bracket) (brackets : List Bracket)
    (rest : List Char) :
    openBracket b brackets (gap ++ b.closing :: rest) = skipRest brackets rest := by
  have htoken : skipFiller (gap ++ b.closing :: rest) = b.closing :: rest := by
    rw [skipFiller_append hg]
    cases b <;> rfl
  rw [openBracket]
  split
  · next hs => simp [htoken] at hs
  · next hs =>
    obtain ⟨rfl, rfl⟩ := List.cons.inj (htoken.symm.trans hs)
    rw [if_pos rfl]

theorem openBracket_token {c : Char} (hg : Filler gap) (hfiller : isFiller c = false)
    (hc : c ≠ b.closing) (brackets : List Bracket) (rest : List Char) :
    openBracket b brackets (gap ++ c :: rest) = skipItem b brackets (gap ++ c :: rest) := by
  have htoken : skipFiller (gap ++ c :: rest) = c :: rest := by
    rw [skipFiller_append hg, skipFiller_cons hfiller]
  rw [openBracket]
  split
  · next hs => simp [htoken] at hs
  · next hs =>
    obtain ⟨rfl, rfl⟩ := List.cons.inj (htoken.symm.trans hs)
    rw [if_neg hc]

/-- Behind its key, an item of an object is read like one of a list. -/
theorem skipItem_lead {lead : List Char} (h : Lead b lead) (brackets : List Bracket)
    (s : List Char) : skipItem b brackets (lead ++ s) = skipValue (b :: brackets) s := by
  cases h with
  | element hg => rw [skipItem.eq_def, skipValue_filler hg]
  | @key before key after gap hb hk ha hg =>
    have hkey : skipKey (before ++ '"' :: (key ++ '"' :: (after ++ ':' :: (gap ++ s)))) =
        .ok (gap ++ s) := by
      rw [skipKey, skipFiller_append hb, skipFiller_cons rfl]
      dsimp only
      rw [if_pos rfl, skipText_append hk]
      exact readColon_append ha _
    simp only [List.append_assoc, List.cons_append]
    rw [skipItem.eq_def]
    dsimp only
    split
    · next he => simp [hkey] at he
    · next he =>
      obtain rfl := Except.ok.inj (hkey.symm.trans he)
      exact skipValue_filler hg _ _

theorem skipRest_eq (b : Bracket) (brackets : List Bracket) (s : List Char) :
    skipRest (b :: brackets) s =
      match skipFiller s with
      | [] => Stop.past b.endInside []
      | c :: rest =>
        if c = ',' then skipItem b brackets rest
        else if c = b.closing then skipRest brackets rest
        else Stop.past b.notEnded (c :: rest) := by
  rw [skipRest.eq_def]
  dsimp only
  split
  · next hs => rw [hs]
  · next hs => rw [hs]

theorem skipRest_comma (hg : Filler gap) (b : Bracket) (brackets : List Bracket)
    (s : List Char) : skipRest (b :: brackets) (gap ++ ',' :: s) = skipItem b brackets s := by
  rw [skipRest_eq, skipFiller_append hg, skipFiller_cons rfl]
  exact if_pos rfl

theorem skipRest_closing (hg : Filler gap) (b : Bracket) (brackets : List Bracket)
    (s : List Char) :
    skipRest (b :: brackets) (gap ++ b.closing :: s) = skipRest brackets s := by
  rw [skipRest_eq, skipFiller_append hg]
  cases b <;> rw [skipFiller_cons rfl] <;> rfl

end

/-! ## Nested values -/

theorem EndsNumber.comma (s : List Char) : EndsNumber (',' :: s) :=
  .of_cons (by decide) s

theorem EndsNumber.closing (b : Bracket) (s : List Char) : EndsNumber (b.closing :: s) := by
  cases b <;> exact .of_cons (by decide) s

mutual

/-- **A value is passed over to its end.** By recursion on how it is built,
together with what stands between its brackets. -/
theorem skipValue_append {s rest : List Char} (h : Value s) (hr : EndsNumber rest)
    (brackets : List Bracket) : skipValue brackets (s ++ rest) = skipRest brackets rest := by
  match h with
  | .scalar hs => exact skipValue_scalar hs hr brackets
  | .empty b hg =>
    rw [List.cons_append, skipValue_opening, List.append_assoc]
    exact openBracket_closing hg b brackets rest
  | .bracket b hi =>
    obtain ⟨gap, c, tail, he, hg, hfiller, hc⟩ := hi.exists_token
    have hskip := skipItem_append hi brackets rest
    rw [List.cons_append, skipValue_opening, List.append_assoc, List.singleton_append, ← hskip, he,
      List.append_assoc, List.cons_append]
    exact openBracket_token hg hfiller hc brackets _

theorem skipItem_append {b : Bracket} {items : List Char} (h : Items b items)
    (brackets : List Bracket) (rest : List Char) :
    skipItem b brackets (items ++ b.closing :: rest) = skipRest brackets rest := by
  match h with
  | .last hl hv hg =>
    rw [List.append_assoc, skipItem_lead hl, List.append_assoc,
      skipValue_append hv (.filler_append hg (.closing b rest)), skipRest_closing hg]
  | .more hl hv hg hi =>
    rw [List.append_assoc, skipItem_lead hl, List.append_assoc, List.append_assoc,
      List.cons_append, skipValue_append hv (.filler_append hg (.comma _)), skipRest_comma hg,
      skipItem_append hi]

end

end Marginalia.Settings
