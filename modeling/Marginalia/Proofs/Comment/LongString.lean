import Marginalia.Proofs.Comment.PlainLines

/-!
# Where a long string ends

A long string ends at the first delimiter after its opening, whatever
stands before that (`Token.divide_longString`). A reader who lets a
backslash hide the character after it may have to go on: `FirstUnescaped`
says where such a reader finds the end. The two part exactly where a
hidden character starts the delimiter (`HasEscaped`), and there the rest of
the string is scanned as code. Everywhere else nothing in a long string is
taken for a comment.
-/

namespace Marginalia

namespace Text

/-! ## Delimiters behind backslashes -/

/-- **The first unescaped occurrence.** In `s ++ d`, read from left to right
with a backslash hiding the character after it, `d` stands first at the
end. -/
inductive FirstUnescaped (d : List Char) : List Char → Prop
  | nil : FirstUnescaped d []
  | escape (c : Char) {s : List Char} : FirstUnescaped d s → FirstUnescaped d ('\\' :: c :: s)
  | plain {c : Char} {s : List Char} :
      c ≠ '\\' → ¬ d <+: c :: (s ++ d) → FirstUnescaped d s → FirstUnescaped d (c :: s)

/-- In `s ++ d`, read so, `d` stands where a character is hidden. -/
inductive HasEscaped (d : List Char) : List Char → Prop
  | here {c : Char} {s : List Char} : d <+: c :: (s ++ d) → HasEscaped d ('\\' :: c :: s)
  | escape (c : Char) {s : List Char} : HasEscaped d s → HasEscaped d ('\\' :: c :: s)
  | plain {c : Char} {s : List Char} : c ≠ '\\' → HasEscaped d s → HasEscaped d (c :: s)

section

variable {d s : List Char}

/-- **An occurrence before the end is hidden**: a backslash stands before
it. By induction on what is read: nothing but a hidden character can start
one. -/
theorem FirstUnescaped.hasEscaped_of_append_eq (h : FirstUnescaped d s) (hd : ¬ ['\\'] <+: d)
    (hne : d ≠ []) {earlier later : List Char} (he : s ++ d = earlier ++ d ++ later)
    (hlt : earlier.length < s.length) : HasEscaped d s ∧ ∃ before, earlier = before ++ ['\\'] := by
  induction h generalizing earlier with
  | nil => simp at hlt
  | @escape c s _ ih =>
    rcases earlier with _ | ⟨e, _ | ⟨e', earlier⟩⟩
    · -- the delimiter would start with the backslash
      obtain ⟨a, d, rfl⟩ := List.exists_cons_of_ne_nil hne
      obtain ⟨rfl, -⟩ := List.cons.inj he
      exact absurd ⟨d, rfl⟩ hd
    · simp only [List.cons_append, List.nil_append, List.cons.injEq] at he
      obtain ⟨rfl, he⟩ := he
      exact ⟨.here ⟨later, he.symm⟩, [], rfl⟩
    · simp only [List.cons_append, List.cons.injEq] at he
      obtain ⟨rfl, rfl, he⟩ := he
      obtain ⟨hesc, before, rfl⟩ := ih he (by simpa using hlt)
      exact ⟨.escape c hesc, '\\' :: c :: before, rfl⟩
  | @plain c s hc hnot _ ih =>
    rcases earlier with _ | ⟨e, earlier⟩
    · exact absurd ⟨later, he.symm⟩ hnot
    · simp only [List.cons_append, List.cons.injEq] at he
      obtain ⟨rfl, he⟩ := he
      obtain ⟨hesc, before, rfl⟩ := ih he (by simpa using hlt)
      exact ⟨.plain hc hesc, c :: before, rfl⟩

/-- A hidden character that starts the delimiter does so before the end. -/
theorem HasEscaped.exists_append_eq (h : HasEscaped d s) :
    ∃ earlier later, s ++ d = earlier ++ d ++ later ∧ earlier.length < s.length := by
  induction h with
  | @here c s hpre =>
    obtain ⟨later, hlater⟩ := hpre
    refine ⟨['\\'], later, ?_, by simp⟩
    rw [List.append_assoc, hlater]
    rfl
  | @escape c s _ ih =>
    obtain ⟨earlier, later, he, hlt⟩ := ih
    exact ⟨'\\' :: c :: earlier, later, by simp [he], by simpa using hlt⟩
  | @plain c s _ _ ih =>
    obtain ⟨earlier, later, he, hlt⟩ := ih
    exact ⟨c :: earlier, later, by simp [he], by simpa using hlt⟩

/-- Without one, the first occurrence is the unescaped one. -/
theorem FirstUnescaped.firstOccurrence (h : FirstUnescaped d s) (hd : ¬ ['\\'] <+: d)
    (hne : d ≠ []) (hn : ¬ HasEscaped d s) : FirstOccurrence d s [] := by
  intro earlier later he
  by_contra hlt
  rw [List.append_nil] at he
  exact hn (h.hasEscaped_of_append_eq hd hne he (by omega)).1

/-- With one, the first occurrence comes earlier, behind a backslash. -/
theorem FirstUnescaped.exists_firstOccurrence (h : FirstUnescaped d s) (hd : ¬ ['\\'] <+: d)
    (hne : d ≠ []) (hesc : HasEscaped d s) :
    ∃ before tail, s ++ d = (before ++ ['\\']) ++ d ++ tail ∧
      (before ++ ['\\']).length < s.length ∧ FirstOccurrence d (before ++ ['\\']) tail := by
  obtain ⟨earlier, later, he, hlt⟩ := hesc.exists_append_eq
  have hsome := isSome_cut?_of_infix (List.infix_append s d [])
  obtain ⟨⟨first, tail⟩, hcut⟩ := Option.isSome_iff_exists.mp hsome
  obtain ⟨hfirst, hocc⟩ := cut?_eq_some_iff.mp hcut
  rw [List.append_nil] at hfirst
  have hle := hocc earlier later (hfirst.symm.trans he)
  have hlt' : first.length < s.length := by omega
  obtain ⟨before, rfl⟩ := (h.hasEscaped_of_append_eq hd hne hfirst hlt').2
  exact ⟨before, tail, hfirst, hlt', hocc⟩

end

end Text

/-! ## Long strings in a text -/

section

variable {g : Grammar} {d : List Char}

/-- No delimiter of long strings starts with another, or with a
backslash. -/
theorem Grammar.longStringAt?_append_of_mem (hd : d ∈ g.longStrings) (rest : List Char) :
    g.longStringAt? (d ++ rest) = some d := by
  cases g <;> simp [longStrings] at hd
  rcases hd with rfl | rfl <;> simp [longStringAt?, longStrings, List.isPrefixOf]

theorem Grammar.not_backslash_prefix_of_mem_longStrings (hd : d ∈ g.longStrings) :
    ¬ ['\\'] <+: d := by
  cases g <;> simp [longStrings] at hd
  rcases hd with rfl | rfl <;> simp

namespace Token

open Comment

/-- No comment opens where a long string does. -/
theorem noComment_append_of_mem_longStrings (hd : d ∈ g.longStrings) (rest : List Char) :
    NoComment g (d ++ rest) := by
  refine noComment_iff.mpr ?_
  cases g <;> simp [Grammar.longStrings] at hd
  rcases hd with rfl | rfl <;> simp [Grammar.blockAt?, Grammar.blocks, Grammar.lineOpening?]

/-- **A long string ends at the first delimiter after its opening.** -/
theorem divide_longString (hd : d ∈ g.longStrings) {s rest : List Char}
    (hf : Text.FirstOccurrence d s rest) :
    divide g (d ++ s ++ d ++ rest) = literal ⟨d, s, d⟩ :: divide g rest := by
  have htext : (literal ⟨d, s, d⟩).text ++ rest = d ++ (s ++ d ++ rest) := by
    simp [text, Span.text]
  have hlit : IsLiteral g ⟨d, s, d⟩ rest := by
    refine .long (d := d) ?_ (.closed hf)
    exact (congrArg g.longStringAt? htext).trans (g.longStringAt?_append_of_mem hd _)
  have hleads : Leads g (literal ⟨d, s, d⟩) rest := by
    refine .literal ?_ hlit
    exact htext ▸ noComment_append_of_mem_longStrings hd _
  have hseg := Segmentation.cons hleads (segmentation_divide g rest)
  rw [eq_divide_of_segmentation hseg, htext]
  simp only [List.append_assoc]

end Token

/-- So no comment starts in it, and those after it are further down by its
line feeds. -/
theorem Region.all_append_of_firstOccurrence (hd : d ∈ g.longStrings) {s rest : List Char}
    (hf : Text.FirstOccurrence d s rest) :
    all g (d ++ s ++ d ++ rest) = (all g rest).map (down (s.count '\n')) := by
  have hfeed : d.count '\n' = 0 := by
    refine List.count_eq_zero_of_not_mem fun hmem => ?_
    have hblank := g.dense_of_mem_longStrings hd '\n' hmem
    exact absurd hblank (by decide)
  have hcount : (Token.literal ⟨d, s, d⟩).text.count '\n' = s.count '\n' := by
    simp [Token.text, Span.text, hfeed]
  rw [all, Token.divide_longString hd hf, ofTokens_cons, hcount, ofTokens_add, all]
  rfl

/-- **Long strings and escapes.** Let the first unescaped delimiter after an
opening be the one that closes a long string. The division takes the whole
string for one literal exactly where no escaped character of it starts the
delimiter, and there the comments of the text are those that follow the
string, further down by its line feeds. Where one does, the literal ends
there, and what is left of the string is scanned as code. -/
theorem Region.all_longString {s : List Char} (hd : d ∈ g.longStrings)
    (hs : Text.FirstUnescaped d s) :
    ((∀ rest, Token.divide g (d ++ s ++ d ++ rest) =
        .literal ⟨d, s, d⟩ :: Token.divide g rest) ↔ ¬ Text.HasEscaped d s) ∧
    (¬ Text.HasEscaped d s → ∀ rest,
      all g (d ++ s ++ d ++ rest) = (all g rest).map (down (s.count '\n'))) ∧
    (Text.HasEscaped d s → ∃ before tail, s ++ d = before ++ ['\\'] ++ d ++ tail ∧ tail ≠ [] ∧
      ∀ rest, all g (d ++ s ++ d ++ rest) =
        (all g (tail ++ rest)).map (down (before.count '\n'))) := by
  have hslash := g.not_backslash_prefix_of_mem_longStrings hd
  have hne := g.ne_nil_of_mem_longStrings hd
  have hwhole (hn : ¬ Text.HasEscaped d s) (rest : List Char) : Text.FirstOccurrence d s rest :=
    (hs.firstOccurrence hslash hne hn).append rest
  refine ⟨⟨fun hdivide hesc => ?_, fun hn rest => Token.divide_longString hd (hwhole hn rest)⟩,
    fun hn rest => all_append_of_firstOccurrence hd (hwhole hn rest), fun hesc => ?_⟩
  · -- the division starts with a literal that is shorter
    obtain ⟨before, tail, he, hlt, hocc⟩ := hs.exists_firstOccurrence hslash hne hesc
    have hshort := Token.divide_longString hd hocc
    have hlong := hdivide []
    rw [List.append_nil, List.append_assoc, he, ← List.append_assoc, ← List.append_assoc,
      hshort, List.cons.injEq, Token.literal.injEq, Span.mk.injEq] at hlong
    rw [hlong.1.2.1] at hlt
    exact absurd hlt (lt_irrefl _)
  · obtain ⟨before, tail, he, hlt, hocc⟩ := hs.exists_firstOccurrence hslash hne hesc
    refine ⟨before, tail, he, ?_, fun rest => ?_⟩
    · rintro rfl
      have hlen := congrArg List.length he
      simp only [List.length_append, List.length_nil] at hlen hlt
      omega
    · have hall := all_append_of_firstOccurrence hd (hocc.append rest)
      have htext : d ++ s ++ d ++ rest = d ++ (before ++ ['\\']) ++ d ++ (tail ++ rest) := by
        rw [List.append_assoc d, he]
        simp only [List.append_assoc]
      rw [htext, hall, List.count_append]
      rfl

/-- An escaped quote and a hash over two lines, before a comment. -/
theorem Region.all_longString_escapedQuote :
    ['"', '"', '"'] ∈ Grammar.longStrings .python ∧
    Text.FirstUnescaped ['"', '"', '"'] ['\\', '"', '#', '\n'] ∧
    ¬ Text.HasEscaped ['"', '"', '"'] ['\\', '"', '#', '\n'] ∧
    all .python (['"', '"', '"'] ++ ['\\', '"', '#', '\n'] ++ ['"', '"', '"'] ++ " # a".toList) =
      [⟨[' ', 'a'], 2, false⟩] := by
  have hd : ['"', '"', '"'] ∈ Grammar.longStrings .python := by decide
  have hs : Text.FirstUnescaped ['"', '"', '"'] ['\\', '"', '#', '\n'] :=
    .escape '"' (.plain (by decide) (by decide) (.plain (by decide) (by decide) .nil))
  have hn : ¬ Text.HasEscaped ['"', '"', '"'] ['\\', '"', '#', '\n'] := by
    intro h
    cases h with
    | here hpre => exact absurd hpre (by decide)
    | escape _ h =>
      cases h with
      | plain _ h =>
        cases h with
        | plain _ h => cases h
    | plain hc _ => exact absurd rfl hc
  refine ⟨hd, hs, hn, ?_⟩
  rw [(all_longString hd hs).2.1 hn]
  decide +kernel

/-- **A string that is not passed over whole.** Its one delimiter that is
not escaped is the one at its end, so that nothing in it is a comment; yet
its hash opens one. -/
theorem Region.all_longString_escapedDelimiter :
    ['"', '"', '"'] ∈ Grammar.longStrings .python ∧
    Text.FirstUnescaped ['"', '"', '"'] ['\\', '"', '"', '"', '#', 'a'] ∧
    (all .python []).map (down (['\\', '"', '"', '"', '#', 'a'].count '\n')) = [] ∧
    all .python (['"', '"', '"'] ++ ['\\', '"', '"', '"', '#', 'a'] ++ ['"', '"', '"'] ++ []) =
      [⟨['a', '"', '"', '"'], 1, false⟩] := by
  refine ⟨by decide, ?_, by decide +kernel, by decide +kernel⟩
  exact .escape '"' (.plain (by decide) (by decide) (.plain (by decide) (by decide)
    (.plain (by decide) (by decide) (.plain (by decide) (by decide) .nil))))

end

end Marginalia
