import Marginalia.Comment.Extract
import Marginalia.Proofs.Comment.Delimiter

/-!
# Plain lines before a text

Lines in which nothing opens a comment or a literal are all code, and
what follows them is divided as it is without them: a line feed ends the
last of these lines, and no opening reaches over it
(`Token.segmentation_append_of_plain`). So such lines move what follows
further down and do nothing else.
-/

namespace Marginalia

/-- **A plain text**: nothing in it opens a comment or a literal. -/
structure Grammar.Plain (g : Grammar) (s : List Char) : Prop where
  blocks : ∀ d ∈ g.blocks, ¬ d.opening <:+: s
  line : ∀ o ∈ g.lineOpening?, ¬ o <:+: s
  longStrings : ∀ d ∈ g.longStrings, ¬ d <:+: s
  quotes : ∀ quote ∈ g.quotes, quote ∉ s
  apostrophe : g.charLiterals = true → '\'' ∉ s

/-- A part of a plain text is plain. -/
theorem Grammar.Plain.of_infix {g : Grammar} {s t : List Char} (h : g.Plain t) (hst : s <:+: t) :
    g.Plain s :=
  { blocks := fun d hd hin => h.blocks d hd (hin.trans hst)
    line := fun o ho hin => h.line o ho (hin.trans hst)
    longStrings := fun d hd hin => h.longStrings d hd (hin.trans hst)
    quotes := fun quote hq hmem => h.quotes quote hq (hst.subset hmem)
    apostrophe := fun hc hmem => h.apostrophe hc (hst.subset hmem) }

namespace Token

open Comment

variable {g : Grammar}

theorem noComment_of_plain {s : List Char} (h : g.Plain s) : NoComment g s := by
  refine noComment_iff.mpr ⟨?_, ?_⟩
  · refine List.find?_eq_none.mpr fun d hd => ?_
    rw [List.isPrefixOf_iff_prefix]
    intro hpre
    exact h.blocks d hd hpre.isInfix
  · intro o ho hpre
    exact h.line o ho hpre.isInfix

/-- What opens a literal does not stand in a plain text. -/
theorem not_prefix_of_plain {s rest : List Char} {span : Span} (h : g.Plain s)
    (hl : IsLiteral g span rest) : ¬ span.opening <+: s := by
  intro hpre
  cases hl with
  | long hd he =>
    rw [opening_of_enclosed he] at hpre
    exact h.longStrings _ (List.mem_of_find?_eq_some hd) hpre.isInfix
  | char _ hc _ => exact h.apostrophe hc (hpre.subset List.mem_cons_self)
  | string _ hq _ => exact h.quotes _ hq (hpre.subset List.mem_cons_self)

/-- **A character of a plain line is code**, whatever follows the line. -/
theorem leads_code_of_plain {c : Char} {s : List Char} (h : g.Plain (c :: s))
    (hend : (c :: s).getLast? = some '\n') (content : List Char) :
    Leads g (code c) (s ++ content) := by
  -- the text goes on after a line feed, which no opening reaches over
  obtain ⟨before, hbefore⟩ := List.getLast?_eq_some_iff.mp hend
  have hsplit : c :: (s ++ content) = before ++ '\n' :: content := by
    rw [← List.cons_append, hbefore, List.append_assoc, List.singleton_append]
  have hplain : g.Plain before := h.of_infix ⟨[], ['\n'], by rw [hbefore, List.nil_append]⟩
  have hfeed : ∀ d, ('\n' :: content).head? = some d → Text.isBlank d = true := by
    intro d hd
    obtain rfl : '\n' = d := by simpa using hd
    decide
  refine .code ?_ ?_
  · rw [hsplit, noComment_append_iff hfeed]
    exact noComment_of_plain hplain
  · intro span rest hl hs
    have hpre : span.opening <+: before ++ '\n' :: content := by
      rw [← hsplit, ← hs]
      exact opening_prefix span rest
    rw [Text.prefix_append_iff (dense_opening_of_isLiteral hl).1 hfeed] at hpre
    exact not_prefix_of_plain hplain hl hpre

/-- **Plain lines come before the division of what follows them**, one
character after another. -/
theorem segmentation_append_of_plain {p content : List Char} {ts : List Token} (h : g.Plain p)
    (hend : p = [] ∨ p.getLast? = some '\n') (hts : Segmentation g content ts) :
    Segmentation g (p ++ content) (p.map code ++ ts) := by
  induction p with
  | nil => exact hts
  | cons c p ih =>
    have hlast : (c :: p).getLast? = some '\n' := by
      rcases hend with hnil | hlast
      · simp at hnil
      · exact hlast
    have hrest : p = [] ∨ p.getLast? = some '\n' := by
      cases p with
      | nil => exact .inl rfl
      | cons d p => exact .inr (by rwa [List.getLast?_cons_cons] at hlast)
    have hplain : g.Plain p := h.of_infix (List.infix_cons List.infix_rfl)
    exact .cons (leads_code_of_plain h hlast content) (ih hplain hrest)

end Token

/-! ## Further down -/

/-- The region `n` lines further down. -/
def Region.down (n : Nat) (r : Region) : Region :=
  { r with line := r.line + n }

/-- The note `n` lines further down. -/
def Note.down (n : Nat) (note : Note) : Note :=
  { note with line := note.line + n }

/-- Where the first token stands decides where all the others stand. -/
theorem Region.ofTokens_add (line n : Nat) (ts : List Token) :
    ofTokens (line + n) ts = (ofTokens line ts).map (down n) := by
  induction ts generalizing line with
  | nil => rfl
  | cons t ts ih =>
    have hnext : line + n + t.text.count '\n' = line + t.text.count '\n' + n := by omega
    rw [ofTokens_cons, ofTokens_cons, hnext, ih, List.map_append]
    cases t <;> rfl

namespace Comment

theorem notesOf_add (g : Grammar) (file : String) (line n : Nat) (texts : List (List Char))
    (hs : List Hit) :
    notesOf g file (line + n) texts hs = (notesOf g file line texts hs).map (Note.down n) := by
  induction hs with
  | nil => rfl
  | cons h hs ih =>
    have hline : line + n + h.line = line + h.line + n := by omega
    rw [notesOf, notesOf, ih, hline, List.map_cons]
    rfl

theorem notes_down (g : Grammar) (file : String) (n : Nat) (r : Region) :
    notes g file (r.down n) = (notes g file r).map (Note.down n) :=
  notesOf_add g file r.line n (lines r.body) (hits (lines r.body))

end Comment

/-- **Plain lines only move what follows them.** Before any text, lines
in which nothing of the grammar opens a comment or a literal leave all
comments and all notes of the text as they are, but for their lines: these
are further down by as many as there are plain lines. -/
theorem extract_append_of_plain (g : Grammar) (file : String) {p : List Char} (h : g.Plain p)
    (hend : p = [] ∨ p.getLast? = some '\n') (content : List Char) :
    Region.all g (p ++ content) =
        (Region.all g content).map (Region.down (p.count '\n')) ∧
      extract g file (p ++ content) =
        (extract g file content).map (Note.down (p.count '\n')) := by
  have hseg := Token.segmentation_append_of_plain h hend (Token.segmentation_divide g content)
  have hall : Region.all g (p ++ content) =
      (Region.all g content).map (Region.down (p.count '\n')) := by
    rw [Region.all, ← Token.eq_divide_of_segmentation hseg, Region.ofTokens_map_code_append,
      Region.ofTokens_add, Region.all]
  refine ⟨hall, ?_⟩
  rw [extract, hall, List.flatMap_map, extract, List.map_flatMap]
  simp only [Comment.notes_down]

/-- Two lines of a grammar whose apostrophes open single characters, before
a block comment. The slash that ends a line opens nothing with the star
after it. -/
theorem extract_append_of_plain_seam :
    Grammar.Plain .rust "let a = b;\n /\n".toList ∧
    "let a = b;\n /\n".toList.getLast? = some '\n' ∧
    extract .rust "a.rs" ("let a = b;\n /\n".toList ++ "* 'c' /* TODO: d */".toList) =
      [⟨.todo, "d", "a.rs", 3⟩] := by
  have hplain : Grammar.Plain .rust "let a = b;\n /\n".toList :=
    { blocks := by decide +kernel
      line := by decide +kernel
      longStrings := by decide +kernel
      quotes := by
        simp only [Grammar.quotes, List.mem_singleton, forall_eq]
        decide +kernel
      apostrophe := by decide +kernel }
  have hlast : "let a = b;\n /\n".toList.getLast? = some '\n' := by decide +kernel
  refine ⟨hplain, hlast, ?_⟩
  rw [(extract_append_of_plain .rust "a.rs" hplain (.inr hlast) _).2]
  decide +kernel

end Marginalia
