import Marginalia.Proofs.Comment.Segmentation
import Marginalia.Proofs.Text.Blank

/-!
# Delimiters have no blanks

Whatever opens or closes a comment or a literal, in any grammar, is a
dense text. So a blank is a border for all of them: no form reaches over
it by its opening (`Grammar.blockAt?_append`, `noComment_append_iff`), and
a blank by itself is a character of code (`leads_code_of_isBlank`).
-/

namespace Marginalia

open Text (Blank Dense isBlank)

namespace Grammar

theorem dense_of_mem_blocks {g : Grammar} {d : Delimiters} (h : d ∈ g.blocks) :
    Dense d.opening ∧ Dense d.closing ∧ d.closing ≠ [] := by
  have all : ∀ g : Grammar, ∀ d ∈ g.blocks,
      Dense d.opening ∧ Dense d.closing ∧ d.closing ≠ [] := by
    intro g
    cases g <;> decide
  exact all g d h

theorem dense_of_lineOpening? {g : Grammar} {o : List Char} (h : g.lineOpening? = some o) :
    Dense o := by
  have all : ∀ g : Grammar, ∀ o ∈ g.lineOpening?, Dense o := by
    intro g
    cases g <;> decide
  exact all g o h

theorem dense_of_mem_longStrings {g : Grammar} {d : List Char} (h : d ∈ g.longStrings) :
    Dense d := by
  have all : ∀ g : Grammar, ∀ d ∈ g.longStrings, Dense d := by
    intro g
    cases g <;> decide
  exact all g d h

theorem dense_of_mem_quotes {g : Grammar} {quote : Char} (h : quote ∈ g.quotes) :
    Dense [quote] := by
  have all : ∀ g : Grammar, g.quotes.all fun quote => Dense [quote] := by
    intro g
    cases g <;> rfl
  simpa using List.all_eq_true.mp (all g) quote h

section Border

variable {g : Grammar} {w : List Char}

/-- **No opening reaches over a blank.** -/
theorem blockAt?_append (hw : ∀ c, w.head? = some c → isBlank c = true) (s : List Char) :
    g.blockAt? (s ++ w) = g.blockAt? s :=
  Text.find?_isPrefixOf_append (fun _ hd => (dense_of_mem_blocks hd).1) hw s

theorem longStringAt?_append (hw : ∀ c, w.head? = some c → isBlank c = true) (s : List Char) :
    g.longStringAt? (s ++ w) = g.longStringAt? s :=
  Text.find?_isPrefixOf_append (fun _ hd => dense_of_mem_longStrings hd) hw s

end Border

end Grammar

namespace Token

open Comment

section Border

variable {g : Grammar} {w : List Char}

theorem noComment_append_iff (hw : ∀ c, w.head? = some c → isBlank c = true) {s : List Char} :
    NoComment g (s ++ w) ↔ NoComment g s := by
  rw [noComment_iff, noComment_iff, Grammar.blockAt?_append hw]
  refine and_congr_right fun _ => forall₂_congr fun o ho => ?_
  rw [Text.prefix_append_iff (Grammar.dense_of_lineOpening? ho) hw]

theorem noComment_nil (g : Grammar) : NoComment g [] := by
  refine noComment_iff.mpr ⟨?_, ?_⟩
  · refine List.find?_eq_none.mpr fun d hd => ?_
    rw [List.isPrefixOf_iff_prefix, List.prefix_nil]
    exact Grammar.opening_ne_nil_of_mem_blocks hd
  · intro o ho
    rw [List.prefix_nil]
    exact Grammar.ne_nil_of_lineOpening? ho

/-- What opens a literal has no blanks, and is not nothing. -/
theorem dense_opening_of_isLiteral {span : Span} {rest : List Char} (h : IsLiteral g span rest) :
    Dense span.opening ∧ span.opening ≠ [] := by
  cases h with
  | long hd he =>
    have hmem := List.mem_of_find?_eq_some hd
    rw [opening_of_enclosed he]
    exact ⟨Grammar.dense_of_mem_longStrings hmem, Grammar.ne_nil_of_mem_longStrings hmem⟩
  | char => exact ⟨(by decide : Dense ['\'']), by simp⟩
  | string _ hq => exact ⟨Grammar.dense_of_mem_quotes hq, by simp⟩

theorem opening_prefix (span : Span) (rest : List Char) : span.opening <+: span.text ++ rest := by
  rw [Span.text, List.append_assoc, List.append_assoc]
  exact List.prefix_append _ _

/-- **A blank is a character of code.** -/
theorem leads_code_of_isBlank {c : Char} (hc : isBlank c = true) (rest : List Char) :
    Leads g (code c) rest := by
  have hw : ∀ d, (c :: rest).head? = some d → isBlank d = true := by
    intro d hd
    obtain rfl : c = d := by simpa using hd
    exact hc
  refine .code ?_ ?_
  · have h := (noComment_append_iff (g := g) hw (s := [])).mpr (noComment_nil g)
    rwa [List.nil_append] at h
  · intro span after hl hs
    obtain ⟨hdense, hne⟩ := dense_opening_of_isLiteral hl
    have hpre : span.opening <+: [] ++ (c :: rest) := by
      rw [List.nil_append, ← hs]
      exact opening_prefix span after
    rw [Text.prefix_append_iff hdense hw, List.prefix_nil] at hpre
    exact hne hpre

/-- So blanks are divided into single characters. -/
theorem segmentation_of_blank (hw : Blank w) : Segmentation g w (w.map code) := by
  induction w with
  | nil => exact .nil
  | cons c w ih =>
    have hrest : Blank w := fun d hd => hw d (List.mem_cons_of_mem c hd)
    exact .cons (leads_code_of_isBlank (hw c List.mem_cons_self) w) (ih hrest)

end Border

end Token

/-- Code holds no comments. It only moves the line on. -/
theorem Region.ofTokens_map_code_append (line : Nat) (s : List Char) (ts : List Token) :
    ofTokens line (s.map Token.code ++ ts) = ofTokens (line + s.count '\n') ts := by
  induction s generalizing line with
  | nil => rfl
  | cons c s ih =>
    have hcount : (c :: s).count '\n' = [c].count '\n' + s.count '\n' := by
      rw [← List.count_append, List.singleton_append]
    rw [List.map_cons, List.cons_append, ofTokens_cons, ih, hcount, Token.text, Nat.add_assoc]
    rfl

end Marginalia
