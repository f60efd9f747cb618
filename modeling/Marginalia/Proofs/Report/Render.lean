import Marginalia.Proofs.Report.Group
import Marginalia.Report.Render

/-!
# Reports of batches put together

A report is its title and then the lines of its groups, each ended alike
(`render_eq`); only those depend on the notes. Groups of batches without
a file in common stand side by side, so that their lines do, and the
first failure of a hook is the first of the earlier batch or, where that
has none, of the later one.
-/

namespace Marginalia.Report

/-- The lines of the groups of some notes, group by group. -/
def sections (s : Settings) (notes : List Note) : Except Error (List (List String)) :=
  (Group.byFile notes).mapM (groupLines s)

/-- The text of some lines, each with what ends it. -/
def ended (s : Settings) (lines : List String) : String :=
  String.join (lines.map (· ++ s.newLine))

theorem ended_cons (s : Settings) (line : String) (lines : List String) :
    ended s (line :: lines) = line ++ s.newLine ++ ended s lines := by
  rw [ended, List.map_cons, String.join_cons, ended]

theorem ended_append (s : Settings) (a b : List String) :
    ended s (a ++ b) = ended s a ++ ended s b := by
  rw [ended, List.map_append, String.join_append, ended, ended]

/-- **A report is its title and its sections.** -/
theorem render_eq (s : Settings) (notes : List Note) :
    render s notes =
      (sections s notes).map fun groups => title ++ s.newLine ++ ended s groups.flatten := by
  unfold render sections
  cases (Group.byFile notes).mapM (groupLines s) with
  | error e => rfl
  | ok groups => exact congrArg Except.ok (ended_cons s title groups.flatten)

/-- The sections of batches without a file in common, one batch after the
other. -/
theorem sections_append (s : Settings) {a b : List Note}
    (h : ∀ m ∈ a, ∀ n ∈ b, m.file ≠ n.file) :
    sections s (a ++ b) = do
      let first ← sections s a
      let later ← sections s b
      return first ++ later := by
  rw [sections, Group.byFile_append h, List.mapM_append, sections, sections]

/-- **Reports are put together file by file.** Of two batches without a
file in common, the report is that of the first followed by that of the
second without its title line; it fails as the first fails, and where the
first does not fail, as the second does. -/
theorem render_append_of_disjoint (s : Settings) {a b : List Note}
    (h : ∀ m ∈ a, ∀ n ∈ b, m.file ≠ n.file) :
    (∀ da db, render s a = .ok da → render s b = .ok db →
      ∃ rest, db = title ++ s.newLine ++ rest ∧ render s (a ++ b) = .ok (da ++ rest)) ∧
    (∀ e, render s a = .error e → render s (a ++ b) = .error e) ∧
    (∀ da e, render s a = .ok da → render s b = .error e → render s (a ++ b) = .error e) := by
  rw [render_eq, render_eq, render_eq, sections_append s h]
  cases ha : sections s a with
  | error e => simp [Except.map, bind, Except.bind]
  | ok first =>
    cases hb : sections s b with
    | error e => simp [Except.map, bind, Except.bind]
    | ok later =>
      refine ⟨?_, by simp [Except.map], by simp [Except.map]⟩
      intro da db hda hdb
      obtain rfl := Except.ok.inj hda
      obtain rfl := Except.ok.inj hdb
      refine ⟨ended s later.flatten, rfl, ?_⟩
      simp only [bind, Except.bind, pure, Except.pure, Except.map, List.flatten_append,
        ended_append, String.append_assoc]

/-- So a report on three files is that on two of them, and then the lines
of the third. -/
theorem render_append_third_file :
    let two : List Note :=
      [⟨.todo, "one", "z.js", 1⟩, ⟨.todo, "two", "a.js", 1⟩, ⟨.fixme, "", "z.js", 7⟩]
    let third : List Note := [⟨.fixme, "three", "b.py", 10⟩]
    (∀ m ∈ two, ∀ n ∈ third, m.file ≠ n.file) ∧
      ∃ rest, "# TODOs\n### b.py\n- FIXME (line 10): three\n" = title ++ "\n" ++ rest ∧
        render { padding := 0 } (two ++ third) =
          .ok ("# TODOs\n### z.js\n- TODO (line 1): one\n- FIXME (line 7)\n" ++
            "### a.js\n- TODO (line 1): two\n" ++ rest) := by
  intro two third
  have hfiles : ∀ m ∈ two, ∀ n ∈ third, m.file ≠ n.file := by decide
  exact ⟨hfiles, (render_append_of_disjoint { padding := 0 } hfiles).1 _ _ rfl rfl⟩

end Marginalia.Report
