import Marginalia.Grammar.Registry
import Marginalia.Proofs.Text.Lower
import Mathlib.Data.List.Basic

/-!
# What a registry answers

A registry is made of the rows of its languages, an extension and a grammar
each, in table order, and answers with the last row whose extension has the
normal form asked for (`resolve_eq_some_iff`). Inserting the rows one by one
into a table with a key for each normal form, so that a later row overwrites
an earlier one, answers the same (`getElem?_table`). The normal form of a
normal form is itself (`normalizeExtension_normalizeExtension`), so that it
makes no difference whether a path is asked for by its extension as it was
spelled or by its normal form.
-/

namespace Marginalia

/-! ## Normal forms -/

/-- **The normal form of an extension is settled.** -/
@[simp]
theorem normalizeExtension_normalizeExtension (extension : String) :
    normalizeExtension (normalizeExtension extension) = normalizeExtension extension := by
  unfold normalizeExtension
  generalize hbare : extension.toList.dropWhile (· == '.') = bare
  cases bare with
  | nil => rfl
  | cons c bare =>
    -- behind its one dot stands no other, so that only the letters are lower-cased again
    have hc : c ≠ '.' := by
      have := List.head?_dropWhile_not (· == '.') extension.toList
      simpa [hbare] using this
    obtain ⟨d, rest, hlower, hd⟩ := Text.exists_lower_cons hc bare
    have htwice := Text.lower_lower (c :: bare)
    rw [hlower] at htwice
    simp [hlower, hd, htwice]

namespace Registry

/-! ## Rows -/

/-- The rows of a table of languages: each extension with the grammar of its
language, languages in order and extensions in order within each. -/
def rows (languages : List Language) : List (String × Grammar) :=
  languages.flatMap fun l => l.extensions.map fun e => (e, l.grammar)

theorem entries_ofLanguages (languages : List Language) :
    (ofLanguages languages).entries =
      (rows languages).map fun row => (normalizeExtension row.1, row.2) := by
  simp [ofLanguages, rows, List.map_flatMap, Function.comp_def]

/-- The grammar of an extension is that of the last row with its normal
form. -/
theorem resolve_ofLanguages (languages : List Language) (extension : String) :
    (ofLanguages languages).resolve extension =
      ((rows languages).reverse.find? fun row =>
        normalizeExtension row.1 = normalizeExtension extension).map (·.2) := by
  rw [resolve, entries_ofLanguages, ← List.map_reverse, List.find?_map, Option.map_map]
  rfl

/-- **The last row decides.** -/
theorem resolve_eq_some_iff {languages : List Language} {extension : String} {g : Grammar} :
    (ofLanguages languages).resolve extension = some g ↔
      ∃ before e after, rows languages = before ++ (e, g) :: after ∧
        normalizeExtension e = normalizeExtension extension ∧
        ∀ row ∈ after, normalizeExtension row.1 ≠ normalizeExtension extension := by
  rw [resolve_ofLanguages, Option.map_eq_some_iff]
  constructor
  · rintro ⟨⟨e, _⟩, hfind, rfl⟩
    obtain ⟨he, after, before, hrows, hafter⟩ := List.find?_eq_some_iff_append.mp hfind
    refine ⟨before.reverse, e, after.reverse, ?_, by simpa using he, fun row hrow => ?_⟩
    · rw [← List.reverse_reverse (rows languages), hrows]
      simp
    · simpa using hafter row (List.mem_reverse.mp hrow)
  · rintro ⟨before, e, after, hrows, he, hafter⟩
    refine ⟨(e, g), ?_, rfl⟩
    rw [List.find?_eq_some_iff_append]
    refine ⟨by simpa using he, after.reverse, before.reverse, ?_, fun row hrow => ?_⟩
    · rw [hrows]
      simp
    · simpa using hafter row (List.mem_reverse.mp hrow)

theorem resolve_eq_none_iff {languages : List Language} {extension : String} :
    (ofLanguages languages).resolve extension = none ↔
      ∀ row ∈ rows languages, normalizeExtension row.1 ≠ normalizeExtension extension := by
  rw [resolve_ofLanguages, Option.map_eq_none_iff, List.find?_eq_none]
  simp

/-! ## Inserting the rows one by one -/

/-- The grammars by the normal forms of their extensions, inserted language
by language and extension by extension. -/
def table (languages : List Language) : Std.HashMap String Grammar :=
  languages.foldl (fun t l =>
    l.extensions.foldl (fun t e => t.insert (normalizeExtension e) l.grammar) t) ∅

/-- After inserting rows a key has the grammar of the last of them with that
normal form, or the one it had before. -/
theorem getElem?_foldl_insert (rows : List (String × Grammar)) (t : Std.HashMap String Grammar)
    (key : String) :
    (rows.foldl (fun t row => t.insert (normalizeExtension row.1) row.2) t)[key]? =
      ((rows.reverse.find? fun row => normalizeExtension row.1 = key).map (·.2)).or t[key]? := by
  induction rows generalizing t with
  | nil => simp
  | cons row rows ih =>
    rw [List.foldl_cons, ih, List.reverse_cons, List.find?_append, Std.HashMap.getElem?_insert]
    cases hlater : rows.reverse.find? fun row => normalizeExtension row.1 = key with
    | some later => simp
    | none => by_cases hkey : normalizeExtension row.1 = key <;> simp [hkey]

/-- **The table answers like the registry.** -/
theorem getElem?_table (languages : List Language) (extension : String) :
    (table languages)[normalizeExtension extension]? =
      (ofLanguages languages).resolve extension := by
  have hrows : table languages =
      (rows languages).foldl (fun t row => t.insert (normalizeExtension row.1) row.2) ∅ := by
    simp [table, rows, List.foldl_flatMap, List.foldl_map]
  rw [hrows, getElem?_foldl_insert, resolve_ofLanguages]
  simp

/-! ## Asking for paths -/

theorem resolve_normalizeExtension (r : Registry) (extension : String) :
    r.resolve (normalizeExtension extension) = r.resolve extension := by
  rw [resolve, normalizeExtension_normalizeExtension, ← resolve]

/-- **What the registry of some languages answers.** -/
structure Answers (languages : List Language) : Prop where
  /-- A grammar: that of the last row with the normal form of the extension. -/
  some_iff : ∀ extension g, (ofLanguages languages).resolve extension = some g ↔
    ∃ before e after, rows languages = before ++ (e, g) :: after ∧
      normalizeExtension e = normalizeExtension extension ∧
      ∀ row ∈ after, normalizeExtension row.1 ≠ normalizeExtension extension
  /-- None: there is no such row. -/
  none_iff : ∀ extension, (ofLanguages languages).resolve extension = none ↔
    ∀ row ∈ rows languages, normalizeExtension row.1 ≠ normalizeExtension extension
  /-- The same as the table that the rows are inserted into. -/
  table_eq : ∀ extension, (table languages)[normalizeExtension extension]? =
    (ofLanguages languages).resolve extension
  /-- The normal form is settled. -/
  normalize_eq : ∀ extension,
    normalizeExtension (normalizeExtension extension) = normalizeExtension extension
  /-- So a path can be asked for by the normal form of its extension or by the
  extension as it was spelled, nothing being the extension of a path that has
  none. -/
  path_eq : ∀ p : Path, (ofLanguages languages).resolve p.extension =
    (ofLanguages languages).resolve (String.ofList (p.extension?.getD []))

/-- **A registry answers for its languages**, whatever they are. -/
theorem answers_ofLanguages (languages : List Language) : Answers languages where
  some_iff _ _ := resolve_eq_some_iff
  none_iff _ := resolve_eq_none_iff
  table_eq := getElem?_table languages
  normalize_eq := normalizeExtension_normalizeExtension
  path_eq _ := resolve_normalizeExtension _ _

end Registry

end Marginalia
