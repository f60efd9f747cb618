import Marginalia.Collection
import Marginalia.Proofs.Report.Hook
import Marginalia.Proofs.Report.Partition
import Marginalia.Proofs.Report.Reading
import Mathlib.Algebra.GroupWithZero.Nat
import Mathlib.Data.Finset.Card

/-!
# Counting files and notes

A collection counts its files without grouping its notes. It counts what
grouping makes: there are as many groups as files, and their notes are
all notes, so that a report has that many header lines and that many
entries (`tallies_of_render`). Where the lines are the default ones they
can be counted in the text of the report as well.
-/

namespace Marginalia

namespace Collection

/-! ## What a collection counts -/

/-- A collection holds what was appended, batch after batch. -/
theorem notes_foldl_append (batches : List (List Note)) :
    (batches.foldl append {}).notes = batches.flatten := by
  have hfold (c : Collection) : (batches.foldl append c).notes = c.notes ++ batches.flatten := by
    induction batches generalizing c with
    | nil => simp
    | cons notes rest ih => rw [List.foldl_cons, ih, List.flatten_cons, append, List.append_assoc]
  exact hfold {}

/-- The notes that are the first of their file, where `seen` are the
files that had one before. -/
def countFirst (seen : Std.HashSet String) : List Note → Nat
  | [] => 0
  | n :: rest =>
    if n.file ∈ seen then countFirst seen rest else countFirst (seen.insert n.file) rest + 1

/-- **First notes count files**, those that were not seen before. -/
theorem countFirst_eq_card (seen : Std.HashSet String) (notes : List Note) :
    countFirst seen notes = ((notes.map (·.file)).toFinset.filter (· ∉ seen)).card := by
  induction notes generalizing seen with
  | nil => rfl
  | cons n rest ih =>
    rw [countFirst, List.map_cons, List.toFinset_cons]
    split
    · next h =>
      rw [ih, Finset.filter_insert, if_neg (not_not_intro h)]
    · next h =>
      -- the files that are new are this one and those that are new after it
      have hnew : (insert n.file (rest.map (·.file)).toFinset).filter (· ∉ seen) =
          insert n.file ((rest.map (·.file)).toFinset.filter (· ∉ seen.insert n.file)) := by
        ext file
        by_cases hf : file = n.file
        · simp [hf, h]
        · simp [hf, Ne.symm hf]
      rw [ih, hnew, Finset.card_insert_of_notMem (by simp)]

/-- **A collection counts first notes**, from when no file was seen. -/
theorem fileCount_eq_countFirst (c : Collection) : c.fileCount = countFirst ∅ c.notes := by
  have hset : (Group.files c.notes).toFinset =
      (c.notes.map (·.file)).toFinset.filter (· ∉ (∅ : Std.HashSet String)) := by
    ext file
    simp [Group.files]
  rw [countFirst_eq_card, ← hset, List.toFinset_card_of_nodup (Group.nodup_files c.notes)]
  rfl

/-- **A collection counts its groups.** -/
theorem fileCount_eq (c : Collection) : c.fileCount = (Group.byFile c.notes).length := by
  rw [Group.byFile_eq, List.length_map]
  rfl

/-- **And the notes in them.** -/
theorem size_eq (c : Collection) :
    c.size = ((Group.byFile c.notes).map (·.notes.length)).sum := by
  rw [← List.length_flatMap, (Group.perm_flatMap_notes_byFile c.notes).length_eq]
  rfl

end Collection

namespace Report

/-! ## Lines by what they are -/

/-- Whether a line is written as a header. -/
def isHeaderLine : Option HookCall → Bool
  | some (.header _) => true
  | some (.note _) | none => false

/-- Whether a line is written as an entry. -/
def isEntryLine : Option HookCall → Bool
  | some (.note _) => true
  | some (.header _) | none => false

theorem countP_isHeaderLine_slots (s : Settings) (g : Group) :
    (slots s g).countP isHeaderLine = 1 := by
  have hpad : (List.replicate s.padding none).countP isHeaderLine = 0 := by
    simp [isHeaderLine]
  have hentries : (g.notes.map fun n => some (.note n)).countP isHeaderLine = 0 := by
    simp [isHeaderLine]
  simp only [slots, List.countP_append, hpad, hentries]
  rfl

theorem countP_isEntryLine_slots (s : Settings) (g : Group) :
    (slots s g).countP isEntryLine = g.notes.length := by
  have hpad : (List.replicate s.padding none).countP isEntryLine = 0 := by
    simp [isEntryLine]
  have hentries : (g.notes.map fun n => some (.note n)).countP isEntryLine = g.notes.length := by
    simp [isEntryLine, List.countP_map, Function.comp_def]
  simp only [slots, List.countP_append, hpad, hentries]
  simp [isEntryLine]

/-- **A layout has a header line a group.** -/
theorem countP_isHeaderLine_layout (s : Settings) (notes : List Note) :
    (layout s notes).countP isHeaderLine = (Group.byFile notes).length := by
  rw [layout, List.countP_flatMap]
  simp [Function.comp_def, countP_isHeaderLine_slots]

/-- **And an entry line a note.** -/
theorem countP_isEntryLine_layout (s : Settings) (notes : List Note) :
    (layout s notes).countP isEntryLine = ((Group.byFile notes).map (·.notes.length)).sum := by
  rw [layout, List.countP_flatMap]
  simp [Function.comp_def, countP_isEntryLine_slots]

/-! ## Lines by how they look -/

/-- Whether a line has the sign of a header in front. -/
def looksLikeHeader (line : List Char) : Bool :=
  (headerOf? line).isSome

/-- Whether a line has the sign of an entry in front. -/
def looksLikeEntry (line : List Char) : Bool :=
  (Text.after? ['-', ' '] line).isSome

theorem looksLikeEntry_defaultEntry (n : Note) :
    looksLikeEntry (defaultEntry n).toList = true := by
  rw [looksLikeEntry, toList_defaultEntry, Text.after?_append]
  rfl

theorem looksLikeEntry_defaultHeader (h : Header) :
    looksLikeEntry (defaultHeader h).toList = false := by
  have hline : (defaultHeader h).toList = ['#', '#', '#', ' '] ++ h.file.toList := by
    simp [defaultHeader]
  rw [looksLikeEntry, hline]
  rfl

theorem countP_looksLikeHeader_plainLines (s : Settings) (g : Group) :
    (plainLines s g).countP looksLikeHeader = 1 := by
  have hpad : (blankLines s).countP looksLikeHeader = 0 :=
    List.countP_eq_zero.mpr fun line hl => by
      simp [looksLikeHeader, headerOf?_of_mem_blankLines hl]
  have hentries : (entries g.notes).countP looksLikeHeader = 0 :=
    List.countP_eq_zero.mpr fun line hl => by
      simp [looksLikeHeader, headerOf?_of_mem_entries hl]
  have hheader : looksLikeHeader (defaultHeader g.header).toList = true := by
    rw [looksLikeHeader, headerOf?_defaultHeader]
    rfl
  rw [plainLines, List.countP_append, List.countP_cons_of_pos hheader, List.countP_append, hpad,
    hentries]

theorem countP_looksLikeEntry_plainLines (s : Settings) (g : Group) :
    (plainLines s g).countP looksLikeEntry = g.notes.length := by
  have hpad : (blankLines s).countP looksLikeEntry = 0 := by
    refine List.countP_eq_zero.mpr fun line hl => ?_
    rw [List.eq_of_mem_replicate hl]
    decide
  have hentries : (entries g.notes).countP looksLikeEntry = g.notes.length := by
    rw [entries, List.countP_map, List.countP_eq_length]
    exact fun n _ => looksLikeEntry_defaultEntry n
  have hheader : ¬ looksLikeEntry (defaultHeader g.header).toList = true := by
    rw [looksLikeEntry_defaultHeader]
    decide
  rw [plainLines, List.countP_append, List.countP_cons_of_neg hheader, List.countP_append, hpad,
    hentries, Nat.zero_add, Nat.zero_add]

/-- What the title and the end of a plain report do not look like is only
looked for in its groups. -/
theorem countP_lines {p : List Char → Bool} (htitle : p title.toList = false)
    (hend : p [] = false) (s : Settings) (groups : List Group) :
    (title.toList :: groups.flatMap (plainLines s) ++ [[]]).countP p =
      (groups.map fun g => (plainLines s g).countP p).sum := by
  rw [List.countP_append, List.countP_cons_of_neg (by simp [htitle]), List.countP_flatMap,
    List.countP_singleton, hend]
  rfl

/-! ## Tallies -/

/-- **A report with so many headers and so many entries**, on the given
notes. -/
structure Tallies (s : Settings) (notes : List Note) (report : String) (headers entries : Nat) :
    Prop where
  /-- The report is its layout, filled in with what the hooks answered. -/
  filled_in : ∃ write, (∀ c ∈ calls notes, c.answer s = .ok (write c)) ∧
    report = ended s (filledLines s write notes)
  /-- So many of its lines were written as headers. -/
  header_lines : (layout s notes).countP isHeaderLine = headers
  /-- And so many as entries. -/
  entry_lines : (layout s notes).countP isEntryLine = entries
  /-- Where no hook writes the lines, each is ended with a line feed and
  no file breaks one, the text itself has so many lines that look so. -/
  plain : s.Plain → (∀ n ∈ notes, '\n' ∉ n.file.toList) →
    (Text.splitOn '\n' report.toList).countP looksLikeHeader = headers ∧
      (Text.splitOn '\n' report.toList).countP looksLikeEntry = entries

/-- **A report has a header line a group and an entry line a note.** -/
theorem tallies_of_render {s : Settings} {notes : List Note} {report : String}
    (h : render s notes = .ok report) (htext : ∀ n ∈ notes, '\n' ∉ n.text.toList) :
    Tallies s notes report (Group.byFile notes).length
      ((Group.byFile notes).map (·.notes.length)).sum where
  filled_in := by
    obtain ⟨write, hwrite⟩ := exists_write_of_render h
    refine ⟨write, hwrite, ?_⟩
    rw [render_of_answers hwrite] at h
    exact (Except.ok.inj h).symm
  header_lines := countP_isHeaderLine_layout s notes
  entry_lines := countP_isEntryLine_layout s notes
  plain hs hfile := by
    have hone : ∀ n ∈ notes, n.OneLine := fun n hn => ⟨hfile n hn, htext n hn⟩
    obtain ⟨report', hr, hlines⟩ := splitOn_report hs hone
    obtain rfl : report = report' := Except.ok.inj (h.symm.trans hr)
    rw [hlines, countP_lines (by decide) (by decide), countP_lines (by decide) (by decide)]
    constructor
    · simp [countP_looksLikeHeader_plainLines]
    · simp only [countP_looksLikeEntry_plainLines]

end Report

end Marginalia
