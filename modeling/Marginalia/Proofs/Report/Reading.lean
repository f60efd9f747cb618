import Marginalia.Proofs.Comment.Mark
import Marginalia.Proofs.Comment.NoteText
import Marginalia.Proofs.Report.Render

/-!
# Reading a report back

Where no hook writes them, the lines of a report say all there is to say
about its groups. `read` takes a report apart: it is split at its line
feeds, a line with the sign of a header opens a group, and the lines up
to the next header are its entries. Empty lines are neither, so that the
padding need not be known; and whatever a path or a text looks like, the
sign in front of it says which of the two it is.

`read` undoes `render` (`read_render`), for notes that keep to one line.
-/

namespace Marginalia

/-- A note that keeps to one line. -/
def Note.OneLine (n : Note) : Prop :=
  '\n' ∉ n.file.toList ∧ '\n' ∉ n.text.toList

instance (n : Note) : Decidable n.OneLine :=
  inferInstanceAs (Decidable (_ ∧ _))

/-- Settings that leave the lines of a report to the defaults, and end
each with a line feed. -/
structure Settings.Plain (s : Settings) : Prop where
  newLine : s.newLine = "\n"
  noteHook : s.noteHook = none
  headerHook : s.headerHook = none

namespace Report

/-! ## The reader -/

/-- The file that a line is the header of. -/
def headerOf? (line : List Char) : Option String :=
  (Text.after? ['#', '#', '#', ' '] line).map String.ofList

/-- The note that a line is the entry of, in the given file. Where
nothing follows the place of a note its text is empty. -/
def entryOf? (file : String) (line : List Char) : Option Note := do
  let marked ← Text.after? ['-', ' '] line
  let (keyword, placed) ← Comment.keyword? marked
  let numbered ← Text.after? [' ', '(', 'l', 'i', 'n', 'e', ' '] placed
  let (digits, said) ← Text.cut? [')'] numbered
  return {
    keyword := keyword
    text := String.ofList ((Text.after? [':', ' '] said).getD [])
    file := file
    line := Nat.ofDigitChars 10 digits 0 }

/-- The entries up to the next header. -/
def readEntries (file : String) (lines : List (List Char)) : List Note :=
  (lines.takeWhile fun line => (headerOf? line).isNone).filterMap (entryOf? file)

/-- The groups that some lines hold. -/
def readGroups : List (List Char) → List Group
  | [] => []
  | line :: rest =>
    match headerOf? line with
    | some file => ⟨file, readEntries file rest⟩ :: readGroups rest
    | none => readGroups rest

/-- The groups of a report. -/
def read (report : String) : List Group :=
  readGroups (Text.splitOn '\n' report.toList)

/-! ## Single lines -/

theorem headerOf?_defaultHeader (h : Header) :
    headerOf? (defaultHeader h).toList = some h.file := by
  have hline : (defaultHeader h).toList = ['#', '#', '#', ' '] ++ h.file.toList := by
    simp [defaultHeader]
  rw [headerOf?, hline, Text.after?_append, Option.map_some, String.ofList_toList]

/-- What follows the place of a note in its entry. -/
def remark (n : Note) : List Char :=
  if n.text.isEmpty then [] else [':', ' '] ++ n.text.toList

/-- An entry, sign by sign. -/
theorem toList_defaultEntry (n : Note) :
    (defaultEntry n).toList =
      ['-', ' '] ++ (n.keyword.letters ++ ([' ', '(', 'l', 'i', 'n', 'e', ' '] ++
        (Nat.toDigits 10 n.line ++ [')'] ++ remark n))) := by
  have hplace : ("- " ++ n.keyword.name ++ " (line " ++ toString n.line ++ ")").toList =
      ['-', ' '] ++ (n.keyword.letters ++ ([' ', '(', 'l', 'i', 'n', 'e', ' '] ++
        (Nat.toDigits 10 n.line ++ [')']))) := by
    simp [Keyword.name]
  unfold defaultEntry remark
  split
  · rw [hplace, List.append_nil]
  · simp only [String.toList_append, hplace, List.append_assoc]
    rfl

theorem headerOf?_defaultEntry (n : Note) : headerOf? (defaultEntry n).toList = none := by
  rw [toList_defaultEntry]
  rfl

/-- A number has digits only. -/
theorem not_mem_toDigits {c : Char} (hc : c.isDigit = false) (n : Nat) :
    c ∉ Nat.toDigits 10 n := by
  intro h
  have := Nat.isDigit_of_mem_toDigits (by decide) (by decide) h
  simp [hc] at this

theorem text_of_remark (n : Note) :
    String.ofList ((Text.after? [':', ' '] (remark n)).getD []) = n.text := by
  unfold remark
  split
  · next h =>
    rw [String.isEmpty_iff.mp h]
    rfl
  · rw [Text.after?_append, Option.getD_some, String.ofList_toList]

/-- **An entry says all of its note but the file.** -/
theorem entryOf?_defaultEntry (file : String) (n : Note) :
    entryOf? file (defaultEntry n).toList = some { n with file := file } := by
  have hkeyword (s : List Char) :
      Comment.keyword? (n.keyword.letters ++ s) = some (n.keyword, s) :=
    Comment.keyword?_eq_some_iff.mpr rfl
  have hnumber : Text.cut? [')'] (Nat.toDigits 10 n.line ++ [')'] ++ remark n) =
      some (Nat.toDigits 10 n.line, remark n) :=
    Text.cut?_eq_some_iff.mpr
      ⟨rfl, Text.firstOccurrence_singleton (not_mem_toDigits (by decide) n.line) _⟩
  simp only [entryOf?, toList_defaultEntry, Text.after?_append, hkeyword, hnumber, text_of_remark,
    Nat.ofDigitChars_ten_toDigits, Option.bind_eq_bind, Option.bind_some, Option.pure_def]

/-! ## The lines of a group -/

/-- Lines without a header belong to the group before them. -/
theorem readEntries_append {lines : List (List Char)}
    (h : ∀ line ∈ lines, headerOf? line = none) (file : String) (rest : List (List Char)) :
    readEntries file (lines ++ rest) =
      lines.filterMap (entryOf? file) ++ readEntries file rest := by
  have hnone : ∀ line ∈ lines, (headerOf? line).isNone = true := by
    intro line hl
    rw [h line hl]
    rfl
  rw [readEntries, List.takeWhile_append_of_pos hnone, List.filterMap_append, readEntries]

/-- And open no group of their own. -/
theorem readGroups_append {lines : List (List Char)}
    (h : ∀ line ∈ lines, headerOf? line = none) (rest : List (List Char)) :
    readGroups (lines ++ rest) = readGroups rest := by
  induction lines with
  | nil => rfl
  | cons line lines ih =>
    rw [List.forall_mem_cons] at h
    rw [List.cons_append, readGroups, h.1]
    exact ih h.2

/-- The empty lines around a header. -/
def blankLines (s : Settings) : List (List Char) :=
  List.replicate s.padding []

/-- The entries of some notes. -/
def entries (notes : List Note) : List (List Char) :=
  notes.map fun n => (defaultEntry n).toList

/-- The lines of a group where no hook writes them. -/
def plainLines (s : Settings) (g : Group) : List (List Char) :=
  blankLines s ++ (defaultHeader g.header).toList :: (blankLines s ++ entries g.notes)

theorem headerOf?_of_mem_blankLines {s : Settings} {line : List Char}
    (h : line ∈ blankLines s) : headerOf? line = none := by
  rw [List.eq_of_mem_replicate h]
  rfl

theorem headerOf?_of_mem_entries {notes : List Note} {line : List Char}
    (h : line ∈ entries notes) : headerOf? line = none := by
  obtain ⟨n, -, rfl⟩ := List.mem_map.mp h
  exact headerOf?_defaultEntry n

theorem filterMap_blankLines (s : Settings) (file : String) :
    (blankLines s).filterMap (entryOf? file) = [] := by
  rw [List.filterMap_eq_nil_iff]
  intro line hl
  rw [List.eq_of_mem_replicate hl]
  rfl

theorem filterMap_entries {file : String} {notes : List Note}
    (h : ∀ n ∈ notes, n.file = file) : (entries notes).filterMap (entryOf? file) = notes := by
  induction notes with
  | nil => rfl
  | cons n notes ih =>
    rw [List.forall_mem_cons] at h
    have hn : { n with file := file } = n := by rw [← h.1]
    rw [entries, List.map_cons, List.filterMap_cons_some (entryOf?_defaultEntry file n), hn]
    exact congrArg (n :: ·) (ih h.2)

/-- Before the header of a group no entry stands. -/
theorem readEntries_plainLines (s : Settings) (g : Group) (file : String)
    (rest : List (List Char)) : readEntries file (plainLines s g ++ rest) = [] := by
  rw [plainLines, List.append_assoc,
    readEntries_append (fun _ => headerOf?_of_mem_blankLines), filterMap_blankLines,
    List.nil_append, List.cons_append, readEntries,
    List.takeWhile_cons_of_neg (by simp [headerOf?_defaultHeader])]
  rfl

/-- **The lines of a group are read as the group**, where no entry follows
that would be taken for one of its own. -/
theorem readGroups_plainLines {g : Group} {rest : List (List Char)}
    (hg : ∀ n ∈ g.notes, n.file = g.file) (hrest : readEntries g.file rest = [])
    (s : Settings) : readGroups (plainLines s g ++ rest) = g :: readGroups rest := by
  have hgroup : readEntries g.file (blankLines s ++ (entries g.notes ++ rest)) = g.notes := by
    rw [readEntries_append (fun _ => headerOf?_of_mem_blankLines), filterMap_blankLines,
      List.nil_append, readEntries_append (fun _ => headerOf?_of_mem_entries),
      filterMap_entries hg, hrest, List.append_nil]
  rw [plainLines, List.append_assoc, readGroups_append (fun _ => headerOf?_of_mem_blankLines),
    List.cons_append, List.append_assoc, readGroups, headerOf?_defaultHeader]
  simp only
  rw [readGroups_append (fun _ => headerOf?_of_mem_blankLines),
    readGroups_append (fun _ => headerOf?_of_mem_entries)]
  exact congrArg (· :: readGroups rest) (congrArg (Group.mk g.file) hgroup)

/-- The lines of all groups are read as the groups. By induction on the
groups: after the lines of one, the next header comes before any entry. -/
theorem readGroups_flatMap_plainLines (s : Settings) {groups : List Group}
    (hg : ∀ g ∈ groups, ∀ n ∈ g.notes, n.file = g.file) :
    readGroups (groups.flatMap (plainLines s) ++ [[]]) = groups := by
  induction groups with
  | nil => rfl
  | cons g groups ih =>
    rw [List.forall_mem_cons] at hg
    have hrest : readEntries g.file (groups.flatMap (plainLines s) ++ [[]]) = [] := by
      cases groups with
      | nil => rfl
      | cons next groups =>
        rw [List.flatMap_cons, List.append_assoc]
        exact readEntries_plainLines s next g.file _
    rw [List.flatMap_cons, List.append_assoc, readGroups_plainLines hg.1 hrest, ih hg.2]

/-! ## The whole report -/

/-- No line of a plain report is broken. -/
theorem not_mem_of_mem_plainLines {s : Settings} {g : Group} (hfile : '\n' ∉ g.file.toList)
    (hnotes : ∀ n ∈ g.notes, n.OneLine) {line : List Char} (h : line ∈ plainLines s g) :
    '\n' ∉ line := by
  have hblank : ∀ l ∈ blankLines s, '\n' ∉ l := by
    intro l hl
    rw [List.eq_of_mem_replicate hl]
    exact List.not_mem_nil
  simp only [plainLines, List.mem_append, List.mem_cons] at h
  rcases h with h | rfl | h | h
  · exact hblank line h
  · simpa [defaultHeader, Group.header] using hfile
  · exact hblank line h
  · obtain ⟨n, hn, rfl⟩ := List.mem_map.mp h
    have hdigits : '\n' ∉ Nat.toDigits 10 n.line := not_mem_toDigits (by decide) n.line
    have hletters : '\n' ∉ n.keyword.letters := by
      intro hmem
      exact absurd (Comment.isLineEnd_of_mem_letters hmem) (by decide)
    have hremark : '\n' ∉ remark n := by
      unfold remark
      split
      · exact List.not_mem_nil
      · simpa using (hnotes n hn).2
    rw [toList_defaultEntry]
    simp only [List.mem_append, not_or]
    exact ⟨by decide, hletters, by decide, ⟨hdigits, by decide⟩, hremark⟩

/-- Without hooks the lines of a group are plain. -/
theorem groupLines_of_plain {s : Settings} (hs : s.Plain) (g : Group) :
    groupLines s g = .ok ((plainLines s g).map String.ofList) := by
  have hentry : entryLine s = fun n => pure (defaultEntry n) := by
    funext n
    simp only [entryLine, hs.noteHook]
    rfl
  simp only [groupLines, headerLine, hs.headerHook, hentry, List.mapM_pure]
  simp [plainLines, blankLines, entries, Function.comp_def]

theorem toList_ended {s : Settings} (hs : s.newLine = "\n") (lines : List (List Char)) :
    (ended s (lines.map String.ofList)).toList = lines.flatMap (· ++ ['\n']) := by
  induction lines with
  | nil => rfl
  | cons line lines ih =>
    rw [List.map_cons, ended_cons, String.toList_append, String.toList_append,
      String.toList_ofList, ih, hs, List.flatMap_cons]
    rfl

/-- Without hooks nothing fails, and a report is its lines with a line
feed after each. -/
theorem render_of_plain {s : Settings} (hs : s.Plain) (notes : List Note) :
    ∃ report, render s notes = .ok report ∧
      report.toList =
        (title.toList :: (Group.byFile notes).flatMap (plainLines s)).flatMap (· ++ ['\n']) := by
  have hlines : groupLines s = fun g => pure ((plainLines s g).map String.ofList) := by
    funext g
    exact groupLines_of_plain hs g
  have hflat : ((Group.byFile notes).map fun g => (plainLines s g).map String.ofList).flatten =
      ((Group.byFile notes).flatMap (plainLines s)).map String.ofList := by
    rw [List.map_flatMap, List.flatMap_def]
  refine ⟨title ++ s.newLine ++ ended s (((Group.byFile notes).flatMap (plainLines s)).map
    String.ofList), ?_, ?_⟩
  · rw [render_eq, sections, hlines, List.mapM_pure, ← hflat]
    rfl
  · rw [String.toList_append, toList_ended hs.newLine, String.toList_append, hs.newLine,
      List.flatMap_cons]
    rfl

/-- A plain report is split into its lines again, with nothing after the
last line feed. -/
theorem splitOn_report {s : Settings} (hs : s.Plain) {notes : List Note}
    (h : ∀ n ∈ notes, n.OneLine) :
    ∃ report, render s notes = .ok report ∧
      Text.splitOn '\n' report.toList =
        title.toList :: (Group.byFile notes).flatMap (plainLines s) ++ [[]] := by
  obtain ⟨report, hr, hl⟩ := render_of_plain hs notes
  refine ⟨report, hr, ?_⟩
  have hone : ∀ line ∈ title.toList :: (Group.byFile notes).flatMap (plainLines s),
      '\n' ∉ line := by
    rw [List.forall_mem_cons]
    refine ⟨by decide, fun line hline => ?_⟩
    obtain ⟨g, hg, hline⟩ := List.mem_flatMap.mp hline
    obtain ⟨⟨n, hn, hfile⟩, hnotes⟩ := Group.of_mem_byFile hg
    refine not_mem_of_mem_plainLines ?_ (fun m hm => h m (hnotes m hm).1) hline
    rw [← hfile]
    exact (h n hn).1
  rw [hl, Text.splitOn_flatMap_concat hone]

/-- **A report is read back.** -/
theorem read_render {s : Settings} (hs : s.Plain) {notes : List Note}
    (h : ∀ n ∈ notes, n.OneLine) :
    ∃ report, render s notes = .ok report ∧ read report = Group.byFile notes := by
  obtain ⟨report, hr, hlines⟩ := splitOn_report hs h
  refine ⟨report, hr, ?_⟩
  rw [read, hlines, List.cons_append, readGroups]
  exact readGroups_flatMap_plainLines s fun g hg n hn => ((Group.of_mem_byFile hg).2 n hn).2

/-- **The groups are read off a report.** Where no hook writes its lines
and each is ended by a line feed, rendering never fails and its report is
read back, whatever the padding. So notes with the same report have the
same groups. The notes have to keep to one line; those that are extracted
do so in their texts. -/
theorem groups_eq_of_render_eq {s : Settings} (hs : s.Plain) :
    (∀ notes : List Note, (∀ n ∈ notes, n.OneLine) →
      ∃ report, render s notes = .ok report ∧ read report = Group.byFile notes) ∧
    (∀ a b : List Note, (∀ n ∈ a, n.OneLine) → (∀ n ∈ b, n.OneLine) →
      render s a = render s b → Group.byFile a = Group.byFile b) ∧
    ∀ g file content, ∀ n ∈ extract g file content, '\n' ∉ n.text.toList := by
  refine ⟨fun notes => read_render hs, ?_, fun g file content n => not_mem_text_of_mem_extract⟩
  intro a b ha hb h
  obtain ⟨ra, hra, hreada⟩ := read_render hs ha
  obtain ⟨rb, hrb, hreadb⟩ := read_render hs hb
  have hsame : ra = rb := by
    rw [hra, hrb] at h
    exact Except.ok.inj h
  rw [← hreada, ← hreadb, hsame]

/-- Two batches in different orders with one report, and the same groups:
a text that looks like a header, one that looks like an entry, and one
that is empty. -/
theorem groups_eq_of_render_eq_interleaved :
    let one : Note := ⟨.todo, "### a.js", "z.js", 1⟩
    let two : Note := ⟨.fixme, "- TODO (line 3): no", "a.js", 12⟩
    let three : Note := ⟨.todo, "", "z.js", 7⟩
    Settings.Plain { padding := 0 } ∧
      render { padding := 0 } [one, two, three] = render { padding := 0 } [one, three, two] ∧
      Group.byFile [one, two, three] = Group.byFile [one, three, two] := by
  intro one two three
  have hs : Settings.Plain { padding := 0 } := ⟨rfl, rfl, rfl⟩
  have hsame : render { padding := 0 } [one, two, three] =
      render { padding := 0 } [one, three, two] := rfl
  exact ⟨hs, hsame, (groups_eq_of_render_eq hs).2.1 _ _ (by decide) (by decide) hsame⟩

end Report

end Marginalia
