import Marginalia.Report.Group
import Mathlib.Data.List.Induction

/-!
# What the groups are

The groups of some notes, said without the loop that inserts them one by
one: `files` are the files in the order in which they first appear, and
the group of a file is what a filter leaves of the notes (`byFile_eq`).
That the notes of two batches without a file in common are grouped apart
(`byFile_append`) is read off it.
-/

namespace Marginalia.Group

/-- The files of some notes, in the order in which they first appear. -/
def files (notes : List Note) : List String :=
  (notes.map (·.file)).eraseDups

/-- The group of one file among some notes. -/
def ofFile (notes : List Note) (file : String) : Group :=
  ⟨file, notes.filter (·.file = file)⟩

theorem mem_files_iff {notes : List Note} {file : String} :
    file ∈ files notes ↔ ∃ n ∈ notes, n.file = file := by
  rw [files, List.mem_eraseDups, List.mem_map]

/-! ## One more note -/

/-- A note of another file does not change a group. -/
theorem ofFile_concat_of_ne {n : Note} {file : String} (h : n.file ≠ file) (notes : List Note) :
    ofFile (notes ++ [n]) file = ofFile notes file := by
  simp [ofFile, h]

/-- A note of the file is the last of its group. -/
theorem ofFile_concat_self (n : Note) (notes : List Note) :
    ofFile (notes ++ [n]) n.file = ⟨n.file, (ofFile notes n.file).notes ++ [n]⟩ := by
  simp [ofFile]

theorem files_concat_of_mem {n : Note} {notes : List Note} (h : n.file ∈ files notes) :
    files (notes ++ [n]) = files notes := by
  rw [files, List.mem_eraseDups] at h
  rw [files, List.map_append, List.eraseDups_append, List.removeAll, List.map_singleton,
    List.filter_cons_of_neg (by simpa using h), files]
  simp

theorem files_concat_of_not_mem {n : Note} {notes : List Note} (h : n.file ∉ files notes) :
    files (notes ++ [n]) = files notes ++ [n.file] := by
  rw [files, List.mem_eraseDups] at h
  rw [files, List.map_append, List.eraseDups_append, List.removeAll, List.map_singleton,
    List.filter_cons_of_pos (by simpa using h), files]
  rfl

/-- No file is named twice. -/
theorem nodup_files (notes : List Note) : (files notes).Nodup := by
  induction notes using List.reverseRecOn with
  | nil => simp [files]
  | append_singleton notes n ih =>
    by_cases h : n.file ∈ files notes
    · rw [files_concat_of_mem h]
      exact ih
    · rw [files_concat_of_not_mem h]
      refine List.nodup_append.mpr ⟨ih, by simp, ?_⟩
      rintro f hf f' hf' rfl
      rw [List.mem_singleton.mp hf'] at hf
      exact h hf

/-- Groups of other files stay as they are. -/
theorem map_ofFile_concat {n : Note} {fs : List String} (h : n.file ∉ fs) (notes : List Note) :
    fs.map (ofFile (notes ++ [n])) = fs.map (ofFile notes) := by
  refine List.map_congr_left fun f hf => ofFile_concat_of_ne ?_ notes
  rintro rfl
  exact h hf

/-- **Where a note is inserted**: at the end of its file's group, or in a
group of its own after all others. -/
theorem insert_map_ofFile (n : Note) (notes : List Note) {fs : List String} (hfs : fs.Nodup) :
    insert n (fs.map (ofFile notes)) =
      if n.file ∈ fs then fs.map (ofFile (notes ++ [n]))
      else fs.map (ofFile notes) ++ [⟨n.file, [n]⟩] := by
  induction fs with
  | nil => rfl
  | cons f fs ih =>
    obtain ⟨hf, hfs⟩ := List.nodup_cons.mp hfs
    rw [List.map_cons, insert]
    by_cases he : f = n.file
    · subst he
      have hself : (ofFile notes n.file).file = n.file := rfl
      rw [if_pos hself, if_pos List.mem_cons_self, List.map_cons, ofFile_concat_self,
        map_ofFile_concat hf, hself]
    · have hne : ¬ (ofFile notes f).file = n.file := he
      have hmem : n.file ∈ f :: fs ↔ n.file ∈ fs := by
        rw [List.mem_cons, or_iff_right (Ne.symm he)]
      rw [if_neg hne, ih hfs, List.map_cons, ofFile_concat_of_ne (Ne.symm he)]
      simp only [hmem]
      split <;> rfl

/-! ## All notes -/

/-- The last note is inserted last. -/
theorem byFile_concat (notes : List Note) (n : Note) :
    byFile (notes ++ [n]) = insert n (byFile notes) := by
  rw [byFile, List.foldl_append]
  rfl

/-- **The groups are the files with their notes.** By induction on the
notes from the end. -/
theorem byFile_eq (notes : List Note) : byFile notes = (files notes).map (ofFile notes) := by
  induction notes using List.reverseRecOn with
  | nil => rfl
  | append_singleton notes n ih =>
    rw [byFile_concat, ih, insert_map_ofFile n notes (nodup_files notes)]
    by_cases h : n.file ∈ files notes
    · rw [if_pos h, files_concat_of_mem h]
    · -- the file is new: no note before is of it
      have hnone : (ofFile notes n.file).notes = [] := by
        simp only [ofFile, List.filter_eq_nil_iff, decide_eq_true_eq]
        exact fun m hm he => h (mem_files_iff.mpr ⟨m, hm, he⟩)
      rw [if_neg h, files_concat_of_not_mem h, List.map_append, map_ofFile_concat h,
        List.map_singleton, ofFile_concat_self, hnone, List.nil_append]

/-- A group is of a file that has a note, and holds notes of that file. -/
theorem of_mem_byFile {notes : List Note} {g : Group} (h : g ∈ byFile notes) :
    (∃ n ∈ notes, n.file = g.file) ∧ ∀ n ∈ g.notes, n ∈ notes ∧ n.file = g.file := by
  rw [byFile_eq, List.mem_map] at h
  obtain ⟨f, hf, rfl⟩ := h
  refine ⟨mem_files_iff.mp hf, fun n hn => ?_⟩
  simpa [ofFile] using hn

/-- **Batches without a file in common are grouped apart.** -/
theorem byFile_append {a b : List Note} (h : ∀ m ∈ a, ∀ n ∈ b, m.file ≠ n.file) :
    byFile (a ++ b) = byFile a ++ byFile b := by
  have hkeep : (b.map (·.file)).removeAll (a.map (·.file)) = b.map (·.file) := by
    rw [List.removeAll, List.filter_eq_self]
    intro f hf
    obtain ⟨n, hn, rfl⟩ := List.mem_map.mp hf
    simpa using fun m hm => h m hm n hn
  have hfiles : files (a ++ b) = files a ++ files b := by
    rw [files, List.map_append, List.eraseDups_append, hkeep, files, files]
  -- the filter of a file of one batch leaves nothing of the other
  have hleft : ∀ f ∈ files a, ofFile (a ++ b) f = ofFile a f := by
    intro f hf
    obtain ⟨m, hm, rfl⟩ := mem_files_iff.mp hf
    simpa [ofFile, List.filter_eq_nil_iff] using fun n hn he => h m hm n hn he.symm
  have hright : ∀ f ∈ files b, ofFile (a ++ b) f = ofFile b f := by
    intro f hf
    obtain ⟨n, hn, rfl⟩ := mem_files_iff.mp hf
    simpa [ofFile, List.filter_eq_nil_iff] using fun m hm => h m hm n hn
  rw [byFile_eq, hfiles, List.map_append, List.map_congr_left hleft, List.map_congr_left hright,
    ← byFile_eq, ← byFile_eq]

end Marginalia.Group
