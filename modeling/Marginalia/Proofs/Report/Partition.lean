import Marginalia.Proofs.Report.Shelf

/-!
# Grouping parts the notes

Every note goes to one group, that of its file: the groups put together
are the notes in another order (`perm_flatMap_notes_byFile`), and no two
groups are of one file. Groups stand in the order of their first notes,
and the notes of a group in their own. Groups that are so are those that
grouping their notes gives back (`byFile_flatMap_notes`), which is why
grouping twice is grouping once.
-/

namespace Marginalia.Group

/-! ## Nothing is lost -/

/-- Inserting a note adds it, and nothing else. -/
theorem perm_flatMap_notes_insert (n : Note) (gs : List Group) :
    ((insert n gs).flatMap (·.notes)).Perm (n :: gs.flatMap (·.notes)) := by
  induction gs with
  | nil => exact .refl _
  | cons g gs ih =>
    rw [insert]
    split
    · rw [List.flatMap_cons, List.flatMap_cons, List.append_assoc]
      exact List.perm_middle
    · rw [List.flatMap_cons, List.flatMap_cons]
      exact (ih.append_left g.notes).trans List.perm_middle

/-- **The groups hold the notes**, each as often as it was there. -/
theorem perm_flatMap_notes_byFile (notes : List Note) :
    ((byFile notes).flatMap (·.notes)).Perm notes := by
  induction notes using List.reverseRecOn with
  | nil => exact .refl _
  | append_singleton notes n ih =>
    rw [byFile_concat]
    exact (perm_flatMap_notes_insert n _).trans
      ((ih.cons n).trans (List.perm_append_singleton n notes).symm)

/-- A file that has a group has a note in it. -/
theorem notes_ne_nil_of_mem_byFile {notes : List Note} {g : Group} (h : g ∈ byFile notes) :
    g.notes ≠ [] := by
  rw [byFile_eq, List.mem_map] at h
  obtain ⟨f, hf, rfl⟩ := h
  obtain ⟨n, hn, hfile⟩ := mem_files_iff.mp hf
  exact List.ne_nil_of_mem (List.mem_filter.mpr ⟨hn, by simpa using hfile⟩)

/-- The files of the groups. -/
theorem map_file_byFile (notes : List Note) : (byFile notes).map (·.file) = files notes := by
  rw [byFile_eq, List.map_map]
  exact List.map_id _

/-! ## The order of the groups -/

/-- A note at the end leaves the first note of a file that has one where
it is. -/
theorem findIdx_concat_of_mem {notes : List Note} {file : String} (h : file ∈ files notes)
    (n : Note) : (notes ++ [n]).findIdx (·.file = file) = notes.findIdx (·.file = file) := by
  obtain ⟨m, hm, hfile⟩ := mem_files_iff.mp h
  rw [List.findIdx_append, if_pos (List.findIdx_lt_length_of_exists ⟨m, hm, by simpa using hfile⟩)]

/-- **Files stand in the order of their first notes.** By induction on the
notes from the end: the last note comes after the first notes of all
files before it, and opens a new file or none. -/
theorem pairwise_files (notes : List Note) :
    (files notes).Pairwise fun f f' =>
      notes.findIdx (·.file = f) < notes.findIdx (·.file = f') := by
  induction notes using List.reverseRecOn with
  | nil => exact .nil
  | append_singleton notes n ih =>
    have hkept : (files notes).Pairwise fun f f' =>
        (notes ++ [n]).findIdx (·.file = f) < (notes ++ [n]).findIdx (·.file = f') := by
      refine ih.imp_of_mem fun {f f'} hf hf' hlt => ?_
      rw [findIdx_concat_of_mem hf, findIdx_concat_of_mem hf']
      exact hlt
    by_cases h : n.file ∈ files notes
    · rw [files_concat_of_mem h]
      exact hkept
    · rw [files_concat_of_not_mem h, List.pairwise_append]
      refine ⟨hkept, List.pairwise_singleton _ _, fun f hf f' hf' => ?_⟩
      obtain rfl := List.mem_singleton.mp hf'
      obtain ⟨m, hm, hfile⟩ := mem_files_iff.mp hf
      have hfirst : notes.findIdx (·.file = f) < notes.length :=
        List.findIdx_lt_length_of_exists ⟨m, hm, by simpa using hfile⟩
      have hnew : notes.findIdx (·.file = n.file) = notes.length := by
        refine List.findIdx_eq_length.mpr fun m hm => ?_
        simpa using fun he => h (mem_files_iff.mpr ⟨m, hm, he⟩)
      rw [findIdx_concat_of_mem hf, List.findIdx_append, hnew, if_neg (Nat.lt_irrefl _)]
      omega

/-! ## Grouping again -/

/-- The notes of one file are one group. -/
theorem byFile_of_one_file {notes : List Note} {file : String} (hne : notes ≠ [])
    (h : ∀ n ∈ notes, n.file = file) : byFile notes = [⟨file, notes⟩] := by
  induction notes using List.reverseRecOn with
  | nil => exact absurd rfl hne
  | append_singleton notes n ih =>
    have hn : n.file = file := h n (by simp)
    rw [byFile_concat]
    by_cases hnil : notes = []
    · rw [hnil, ← hn]
      rfl
    · rw [ih hnil fun m hm => h m (List.mem_append_left _ hm), insert, if_pos hn.symm]

/-- **Groups are found again in their notes**, if no two are of one file
and each has notes, all of its file. -/
theorem byFile_flatMap_notes {gs : List Group} (hfiles : (gs.map (·.file)).Nodup)
    (hgroups : ∀ g ∈ gs, g.notes ≠ [] ∧ ∀ n ∈ g.notes, n.file = g.file) :
    byFile (gs.flatMap (·.notes)) = gs := by
  induction gs with
  | nil => rfl
  | cons g gs ih =>
    obtain ⟨hnew, hfiles⟩ := List.nodup_cons.mp hfiles
    obtain ⟨⟨hne, hown⟩, hlater⟩ := List.forall_mem_cons.mp hgroups
    have hapart : ∀ m ∈ g.notes, ∀ n ∈ gs.flatMap (·.notes), m.file ≠ n.file := by
      intro m hm n hn he
      obtain ⟨g', hg', hn⟩ := List.mem_flatMap.mp hn
      refine hnew (List.mem_map.mpr ⟨g', hg', ?_⟩)
      rw [← (hlater g' hg').2 n hn, ← he, hown m hm]
    rw [List.flatMap_cons, byFile_append hapart, byFile_of_one_file hne hown, ih hfiles hlater]
    rfl

/-! ## Parted notes -/

/-- **What the groups of some notes are.** -/
structure Parted (notes : List Note) : Prop where
  /-- No two groups are of one file. -/
  nodup : ((byFile notes).map (·.file)).Nodup
  /-- There is a group for each file that has a note. -/
  mem_iff : ∀ file, file ∈ (byFile notes).map (·.file) ↔ ∃ n ∈ notes, n.file = file
  /-- Groups stand in the order in which their files first appear. -/
  ordered : ((byFile notes).map (·.file)).Pairwise fun f f' =>
    notes.findIdx (·.file = f) < notes.findIdx (·.file = f')
  /-- A group holds the notes of its file, in their order. -/
  notes_eq : ∀ g ∈ byFile notes, g.notes = notes.filter (·.file = g.file)
  /-- No group is empty. -/
  ne_nil : ∀ g ∈ byFile notes, g.notes ≠ []
  /-- All groups together hold the notes, no more and no fewer. -/
  perm : ((byFile notes).flatMap (·.notes)).Perm notes
  /-- Grouping the notes of the groups gives the groups again. -/
  again : byFile ((byFile notes).flatMap (·.notes)) = byFile notes
  /-- With a table of places one look-up a note gives the same groups, and
  no look-up leads out of them. -/
  shelved : (Shelf.ofNotes notes).groups.toList = byFile notes ∧
    ∀ (file : String) (i : Nat), (Shelf.ofNotes notes).place[file]? = some i →
      i < (Shelf.ofNotes notes).groups.size

/-- **Grouping parts the notes**, whatever they are. -/
theorem parted (notes : List Note) : Parted notes := by
  have hnodup : ((byFile notes).map (·.file)).Nodup := by
    rw [map_file_byFile]
    exact nodup_files notes
  refine
    { nodup := hnodup
      mem_iff := ?_
      ordered := ?_
      notes_eq := ?_
      ne_nil := fun g => notes_ne_nil_of_mem_byFile
      perm := perm_flatMap_notes_byFile notes
      again := ?_
      shelved := ⟨Shelf.toList_groups_ofNotes notes, fun file i => Shelf.lt_size_of_place⟩ }
  · intro file
    rw [map_file_byFile, mem_files_iff]
  · rw [map_file_byFile]
    exact pairwise_files notes
  · intro g hg
    rw [byFile_eq, List.mem_map] at hg
    obtain ⟨f, -, rfl⟩ := hg
    rfl
  · exact byFile_flatMap_notes hnodup fun g hg =>
      ⟨notes_ne_nil_of_mem_byFile hg, fun n hn => ((of_mem_byFile hg).2 n hn).2⟩

end Marginalia.Group
