import Marginalia.Proofs.Run.Move

/-!
# What a batch gives

A batch is answered from its files alone: from the first of them with a
fault, or else from the notes of all and the base of the first that was
read. `Run.take` is the step of the loop, so that the run before the end
of a batch is a fold over the files; `notes_foldl_take` and
`firstBase_foldl_take` say what the fold has gathered.

The two reasons for giving nothing, no base and no note, cannot
disagree: a note comes from a file that was read.
-/

namespace Marginalia

namespace SourceFile

/-- A batch with a note has a file that was read. -/
theorem exists_base_of_flatMap_ne_nil {files : List SourceFile}
    (h : files.flatMap extracted ≠ []) : ∃ base, files.findSome? base? = some base := by
  -- the file that a note comes from
  obtain ⟨n, hn⟩ := List.exists_mem_of_ne_nil _ h
  obtain ⟨f, hf, hnf⟩ := List.mem_flatMap.mp hn
  have hb : f.base?.isSome = true := base?_isSome_of_extracted_ne_nil (List.ne_nil_of_mem hnf)
  exact Option.isSome_iff_exists.mp (List.findSome?_isSome_iff.mpr ⟨f, hf, hb⟩)

/-- Whether a file is more than a placeholder. -/
def isReal (f : SourceFile) : Bool :=
  decide (f.content ≠ .placeholder)

/-- A placeholder brings no fault, no base and no note. -/
theorem of_not_isReal {f : SourceFile} (h : f.isReal = false) :
    f.fault? = none ∧ f.base? = none ∧ f.extracted = [] := by
  have hc : f.content = .placeholder := by simpa [isReal] using h
  simp [fault?, base?, extracted, hc]

/-- Placeholders are not among the files that a search finds. -/
theorem findSome?_filter_isReal {β : Type} (files : List SourceFile) {p : SourceFile → Option β}
    (hp : ∀ f, f.isReal = false → p f = none) :
    (files.filter isReal).findSome? p = files.findSome? p := by
  induction files with
  | nil => rfl
  | cons f rest ih =>
    by_cases h : f.isReal = true
    · rw [List.filter_cons_of_pos h, List.findSome?_cons, List.findSome?_cons, ih]
    · rw [List.filter_cons_of_neg h, List.findSome?_cons, ih, hp f (by simpa using h)]

/-- Placeholders add no note. -/
theorem flatMap_filter_isReal (files : List SourceFile) :
    (files.filter isReal).flatMap extracted = files.flatMap extracted := by
  induction files with
  | nil => rfl
  | cons f rest ih =>
    by_cases h : f.isReal = true
    · rw [List.filter_cons_of_pos h, List.flatMap_cons, List.flatMap_cons, ih]
    · rw [List.filter_cons_of_neg h, List.flatMap_cons, ih,
        (of_not_isReal (by simpa using h)).2.2, List.nil_append]

end SourceFile

namespace Run

/-! ## The fold over the files -/

theorem settings_foldl_take (r : Run) (files : List SourceFile) :
    (files.foldl take r).settings = r.settings := by
  induction files generalizing r with
  | nil => rfl
  | cons f rest ih => rw [List.foldl_cons, ih, take_settings]

theorem isOpen_foldl_take {r : Run} (files : List SourceFile) (ho : r.stage.isOpen = true) :
    (files.foldl take r).stage.isOpen = true := by
  induction files generalizing r with
  | nil => exact ho
  | cons f rest ih => exact ih rfl

/-- The notes of a run are those of its files, in their order. -/
theorem notes_foldl_take (r : Run) (files : List SourceFile) :
    (files.foldl take r).notes = r.notes ++ files.flatMap SourceFile.extracted := by
  induction files generalizing r with
  | nil => simp
  | cons f rest ih => rw [List.foldl_cons, ih, take_notes, List.flatMap_cons, List.append_assoc]

/-- The base of a run is that of its first file that was read, with a
note or without. -/
theorem firstBase_foldl_take (r : Run) (files : List SourceFile) :
    (files.foldl take r).firstBase = r.firstBase.or (files.findSome? SourceFile.base?) := by
  induction files generalizing r with
  | nil => simp
  | cons f rest ih =>
    rw [List.foldl_cons, ih, take_firstBase, List.findSome?_cons, Option.or_assoc]
    cases f.base? <;> rfl

/-! ## The loop -/

/-- **The loop ends at the first file with a fault**, with its error. -/
theorem submitAll_of_fault {r : Run} {files : List SourceFile} {e : Error}
    (ho : r.stage.isOpen = true) (h : files.findSome? SourceFile.fault? = some e) :
    (r.submitAll files).result = .error e := by
  induction files generalizing r with
  | nil => simp at h
  | cons f rest ih =>
    unfold submitAll
    cases hf : f.fault? with
    | some e' =>
      have he : e' = e := by simpa [List.findSome?_cons, hf] using h
      simp only [submit_of_fault ho hf, he]
    | none =>
      have hr : rest.findSome? SourceFile.fault? = some e := by
        simpa [List.findSome?_cons, hf] using h
      simp only [submit_of_no_fault ho hf]
      exact ih rfl hr

/-- **Without a fault the loop takes every file in.** -/
theorem submitAll_of_no_fault {r : Run} {files : List SourceFile}
    (ho : r.stage.isOpen = true) (h : files.findSome? SourceFile.fault? = none) :
    (r.submitAll files).result = .ok () ∧ (r.submitAll files).run = files.foldl take r := by
  induction files generalizing r with
  | nil => exact ⟨rfl, rfl⟩
  | cons f rest ih =>
    have hf : f.fault? = none := List.findSome?_eq_none_iff.mp h f (by simp)
    have hr : rest.findSome? SourceFile.fault? = none := by
      simpa [List.findSome?_cons, hf] using h
    unfold submitAll
    simp only [submit_of_no_fault ho hf]
    exact ih rfl hr

/-- After a file that is accepted the loop goes on. -/
theorem submitAll_cons_of_ok {r : Run} {f : SourceFile} (h : (r.submit f).result = .ok ())
    (rest : List SourceFile) :
    r.submitAll (f :: rest) =
      { (r.submit f).run.submitAll rest with
        events := (r.submit f).events ++ ((r.submit f).run.submitAll rest).events } := by
  simp only [submitAll, h]

theorem submitAll_cons_of_error {r : Run} {f : SourceFile} {e : Error}
    (h : (r.submit f).result = .error e) (rest : List SourceFile) :
    r.submitAll (f :: rest) = r.submit f := by
  simp only [submitAll, h]

/-- After files that are all accepted the loop goes on with the others. -/
theorem submitAll_append_of_ok {r : Run} {files : List SourceFile}
    (h : (r.submitAll files).result = .ok ()) (rest : List SourceFile) :
    r.submitAll (files ++ rest) =
      { (r.submitAll files).run.submitAll rest with
        events := (r.submitAll files).events ++ ((r.submitAll files).run.submitAll rest).events } := by
  induction files generalizing r with
  | nil => rfl
  | cons f files ih =>
    cases hf : (r.submit f).result with
    | error e =>
      rw [submitAll_cons_of_error hf, hf] at h
      simp at h
    | ok =>
      rw [submitAll_cons_of_ok hf] at h ⊢
      rw [List.cons_append, submitAll_cons_of_ok hf, ih h]
      simp only [List.append_assoc]

/-! ## The end -/

/-- The run of a batch without a fault, before its end. -/
def gathered (s : Settings) (files : List SourceFile) : Run :=
  files.foldl take { settings := s }

@[simp] theorem gathered_settings (s : Settings) (files : List SourceFile) :
    (gathered s files).settings = s :=
  settings_foldl_take _ files

@[simp] theorem gathered_notes (s : Settings) (files : List SourceFile) :
    (gathered s files).notes = files.flatMap SourceFile.extracted :=
  notes_foldl_take _ files

@[simp] theorem gathered_firstBase (s : Settings) (files : List SourceFile) :
    (gathered s files).firstBase = files.findSome? SourceFile.base? := by
  simp [gathered, firstBase_foldl_take]

/-- A batch with a fault gives the error of the first. -/
theorem batch_of_fault {files : List SourceFile} {e : Error} (s : Settings)
    (h : files.findSome? SourceFile.fault? = some e) : (batch s files).result = .error e := by
  have hr := submitAll_of_fault (r := { settings := s }) rfl h
  simp only [batch, hr]

/-- A batch without a fault gives what ending its run gives. -/
theorem batch_of_no_fault {files : List SourceFile} (s : Settings)
    (h : files.findSome? SourceFile.fault? = none) :
    (batch s files).result = (conclude { gathered s files with stage := .finalizing }).result := by
  obtain ⟨hr, hrun⟩ := submitAll_of_no_fault (r := { settings := s }) rfl h
  have ho : (gathered s files).stage.isOpen = true := isOpen_foldl_take files rfl
  simp only [batch, hr, hrun]
  change (gathered s files).finish.result = _
  rw [finish, if_pos ho]

/-- A batch without a note gives no report. -/
theorem batch_of_no_note {files : List SourceFile} (s : Settings)
    (hf : files.findSome? SourceFile.fault? = none)
    (hn : files.flatMap SourceFile.extracted = []) : (batch s files).result = .ok none := by
  have hr : ¬ ∃ base, (gathered s files).Reportable base := by
    rintro ⟨base, -, hne⟩
    exact hne (by rw [gathered_notes, hn])
  rw [batch_of_no_fault s hf, conclude_of_not_reportable _ hr]

/-- A batch with a note gives what rendering its notes gives, at the base
of the first file that was read. -/
theorem batch_of_note {files : List SourceFile} {base : Path} (s : Settings)
    (hf : files.findSome? SourceFile.fault? = none)
    (hn : files.flatMap SourceFile.extracted ≠ [])
    (hb : files.findSome? SourceFile.base? = some base) :
    (batch s files).result =
      (Report.render s (files.flatMap SourceFile.extracted)).map
        fun contents => some ⟨base, ⟨s.fileName⟩, contents⟩ := by
  have hr : (gathered s files).Reportable base := by
    refine ⟨?_, ?_⟩
    · rw [gathered_firstBase, hb]
    · rw [gathered_notes]
      exact hn
  rw [batch_of_no_fault s hf, conclude_of_reportable _ hr, gathered_settings, gathered_notes]
  cases Report.render s (files.flatMap SourceFile.extracted) <;> rfl

/-- Leaving the placeholders out gives the same. -/
theorem batch_filter_isReal (s : Settings) (files : List SourceFile) :
    (batch s (files.filter SourceFile.isReal)).result = (batch s files).result := by
  have hfault := SourceFile.findSome?_filter_isReal files
    (fun f h => (SourceFile.of_not_isReal h).1)
  have hbase := SourceFile.findSome?_filter_isReal files
    (fun f h => (SourceFile.of_not_isReal h).2.1)
  have hnotes := SourceFile.flatMap_filter_isReal files
  cases hf : files.findSome? SourceFile.fault? with
  | some e => rw [batch_of_fault s hf, batch_of_fault s (hfault.trans hf)]
  | none =>
    by_cases hn : files.flatMap SourceFile.extracted = []
    · rw [batch_of_no_note s hf hn, batch_of_no_note s (hfault.trans hf) (hnotes.trans hn)]
    · obtain ⟨base, hb⟩ := SourceFile.exists_base_of_flatMap_ne_nil hn
      rw [batch_of_note s hf hn hb,
        batch_of_note s (hfault.trans hf) (hnotes ▸ hn) (hbase.trans hb), hnotes]

/-- **A batch is answered from its files alone.** The first file with a
fault gives its error, whatever stands before and after it. Without one,
no note gives no report, and else the report is what rendering all notes
in order gives, at the base of the first file that was read. Placeholders
change nothing of this. -/
theorem batch_result (s : Settings) (files : List SourceFile) :
    (∀ e, files.findSome? SourceFile.fault? = some e → (batch s files).result = .error e) ∧
    (files.findSome? SourceFile.fault? = none →
      (files.flatMap SourceFile.extracted = [] → (batch s files).result = .ok none) ∧
      (files.flatMap SourceFile.extracted ≠ [] →
        ∃ base, files.findSome? SourceFile.base? = some base ∧
          (batch s files).result =
            (Report.render s (files.flatMap SourceFile.extracted)).map
              fun contents => some ⟨base, ⟨s.fileName⟩, contents⟩)) ∧
    (batch s (files.filter SourceFile.isReal)).result = (batch s files).result := by
  refine ⟨fun e => batch_of_fault s, fun hf => ⟨batch_of_no_note s hf, fun hn => ?_⟩, ?_⟩
  · obtain ⟨base, hb⟩ := SourceFile.exists_base_of_flatMap_ne_nil hn
    exact ⟨base, hb, batch_of_note s hf hn hb⟩
  · exact batch_filter_isReal s files

end Run

end Marginalia
