import Marginalia.Proofs.Report.Tally
import Marginalia.Proofs.Run.Verbose

/-!
# What a run announces of its report

The end of a batch tells how many files and notes it reports, as its
collection counts them, and returns the report. The counts are right:
they are those of the groups that the report is laid out from, so that
the report has a header line for each file and an entry line for each
note (`announced`).
-/

namespace Marginalia

/-- The notes of a file keep to one line in what they say. -/
theorem SourceFile.not_mem_text_of_mem_extracted {f : SourceFile} {n : Note}
    (h : n ∈ f.extracted) : '\n' ∉ n.text.toList := by
  unfold extracted at h
  split at h
  · split at h
    · simp at h
    · exact not_mem_text_of_mem_extract h
  · simp at h
  · simp at h

namespace Run

section Moves

variable {r : Run} {c : Call} {st : Step (Option Artifact)}

/-- What a call gains are notes of a file. -/
theorem not_mem_text_of_mem_gained {n : Note} (h : n ∈ c.gained st) : '\n' ∉ n.text.toList := by
  cases c with
  | submit f =>
    rw [Call.gained] at h
    split at h
    · exact SourceFile.not_mem_text_of_mem_extracted h
    · simp at h
  | finish => simp [Call.gained] at h

/-- **An announced report is rendered**, from the notes that are counted. -/
theorem Move.of_rendered {files notes : Nat} (h : r.Move c st)
    (he : .rendered files notes ∈ st.events) :
    ∃ artifact, st.artifact? = some artifact ∧
      Report.render r.settings r.notes = .ok artifact.contents ∧ st.run.notes = r.notes ∧
      files = r.collected.fileCount ∧ notes = r.collected.size := by
  cases h with
  | closed | fault | nothing | refused => simp at he
  | @accepted f ho hf =>
    exact absurd (SourceFile.not_isEnd_of_mem_heard he) (by simp [Event.isEnd])
  | @reported base contents ho hr hc =>
    obtain ⟨rfl, rfl⟩ := Event.rendered.inj (List.mem_singleton.mp he)
    exact ⟨_, rfl, hc, rfl, rfl, rfl⟩

end Moves

/-- No text of a run breaks a line, whatever is called. -/
theorem not_mem_text_after (s : Settings) (cs : List Call) :
    ∀ n ∈ (after { settings := s } cs).notes, '\n' ∉ n.text.toList := by
  refine after_induction (P := fun r => ∀ n ∈ r.notes, '\n' ∉ n.text.toList)
    (fun r c hr n hn => ?_) (by simp [notes]) cs
  rw [(move_call r c).notes_eq, List.mem_append] at hn
  exact hn.elim (hr n) not_mem_text_of_mem_gained

/-- What is announced of a report is what it has. -/
theorem tallies_of_rendered {s : Settings} {cs : List Call} {a : Call × Step (Option Artifact)}
    (ha : a ∈ answers { settings := s } cs) {files notes : Nat}
    (he : .rendered files notes ∈ a.2.events) :
    ∃ artifact, a.2.artifact? = some artifact ∧
      Report.Tallies s a.2.run.notes artifact.contents files notes := by
  obtain ⟨before, -, -, hb⟩ := mem_answers_iff.mp ha
  have hmove := move_call (after { settings := s } before) a.1
  rw [← hb] at hmove
  obtain ⟨artifact, hart, hrender, hnotes, rfl, rfl⟩ := hmove.of_rendered he
  rw [settings_after] at hrender
  refine ⟨artifact, hart, ?_⟩
  rw [hnotes, Collection.fileCount_eq, Collection.size_eq]
  exact Report.tallies_of_render hrender (not_mem_text_after s before)

/-- **What is announced is what is reported.** However a collection was
put together, it counts as many files as there are groups of its notes,
and as many notes as there are in them; and whatever is called on a run,
a report that is announced is returned, with a header line for each file
and an entry line for each note of the announcement. -/
theorem announced :
    (∀ batches : List (List Note),
      let c : Collection := batches.foldl Collection.append {}
      c.notes = batches.flatten ∧
        c.fileCount = (Group.byFile c.notes).length ∧
        c.fileCount = Collection.countFirst ∅ c.notes ∧
        c.size = ((Group.byFile c.notes).map (·.notes.length)).sum) ∧
    ∀ (s : Settings) (cs : List Call), ∀ a ∈ answers { settings := s } cs,
      ∀ files notes, .rendered files notes ∈ a.2.events →
        ∃ artifact, a.2.artifact? = some artifact ∧
          Report.Tallies s a.2.run.notes artifact.contents files notes := by
  constructor
  · intro batches c
    exact ⟨Collection.notes_foldl_append batches, c.fileCount_eq, c.fileCount_eq_countFirst,
      c.size_eq⟩
  · intro s cs a ha files notes he
    exact tallies_of_rendered ha he

/-- A file that comes back after another one counts once. -/
theorem announced_interleaved :
    let file (name content : String) : SourceFile :=
      ⟨⟨""⟩, ⟨name⟩, .buffered content.toUTF8.data.toList⟩
    let files : List Call :=
      [.submit (file "b.vue" "//TODO"), .submit (file "a.yml" "#FIXME"),
        .submit (file "b.vue" "//TODO")]
    ∃ a ∈ answers { settings := { padding := 0 } } (files ++ [.finish]),
      .rendered 2 3 ∈ a.2.events ∧
        ∃ artifact, a.2.artifact? = some artifact ∧
          Report.Tallies { padding := 0 } a.2.run.notes artifact.contents 2 3 := by
  intro file files
  have hlast : (.finish, (after { settings := { padding := 0 } } files).call .finish) ∈
      answers { settings := { padding := 0 } } (files ++ [.finish]) :=
    mem_answers_iff.mpr ⟨files, [], rfl, by with_reducible rfl⟩
  have he : .rendered 2 3 ∈
      ((after { settings := { padding := 0 } } files).call .finish).events := by
    decide +kernel
  exact ⟨_, hlast, he, announced.2 _ _ _ hlast 2 3 he⟩

end Run

end Marginalia
