import Marginalia.Run

/-!
# What a call does to a run

A run is only ever changed by submitting a file and by ending the batch.
`Move` says once what such a call can do, by what the file holds, by
whether the run is open, and by what rendering answers; `move_call` says
that a call does one of these. Everything else about runs is read off
the moves.
-/

namespace Marginalia

/-! ## What a file brings -/

namespace SourceFile

/-- The error that a file ends a run with: its content is still arriving,
or no grammar is known for its extension. -/
def fault? (f : SourceFile) : Option Error :=
  match f.content with
  | .streamed => some (.streamingNotSupported f.path.spelling)
  | .buffered _ =>
    match Registry.builtin.resolve f.path.extension with
    | none => some (.unsupportedExtension f.path.spelling f.path.extension)
    | some _ => none
  | .placeholder => none

/-- The base of a file whose bytes are there. -/
def base? (f : SourceFile) : Option Path :=
  match f.content with
  | .buffered _ => some f.base
  | .streamed | .placeholder => none

/-- The notes of a file: those of its text, read with the grammar of its
extension. -/
def extracted (f : SourceFile) : List Note :=
  match f.content with
  | .buffered bytes =>
    match Registry.builtin.resolve f.path.extension with
    | none => []
    | some g => extract g f.shown (Utf8.decodeLossy bytes)
  | .streamed | .placeholder => []

/-- What is heard when a file is taken in. -/
def heard (f : SourceFile) (s : Settings) : List Event :=
  match f.content with
  | .placeholder => [.skipped f.path.spelling]
  | .buffered _ => Run.announce s f.extracted
  | .streamed => []

/-- Only a file with a base has notes. -/
theorem base?_isSome_of_extracted_ne_nil {f : SourceFile} (h : f.extracted ≠ []) :
    f.base?.isSome = true := by
  unfold extracted at h
  unfold base?
  cases hc : f.content with
  | buffered bytes => rfl
  | streamed | placeholder => simp [hc] at h

end SourceFile

/-! ## Calls -/

/-- What can be asked of a run. -/
inductive Call where
  | submit (file : SourceFile)
  | finish

namespace Run

/-- A call on a run. A submission that is accepted gives no artifact. -/
def call (r : Run) : Call → Step (Option Artifact)
  | .submit f =>
    { run := (r.submit f).run
      result := (r.submit f).result.map fun _ => none
      events := (r.submit f).events }
  | .finish => r.finish

/-- The run after a file was taken in. -/
def take (r : Run) (f : SourceFile) : Run :=
  { r with
    stage := .collecting
    firstBase := r.firstBase.or f.base?
    collected := r.collected.append f.extracted }

@[simp] theorem take_settings (r : Run) (f : SourceFile) : (r.take f).settings = r.settings := rfl

@[simp] theorem take_stage (r : Run) (f : SourceFile) : (r.take f).stage = .collecting := rfl

@[simp] theorem take_firstBase (r : Run) (f : SourceFile) :
    (r.take f).firstBase = r.firstBase.or f.base? := rfl

@[simp] theorem take_notes (r : Run) (f : SourceFile) :
    (r.take f).notes = r.notes ++ f.extracted := rfl

/-- A file with a fault is refused and leaves the run as it is. -/
theorem accept_of_fault {f : SourceFile} {e : Error} (r : Run) (hf : f.fault? = some e) :
    r.accept f = { run := r, result := .error e } := by
  unfold SourceFile.fault? at hf
  unfold accept
  cases hc : f.content with
  | placeholder => simp [hc] at hf
  | streamed =>
    simp only [hc, Option.some.injEq] at hf
    simp only [hf]
  | buffered bytes =>
    cases hg : Registry.builtin.resolve f.path.extension with
    | none =>
      simp only [hc, hg, Option.some.injEq] at hf
      simp only [hg, hf]
    | some g => simp [hc, hg] at hf

/-- A file without a fault is taken in. A placeholder brings neither a
base nor a note, so that taking it in is passing it over. -/
theorem accept_of_no_fault {f : SourceFile} (r : Run) (hf : f.fault? = none) :
    accept { r with stage := .collecting } f =
      { run := r.take f, result := .ok (), events := f.heard r.settings } := by
  unfold SourceFile.fault? at hf
  unfold accept take SourceFile.heard SourceFile.base? SourceFile.extracted
  cases hc : f.content with
  | placeholder => simp [Collection.append]
  | streamed => simp [hc] at hf
  | buffered bytes =>
    cases hg : Registry.builtin.resolve f.path.extension with
    | none => simp [hc, hg] at hf
    | some g => simp only [hg, SourceFile.notes]

/-- A closed run takes nothing in. -/
theorem submit_of_closed {r : Run} (f : SourceFile) (h : r.stage.isOpen = false) :
    r.submit f = { run := r, result := .error (.runClosed r.stage) } := by
  simp [submit, h]

/-- A file with a fault ends an open run, which keeps what it has. -/
theorem submit_of_fault {r : Run} {f : SourceFile} {e : Error} (ho : r.stage.isOpen = true)
    (hf : f.fault? = some e) :
    r.submit f = { run := { r with stage := .errored }, result := .error e } := by
  simp only [submit, if_pos ho, accept_of_fault _ hf]

/-- A file without a fault is taken in by an open run. -/
theorem submit_of_no_fault {r : Run} {f : SourceFile} (ho : r.stage.isOpen = true)
    (hf : f.fault? = none) :
    r.submit f = { run := r.take f, result := .ok (), events := f.heard r.settings } := by
  simp only [submit, if_pos ho, accept_of_no_fault r hf]

/-- There is something to report, and a base to report it from. -/
def Reportable (r : Run) (base : Path) : Prop :=
  r.firstBase = some base ∧ r.notes ≠ []

/-- The end of a run with something to report is what rendering answers. -/
theorem conclude_of_reportable {r : Run} {base : Path} (stage : Stage) (h : r.Reportable base) :
    conclude { r with stage := stage } =
      match Report.render r.settings r.notes with
      | .error e => { run := { r with stage := .errored }, result := .error e }
      | .ok contents =>
        { run := { r with stage := .done }
          result := .ok (some ⟨base, ⟨r.settings.fileName⟩, contents⟩)
          events := [.rendered r.collected.fileCount r.collected.size] } := by
  obtain ⟨hb, hn⟩ := h
  have he : r.collected.isEmpty = false := by
    simpa [Collection.isEmpty, notes] using hn
  obtain ⟨settings, stage', firstBase, collected⟩ := r
  simp only at hb he
  subst hb
  simp only [conclude, he]
  rfl

/-- The end of a run with nothing to report. -/
theorem conclude_of_not_reportable {r : Run} (stage : Stage) (h : ¬ ∃ base, r.Reportable base) :
    conclude { r with stage := stage } =
      { run := { r with stage := .done }, result := .ok none, events := [.noReport] } := by
  unfold conclude
  split
  · rename_i base hb he
    exact absurd ⟨base, hb, by simpa [Collection.isEmpty, notes] using he⟩ h
  · rfl

/-- **What a call can do.** -/
inductive Move (r : Run) : Call → Step (Option Artifact) → Prop
  /-- The run is closed and stays what it is. -/
  | closed {c : Call} :
      r.stage.isOpen = false →
      Move r c { run := r, result := .error (.runClosed r.stage) }
  /-- A file that ends the run. -/
  | fault {f : SourceFile} {e : Error} :
      r.stage.isOpen = true → f.fault? = some e →
      Move r (.submit f) { run := { r with stage := .errored }, result := .error e }
  /-- A file that is taken in. -/
  | accepted {f : SourceFile} :
      r.stage.isOpen = true → f.fault? = none →
      Move r (.submit f) { run := r.take f, result := .ok none, events := f.heard r.settings }
  /-- The end of a batch with nothing to report. -/
  | nothing :
      r.stage.isOpen = true → (¬ ∃ base, r.Reportable base) →
      Move r .finish
        { run := { r with stage := .done }, result := .ok none, events := [.noReport] }
  /-- The end of a batch whose report cannot be rendered. -/
  | refused {base : Path} {e : Error} :
      r.stage.isOpen = true → r.Reportable base → Report.render r.settings r.notes = .error e →
      Move r .finish { run := { r with stage := .errored }, result := .error e }
  /-- The end of a batch with a report. -/
  | reported {base : Path} {contents : String} :
      r.stage.isOpen = true → r.Reportable base →
      Report.render r.settings r.notes = .ok contents →
      Move r .finish
        { run := { r with stage := .done }
          result := .ok (some ⟨base, ⟨r.settings.fileName⟩, contents⟩)
          events := [.rendered r.collected.fileCount r.collected.size] }

/-- **A submission is a move.** -/
theorem move_submit (r : Run) (f : SourceFile) : r.Move (.submit f) (r.call (.submit f)) := by
  by_cases ho : r.stage.isOpen = true
  · cases hf : f.fault? with
    | some e =>
      simp only [call, submit_of_fault ho hf]
      exact .fault ho hf
    | none =>
      simp only [call, submit_of_no_fault ho hf]
      exact .accepted ho hf
  · rw [Bool.not_eq_true] at ho
    simp only [call, submit_of_closed f ho]
    exact .closed ho

/-- **The end of a batch is a move.** -/
theorem move_finish (r : Run) : r.Move .finish (r.call .finish) := by
  by_cases ho : r.stage.isOpen = true
  · simp only [call, finish, if_pos ho]
    by_cases h : ∃ base, r.Reportable base
    · obtain ⟨base, h⟩ := h
      rw [conclude_of_reportable _ h]
      cases hc : Report.render r.settings r.notes with
      | error e => exact .refused ho h hc
      | ok contents => exact .reported ho h hc
    · rw [conclude_of_not_reportable _ h]
      exact .nothing ho h
  · rw [Bool.not_eq_true] at ho
    simp only [call, finish, ho, Bool.false_eq_true, if_false]
    exact .closed ho

/-- **Every call is a move.** -/
theorem move_call (r : Run) (c : Call) : r.Move c (r.call c) := by
  cases c with
  | submit f => exact move_submit r f
  | finish => exact move_finish r

end Run

end Marginalia
