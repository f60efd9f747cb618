import Marginalia.Proofs.Run.Calls
import Mathlib.Data.List.Pairwise

/-!
# Runs that are listened to

Settings may ask that every note is announced when it is found. Nothing
else hangs on it: `voiced` sets that one choice, and a call answers a run
and its voiced twin alike, but for the notes that it announces
(`call_voiced`). What a verbose call announces is what it adds to the
notes of the run (`Move.notes_announced`), so that all announcements of a
history are the notes collected in it; and nothing is told after the end
of a batch (`pairwise_log`).
-/

namespace Marginalia

/-- The note that an event announces. -/
def Event.note? : Event → Option Note
  | .found note => some note
  | .skipped _ | .rendered _ _ | .noReport => none

/-- Whether an event is anything but the announcement of a note. -/
def Event.isPlain (e : Event) : Bool :=
  e.note?.isNone

namespace Run

/-- The same run with the choice to announce notes set. -/
def voiced (v : Bool) (r : Run) : Run :=
  { r with settings := { r.settings with verbose := v } }

@[simp] theorem voiced_stage (v : Bool) (r : Run) : (r.voiced v).stage = r.stage := rfl

@[simp] theorem voiced_notes (v : Bool) (r : Run) : (r.voiced v).notes = r.notes := rfl

@[simp] theorem voiced_verbose (v : Bool) (r : Run) : (r.voiced v).settings.verbose = v := rfl

/-! ## What is announced -/

/-- Announcements are all there is to hear of notes, and only if they are
asked for. -/
theorem filterMap_note?_announce (s : Settings) (notes : List Note) :
    (announce s notes).filterMap Event.note? = if s.verbose then notes else [] := by
  unfold announce
  split
  · rw [List.filterMap_map]
    exact List.filterMap_some
  · rfl

theorem filter_isPlain_announce (s : Settings) (notes : List Note) :
    (announce s notes).filter Event.isPlain = [] := by
  unfold announce
  split
  · simp [List.filter_map, Function.comp_def, Event.isPlain, Event.note?]
  · rfl

end Run

namespace SourceFile

/-- A file that is taken in has its notes announced. -/
theorem filterMap_note?_heard (f : SourceFile) (s : Settings) :
    (f.heard s).filterMap Event.note? = if s.verbose then f.extracted else [] := by
  unfold heard
  cases hc : f.content with
  | buffered bytes => exact Run.filterMap_note?_announce s f.extracted
  | streamed | placeholder => simp [extracted, hc, Event.note?]

/-- What else is heard of it does not depend on the settings. -/
theorem filter_isPlain_heard (f : SourceFile) (s t : Settings) :
    (f.heard s).filter Event.isPlain = (f.heard t).filter Event.isPlain := by
  unfold heard
  cases hc : f.content with
  | buffered bytes => simp only [Run.filter_isPlain_announce]
  | streamed | placeholder => rfl

end SourceFile

namespace Run

/-! ## One call -/

/-- **A call does not depend on who listens.** The run after it is the
voiced twin of the run that would be there, the result is the same, and
so is all that is heard but the announcements. -/
theorem call_voiced (v : Bool) (r : Run) (c : Call) :
    ((r.voiced v).call c).run = (r.call c).run.voiced v ∧
      ((r.voiced v).call c).result = (r.call c).result ∧
      ((r.voiced v).call c).events.filter Event.isPlain =
        (r.call c).events.filter Event.isPlain := by
  by_cases ho : r.stage.isOpen = true
  · have hov : (r.voiced v).stage.isOpen = true := ho
    cases c with
    | submit f =>
      cases hf : f.fault? with
      | some e =>
        rw [call, call, submit_of_fault ho hf, submit_of_fault hov hf]
        exact ⟨rfl, rfl, rfl⟩
      | none =>
        rw [call, call, submit_of_no_fault ho hf, submit_of_no_fault hov hf]
        exact ⟨rfl, rfl, SourceFile.filter_isPlain_heard f _ _⟩
    | finish =>
      simp only [call, finish, if_pos ho, if_pos hov]
      by_cases h : ∃ base, r.Reportable base
      · obtain ⟨base, h⟩ := h
        have hv : (r.voiced v).Reportable base := h
        -- rendering does not look at the choice
        have hrender : Report.render (r.voiced v).settings (r.voiced v).notes =
            Report.render r.settings r.notes := rfl
        rw [conclude_of_reportable _ h, conclude_of_reportable _ hv, hrender]
        cases Report.render r.settings r.notes with
        | error e => exact ⟨rfl, rfl, rfl⟩
        | ok contents => exact ⟨rfl, rfl, rfl⟩
      · have hv : ¬ ∃ base, (r.voiced v).Reportable base := h
        rw [conclude_of_not_reportable _ h, conclude_of_not_reportable _ hv]
        exact ⟨rfl, rfl, rfl⟩
  · rw [Bool.not_eq_true] at ho
    have hov : (r.voiced v).stage.isOpen = false := ho
    rw [call_of_closed ho, call_of_closed hov]
    exact ⟨rfl, rfl, rfl⟩

section Moves

variable {r : Run} {c : Call} {st : Step (Option Artifact)}

/-- No call changes the settings. -/
theorem Move.settings_eq (h : r.Move c st) : st.run.settings = r.settings := by
  cases h <;> rfl

/-- **What a call announces is what it gains**, if anything is announced
at all. -/
theorem Move.filterMap_note?_events (h : r.Move c st) :
    st.events.filterMap Event.note? = if r.settings.verbose then c.gained st else [] := by
  cases h with
  | closed ho => cases c <;> simp [Call.gained, Except.isOk, Except.toBool]
  | fault ho hf => simp [Call.gained, Except.isOk, Except.toBool]
  | @accepted f ho hf =>
    simp [SourceFile.filterMap_note?_heard, Call.gained, Except.isOk, Except.toBool]
  | nothing | refused | reported => simp [Call.gained, Event.note?]

/-- A verbose call announces the notes that it adds to the run. -/
theorem Move.notes_announced (h : r.Move c st) (hv : r.settings.verbose = true) :
    st.run.notes = r.notes ++ st.events.filterMap Event.note? := by
  rw [h.notes_eq, h.filterMap_note?_events, if_pos hv]

/-- Only a submission announces anything, and only notes of its file. -/
theorem Move.exists_submit_of_found {n : Note} (h : r.Move c st) (hn : .found n ∈ st.events) :
    ∃ f, c = .submit f ∧ n ∈ f.extracted := by
  cases h with
  | closed | fault | nothing | refused | reported => simp at hn
  | @accepted f ho hf =>
    refine ⟨f, rfl, ?_⟩
    have hmem : n ∈ (f.heard r.settings).filterMap Event.note? :=
      List.mem_filterMap.mpr ⟨_, hn, rfl⟩
    rw [SourceFile.filterMap_note?_heard] at hmem
    split at hmem
    · exact hmem
    · simp at hmem

/-- The event of an end is the only one of its call. -/
theorem Move.pairwise_events (h : r.Move c st) :
    st.events.Pairwise fun e _ => e.isEnd = false := by
  cases h with
  | closed | fault | nothing | refused | reported => simp
  | @accepted f ho hf =>
    exact List.pairwise_of_forall_mem_list fun e he _ _ => SourceFile.not_isEnd_of_mem_heard he

/-- And it closes the run. -/
theorem Move.closed_of_isEnd {e : Event} (h : r.Move c st) (he : e ∈ st.events)
    (hend : e.isEnd = true) : st.run.stage.isOpen = false := by
  cases h with
  | closed ho => exact ho
  | fault | refused | nothing | reported => rfl
  | accepted => simp [SourceFile.not_isEnd_of_mem_heard he] at hend

end Moves

/-! ## All calls -/

/-- Everything heard of a run during some calls. -/
def log (r : Run) (cs : List Call) : List Event :=
  (r.answers cs).flatMap fun a => a.2.events

theorem log_cons (r : Run) (c : Call) (cs : List Call) :
    r.log (c :: cs) = (r.call c).events ++ (r.call c).run.log cs := by
  rw [log, answers, List.flatMap_cons, log]

theorem log_of_closed {r : Run} (h : r.stage.isOpen = false) (cs : List Call) : r.log cs = [] := by
  rw [log, List.flatMap_eq_nil_iff]
  intro a ha
  rw [eq_of_mem_answers_of_closed h ha]

theorem settings_after (r : Run) (cs : List Call) : (r.after cs).settings = r.settings :=
  after_induction (P := fun r' => r'.settings = r.settings)
    (fun r' c h => (move_call r' c).settings_eq.trans h) rfl cs

/-- What can be seen of an answer without listening to announcements: the
call, its result, and of the run after it the stage and the notes; and
the other events. -/
def seen (a : Call × Step (Option Artifact)) :
    Call × Except Error (Option Artifact) × Stage × List Note × List Event :=
  (a.1, a.2.result, a.2.run.stage, a.2.run.notes, a.2.events.filter Event.isPlain)

/-- **Histories look alike**, whoever listens. -/
theorem map_seen_answers_voiced (v : Bool) (r : Run) (cs : List Call) :
    ((r.voiced v).answers cs).map seen = (r.answers cs).map seen := by
  induction cs generalizing r with
  | nil => rfl
  | cons c rest ih =>
    obtain ⟨hrun, hresult, hevents⟩ := call_voiced v r c
    simp only [answers, List.map_cons, seen, hrun, hresult, hevents, voiced_stage, voiced_notes]
    exact congrArg (_ :: ·) (ih (r.call c).run)

/-- The log without announcements is what can be seen of the events. -/
theorem filter_isPlain_log (r : Run) (cs : List Call) :
    (r.log cs).filter Event.isPlain =
      ((r.answers cs).map seen).flatMap fun shown => shown.2.2.2.2 := by
  rw [log, List.filter_flatMap, List.flatMap_map]
  rfl

/-- A run that is not to announce anything does not. -/
theorem note?_eq_none_of_mem_log {r : Run} (hv : r.settings.verbose = false) {cs : List Call}
    {e : Event} (he : e ∈ r.log cs) : e.note? = none := by
  induction cs generalizing r with
  | nil => simp [log, answers] at he
  | cons c rest ih =>
    rw [log_cons, List.mem_append] at he
    rcases he with he | he
    · have hnone := (move_call r c).filterMap_note?_events
      rw [hv] at hnone
      exact List.filterMap_eq_nil_iff.mp hnone e he
    · refine ih ?_ he
      rw [(move_call r c).settings_eq, hv]

/-- **The announcements of a history are its notes.** -/
theorem notes_after_eq_announced {r : Run} (hv : r.settings.verbose = true) (cs : List Call) :
    (r.after cs).notes = r.notes ++ (r.log cs).filterMap Event.note? := by
  induction cs generalizing r with
  | nil => simp [after, log, answers]
  | cons c rest ih =>
    have hv' : (r.call c).run.settings.verbose = true := by
      rw [(move_call r c).settings_eq, hv]
    rw [after_cons, ih hv', (move_call r c).notes_announced hv, log_cons, List.filterMap_append,
      List.append_assoc]

/-- **Nothing is told after the end of a batch.** -/
theorem pairwise_log (r : Run) (cs : List Call) :
    (r.log cs).Pairwise fun e _ => e.isEnd = false := by
  induction cs generalizing r with
  | nil => exact .nil
  | cons c rest ih =>
    rw [log_cons, List.pairwise_append]
    refine ⟨(move_call r c).pairwise_events, ih _, ?_⟩
    intro e he later hlater
    cases hend : e.isEnd with
    | false => rfl
    | true =>
      -- the end has closed the run, and nothing is heard of a closed one
      rw [log_of_closed ((move_call r c).closed_of_isEnd he hend)] at hlater
      exact absurd hlater List.not_mem_nil

/-! ## Listening -/

/-- A new run, with the choice to announce notes set. -/
def fresh (s : Settings) (v : Bool) : Run :=
  { settings := { s with verbose := v } }

/-- **What listening to a run means.** The run starts with nothing, `cs`
are all its calls so far. -/
structure Listening (s : Settings) (cs : List Call) : Prop where
  /-- Call by call, results, stages, notes and all events but the
  announcements are the same. -/
  seen_eq : ∀ v w, ((fresh s v).answers cs).map seen = ((fresh s w).answers cs).map seen
  /-- And so are the logs as a whole. -/
  log_eq : ∀ v w,
    ((fresh s v).log cs).filter Event.isPlain = ((fresh s w).log cs).filter Event.isPlain
  /-- Where no one listens nothing is announced. -/
  silent : ∀ e ∈ (fresh s false).log cs, e.note? = none
  /-- Where someone listens all notes are announced, in order. -/
  announced : ((fresh s true).log cs).filterMap Event.note? = ((fresh s true).after cs).notes
  /-- Each is announced by the call that collects it. -/
  at_once : ∀ c, (((fresh s true).after cs).call c).run.notes =
    ((fresh s true).after cs).notes ++
      (((fresh s true).after cs).call c).events.filterMap Event.note?
  /-- And that is the submission of its file. -/
  by_submit : ∀ c n, .found n ∈ (((fresh s true).after cs).call c).events →
    ∃ f, c = .submit f ∧ n ∈ f.extracted
  /-- No note is announced after a report was rendered. -/
  before_rendered : ((fresh s true).log cs).Pairwise fun e later =>
    (∃ files notes, e = .rendered files notes) → later.note? = none

/-- **Listening never changes a run**, whatever is called and in whatever
order. -/
theorem listening (s : Settings) (cs : List Call) : Listening s cs := by
  have hseen (v : Bool) :
      ((fresh s v).answers cs).map seen = (answers { settings := s } cs).map seen :=
    map_seen_answers_voiced v { settings := s } cs
  have hverbose : ((fresh s true).after cs).settings.verbose = true := by
    rw [settings_after]
    rfl
  refine
    { seen_eq := fun v w => (hseen v).trans (hseen w).symm
      log_eq := ?_
      silent := fun e => note?_eq_none_of_mem_log rfl
      announced := ?_
      at_once := fun c => (move_call _ c).notes_announced hverbose
      by_submit := fun c n => (move_call _ c).exists_submit_of_found
      before_rendered := ?_ }
  · intro v w
    rw [filter_isPlain_log, filter_isPlain_log, hseen v, hseen w]
  · have hnotes := notes_after_eq_announced (r := fresh s true) rfl cs
    rw [hnotes]
    rfl
  · refine (pairwise_log (fresh s true) cs).imp fun {e later} hend => ?_
    rintro ⟨files, notes, rfl⟩
    simp [Event.isEnd] at hend

end Run

end Marginalia
