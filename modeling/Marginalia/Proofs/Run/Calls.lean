import Marginalia.Proofs.Run.Move

/-!
# Runs over any calls

A run may be called in any order and go on being called after it has
ended. `answers` is the history of such calls and `after` the run they
leave; both are read one move at a time.

A run is paid for its end once: an open run has a credit of one, the call
that ends the batch spends it, and nothing gives it back
(`countP_isEnd_add_credit_le`). An artifact comes with the event of its
rendering, so that there is one of them at most as well.
-/

namespace Marginalia

/-- Whether an event tells of the end of a batch. -/
def Event.isEnd : Event → Bool
  | .rendered _ _ | .noReport => true
  | .found _ | .skipped _ => false

/-- The artifact of a call, if it returned one. -/
def Step.artifact? (st : Step (Option Artifact)) : Option Artifact :=
  match st.result with
  | .ok artifact => artifact
  | .error _ => none

/-- The notes that a call should have added: those of a file whose
submission was answered well. -/
def Call.gained : Call → Step (Option Artifact) → List Note
  | .submit f, st => if st.result.isOk then f.extracted else []
  | .finish, _ => []

/-- Taking in a file is not the end of a batch. -/
theorem SourceFile.not_isEnd_of_mem_heard {f : SourceFile} {s : Settings} {e : Event}
    (h : e ∈ f.heard s) : e.isEnd = false := by
  unfold heard at h
  split at h
  · rw [List.mem_singleton.mp h]
    rfl
  · unfold Run.announce at h
    split at h
    · obtain ⟨n, -, rfl⟩ := List.mem_map.mp h
      rfl
    · simp at h
  · simp at h

namespace Run

/-- The run that the calls leave. -/
def after (r : Run) (cs : List Call) : Run :=
  cs.foldl (fun r c => (r.call c).run) r

theorem after_cons (r : Run) (c : Call) (cs : List Call) :
    r.after (c :: cs) = (r.call c).run.after cs := rfl

/-- The calls with what they were answered. -/
def answers (r : Run) : List Call → List (Call × Step (Option Artifact))
  | [] => []
  | c :: rest => (c, r.call c) :: answers (r.call c).run rest

/-- What every call keeps is kept by all of them. -/
theorem after_induction {P : Run → Prop} (hP : ∀ r c, P r → P (r.call c).run) {r : Run}
    (hr : P r) (cs : List Call) : P (r.after cs) := by
  induction cs generalizing r with
  | nil => exact hr
  | cons c rest ih => exact ih (hP r c hr)

/-- **A history holds the answer of each call**, by the run that the calls
before it have left. -/
theorem mem_answers_iff {r : Run} {cs : List Call} {a : Call × Step (Option Artifact)} :
    a ∈ r.answers cs ↔
      ∃ before later, cs = before ++ a.1 :: later ∧ a.2 = (r.after before).call a.1 := by
  induction cs generalizing r with
  | nil => simp [answers]
  | cons c rest ih =>
    rw [answers, List.mem_cons, ih]
    constructor
    · rintro (rfl | ⟨before, later, rfl, ha⟩)
      · exact ⟨[], rest, rfl, rfl⟩
      · exact ⟨c :: before, later, rfl, ha⟩
    · rintro ⟨before, later, hcs, ha⟩
      cases before with
      | nil =>
        obtain ⟨rfl, -⟩ := List.cons.inj hcs
        exact .inl (Prod.ext rfl ha)
      | cons c' before =>
        obtain ⟨rfl, hrest⟩ := List.cons.inj hcs
        exact .inr ⟨before, later, hrest, ha⟩

/-! ## What one call keeps -/

/-- **What holds of a run between calls**: it is not at work on its end,
and it has a base for the notes it has. -/
structure Sound (r : Run) : Prop where
  settled : r.stage ≠ .finalizing
  based : r.notes ≠ [] → r.firstBase.isSome = true

/-- The credit of a run: one for its end, as long as it is open. -/
def credit (r : Run) : Nat :=
  if r.stage.isOpen then 1 else 0

theorem credit_of_open {r : Run} (h : r.stage.isOpen = true) : r.credit = 1 :=
  if_pos h

theorem credit_of_closed {r : Run} (h : r.stage.isOpen = false) : r.credit = 0 := by
  simp [credit, h]

section Moves

variable {r : Run} {c : Call} {st : Step (Option Artifact)}

/-- A move keeps a run sound. -/
theorem Move.sound (h : r.Move c st) (hr : r.Sound) : st.run.Sound := by
  cases h with
  | closed ho => exact hr
  | fault ho hf => exact ⟨by simp, hr.based⟩
  | @accepted f ho hf =>
    refine ⟨by simp, fun hn => ?_⟩
    rw [take_notes] at hn
    rw [take_firstBase, Option.isSome_or]
    -- a note of the run has its base already, and one of the file brings it along
    by_cases hx : f.extracted = []
    · rw [hx, List.append_nil] at hn
      rw [hr.based hn, Bool.true_or]
    · rw [SourceFile.base?_isSome_of_extracted_ne_nil hx, Bool.or_true]
  | nothing ho hn => exact ⟨by simp, hr.based⟩
  | refused ho hn hc => exact ⟨by simp, hr.based⟩
  | reported ho hn hc => exact ⟨by simp, hr.based⟩

/-- After a call a run is not idle any more. -/
theorem Move.stage_ne_idle (h : r.Move c st) : st.run.stage ≠ .idle := by
  cases h with
  | closed ho =>
    intro (hi : r.stage = .idle)
    rw [hi] at ho
    exact absurd ho (by decide)
  | fault | accepted | nothing | refused | reported => simp

/-- A call adds the notes of a file that it took in, and no others. -/
theorem Move.notes_eq (h : r.Move c st) : st.run.notes = r.notes ++ c.gained st := by
  cases h with
  | closed ho => cases c <;> simp [Call.gained, Except.isOk, Except.toBool]
  | accepted ho hf => simp [Call.gained, Except.isOk, Except.toBool]
  | fault ho hf => simp [Call.gained, Except.isOk, Except.toBool, notes]
  | nothing | refused | reported => simp [Call.gained, notes]

/-- A call that fails leaves a closed run. -/
theorem Move.closed_of_error {e : Error} (h : r.Move c st) (he : st.result = .error e) :
    st.run.stage.isOpen = false := by
  cases h with
  | closed ho => exact ho
  | fault | refused => rfl
  | accepted | nothing | reported => simp at he

/-- **The end of a batch is paid with the credit of the run.** -/
theorem Move.countP_isEnd_add_credit_le (h : r.Move c st) :
    st.events.countP Event.isEnd + st.run.credit ≤ r.credit := by
  cases h with
  | closed ho => simp
  | fault ho hf =>
    rw [credit_of_open ho, credit_of_closed rfl]
    simp
  | @accepted f ho hf =>
    have hz : (f.heard r.settings).countP Event.isEnd = 0 := by
      rw [List.countP_eq_zero]
      intro e he
      simp [SourceFile.not_isEnd_of_mem_heard he]
    have hopen : (r.take f).credit = 1 := credit_of_open rfl
    have hcredit : r.credit = 1 := credit_of_open ho
    show (f.heard r.settings).countP Event.isEnd + (r.take f).credit ≤ r.credit
    omega
  | nothing ho hn =>
    rw [credit_of_open ho, credit_of_closed rfl]
    simp [Event.isEnd]
  | refused ho hn hc =>
    rw [credit_of_open ho, credit_of_closed rfl]
    simp
  | reported ho hn hc =>
    rw [credit_of_open ho, credit_of_closed rfl]
    simp [Event.isEnd]

/-- **A call returns an artifact if it tells of rendering it**, and only
the end of a batch does. -/
theorem Move.artifact?_isSome_iff (h : r.Move c st) :
    (st.artifact?.isSome = true ↔ ∃ files notes, .rendered files notes ∈ st.events) ∧
      (st.artifact?.isSome = true → c = .finish) := by
  cases h with
  | closed | fault | nothing | refused | reported => simp [Step.artifact?]
  | @accepted f ho hf =>
    have hr : ∀ files notes, .rendered files notes ∉ f.heard r.settings := by
      intro files notes he
      exact absurd (SourceFile.not_isEnd_of_mem_heard he) (by simp [Event.isEnd])
    simp [Step.artifact?, hr]

end Moves

/-- A closed run is closed to every call. -/
theorem call_of_closed {r : Run} (h : r.stage.isOpen = false) (c : Call) :
    r.call c = { run := r, result := .error (.runClosed r.stage) } := by
  cases c with
  | submit f => simp only [call, submit_of_closed f h, Except.map]
  | finish => simp [call, finish, h]

/-! ## What all calls keep -/

/-- **A closed run stays what it is** and answers every call so. -/
theorem after_of_closed {r : Run} (h : r.stage.isOpen = false) (cs : List Call) :
    r.after cs = r := by
  induction cs with
  | nil => rfl
  | cons c rest ih =>
    rw [after_cons, call_of_closed h]
    exact ih

/-- The answers of a closed run name the stage it is in. -/
theorem eq_of_mem_answers_of_closed {r : Run} (h : r.stage.isOpen = false) {cs : List Call}
    {a : Call × Step (Option Artifact)} (ha : a ∈ r.answers cs) :
    a.2 = { run := r, result := .error (.runClosed r.stage) } := by
  induction cs with
  | nil => simp [answers] at ha
  | cons c rest ih =>
    rw [answers, List.mem_cons, call_of_closed h] at ha
    obtain rfl | ha := ha
    · rfl
    · exact ih ha

/-- A run is sound after any calls. -/
theorem sound_after (s : Settings) (cs : List Call) : (after { settings := s } cs).Sound :=
  after_induction (fun r c => (move_call r c).sound) ⟨by simp, by simp [notes]⟩ cs

/-- A run is not idle after a call, nor after any more. -/
theorem after_cons_stage_ne_idle (r : Run) (c : Call) (cs : List Call) :
    (r.after (c :: cs)).stage ≠ .idle :=
  after_induction (P := fun r => r.stage ≠ .idle)
    (fun r c _ => (move_call r c).stage_ne_idle) (move_call r c).stage_ne_idle cs

/-- **The notes of a run are those of the files it took in.** -/
theorem notes_after (r : Run) (cs : List Call) :
    (r.after cs).notes = r.notes ++ (r.answers cs).flatMap fun a => a.1.gained a.2 := by
  induction cs generalizing r with
  | nil => simp [after, answers]
  | cons c rest ih =>
    calc ((r.call c).run.after rest).notes
        = (r.call c).run.notes ++
            ((r.call c).run.answers rest).flatMap fun a => a.1.gained a.2 := ih _
      _ = r.notes ++ (r.answers (c :: rest)).flatMap fun a => a.1.gained a.2 := by
          rw [(move_call r c).notes_eq, answers, List.flatMap_cons, List.append_assoc]

/-- **A run ends once**: what its calls tell of ends is paid with what
credit it had. -/
theorem countP_isEnd_add_credit_le (r : Run) (cs : List Call) :
    ((r.answers cs).flatMap fun a => a.2.events).countP Event.isEnd + (r.after cs).credit ≤
      r.credit := by
  induction cs generalizing r with
  | nil => simp [after, answers]
  | cons c rest ih =>
    have hfirst := (move_call r c).countP_isEnd_add_credit_le
    have hlater := ih (r.call c).run
    simp only [answers, after_cons, List.flatMap_cons, List.countP_append]
    omega

/-- The artifacts of a history are no more than the ends told in it, for
each comes with the event of its rendering. -/
theorem countP_artifact?_le (r : Run) (cs : List Call) :
    (r.answers cs).countP (fun a => a.2.artifact?.isSome) ≤
      ((r.answers cs).flatMap fun a => a.2.events).countP Event.isEnd := by
  induction cs generalizing r with
  | nil => simp [answers]
  | cons c rest ih =>
    have hlater := ih (r.call c).run
    simp only [answers, List.flatMap_cons, List.countP_append, List.countP_cons]
    by_cases ha : (r.call c).artifact?.isSome = true
    · obtain ⟨files, notes, he⟩ := (move_call r c).artifact?_isSome_iff.1.mp ha
      have hpos : 0 < (r.call c).events.countP Event.isEnd :=
        List.countP_pos_iff.mpr ⟨_, he, rfl⟩
      rw [if_pos ha]
      omega
    · rw [if_neg ha]
      omega

/-- Every artifact of a history is returned by the end that tells of its
rendering. -/
theorem artifact?_isSome_iff_of_mem_answers {r : Run} {cs : List Call}
    {a : Call × Step (Option Artifact)} (ha : a ∈ r.answers cs) :
    (a.2.artifact?.isSome = true ↔ ∃ files notes, .rendered files notes ∈ a.2.events) ∧
      (a.2.artifact?.isSome = true → a.1 = .finish) := by
  obtain ⟨before, -, -, hb⟩ := mem_answers_iff.mp ha
  rw [hb]
  exact (move_call (r.after before) a.1).artifact?_isSome_iff

/-- **There is no artifact after an error.** -/
theorem pairwise_answers (r : Run) (cs : List Call) :
    (r.answers cs).Pairwise fun a b =>
      (∃ e, a.2.result = .error e) → b.2.artifact? = none := by
  induction cs generalizing r with
  | nil => exact .nil
  | cons c rest ih =>
    refine .cons ?_ (ih _)
    rintro b hb ⟨e, he⟩
    -- the error has closed the run, and a closed run has only errors left
    have hclosed := (move_call r c).closed_of_error he
    rw [eq_of_mem_answers_of_closed hclosed hb]
    rfl

/-! ## The life of a run -/

/-- **What holds of a run after any calls.** The run starts with nothing
and the settings, `cs` are all its calls so far. -/
structure Lifecycle (s : Settings) (cs : List Call) : Prop where
  /-- Work on the end of a batch is not seen between calls. -/
  settled : (after { settings := s } cs).stage ≠ .finalizing
  /-- Only a run that was never called is idle. -/
  idle_iff : (after { settings := s } cs).stage = .idle ↔ cs = []
  /-- A run that has ended changes no more, tells no more, and answers
  every further call with the stage it is in. -/
  ended : ∀ r, after { settings := s } cs = r → r.stage = .done ∨ r.stage = .errored →
    ∀ later, r.after later = r ∧
      ∀ a ∈ r.answers later,
        a.2 = { run := r, result := .error (.runClosed r.stage), events := [] }
  /-- A submission that fails on an open run ends it and changes nothing
  else. -/
  failed : ∀ r, after { settings := s } cs = r → r.stage = .idle ∨ r.stage = .collecting →
    ∀ f e, (r.submit f).result = .error e → (r.submit f).run = { r with stage := .errored }
  /-- The notes are those of the files that were taken in, in order. -/
  notes_eq : (after { settings := s } cs).notes =
    (answers { settings := s } cs).flatMap fun a => a.1.gained a.2
  /-- Where there are notes there is a base. -/
  based : (after { settings := s } cs).notes ≠ [] →
    (after { settings := s } cs).firstBase.isSome = true
  /-- At most one call returns an artifact. -/
  one_artifact :
    (answers { settings := s } cs).countP (fun a => a.2.artifact?.isSome) ≤ 1
  /-- At most one end is told. -/
  one_end : ((answers { settings := s } cs).flatMap fun a => a.2.events).countP Event.isEnd ≤ 1
  /-- An artifact is returned by the call that tells of its rendering. -/
  artifact_iff : ∀ a ∈ answers { settings := s } cs,
    a.2.artifact?.isSome = true ↔ ∃ files notes, .rendered files notes ∈ a.2.events
  /-- Only the end of a batch returns one. -/
  artifact_finish : ∀ a ∈ answers { settings := s } cs, a.2.artifact?.isSome = true → a.1 = .finish
  /-- After an error there is none. -/
  none_after_error : (answers { settings := s } cs).Pairwise fun a b =>
    (∃ e, a.2.result = .error e) → b.2.artifact? = none

/-- A failed submission on an open run ends the run and leaves its notes
and its base. -/
theorem run_submit_of_error {r : Run} {f : SourceFile} {e : Error} (ho : r.stage.isOpen = true)
    (he : (r.submit f).result = .error e) : (r.submit f).run = { r with stage := .errored } := by
  cases hf : f.fault? with
  | some e' => rw [submit_of_fault ho hf]
  | none => simp [submit_of_no_fault ho hf] at he

/-- **Every run lives so**, whatever is called and in whatever order. -/
theorem lifecycle (s : Settings) (cs : List Call) : Lifecycle s cs := by
  have hsound := sound_after s cs
  have hends := countP_isEnd_add_credit_le { settings := s } cs
  have hcredit : credit { settings := s } = 1 := rfl
  refine
    { settled := hsound.settled
      idle_iff := ?_
      ended := ?_
      failed := ?_
      notes_eq := notes_after _ cs
      based := hsound.based
      one_artifact := ?_
      one_end := by omega
      artifact_iff := fun a ha => (artifact?_isSome_iff_of_mem_answers ha).1
      artifact_finish := fun a ha => (artifact?_isSome_iff_of_mem_answers ha).2
      none_after_error := pairwise_answers _ cs }
  · cases cs with
    | nil => simp [after]
    | cons c rest => simpa using after_cons_stage_ne_idle _ c rest
  · intro r _ hr later
    have hclosed : r.stage.isOpen = false := by
      obtain hr | hr := hr <;> rw [hr] <;> rfl
    exact ⟨after_of_closed hclosed later, fun a => eq_of_mem_answers_of_closed hclosed⟩
  · intro r _ hr f e he
    have hopen : r.stage.isOpen = true := by
      obtain hr | hr := hr <;> rw [hr] <;> rfl
    exact run_submit_of_error hopen he
  · have hle := countP_artifact?_le { settings := s } cs
    omega

end Run

end Marginalia
