import Marginalia.Progress.Loop
import Marginalia.Proofs.Host.Course

/-!
# Every message is shown

The worker sends its messages and finishes when it likes, and the loop takes
its own steps in between: it may find the worker finished after a message or
after a wait, with any number of messages still in the queue. `Sound` is what
each step of either keeps. What has been shown, what is in the queue and what
is unsent make up the messages of the worker, in this order, and the loop
empties the queue for the last time only when nothing more can come into it.

So a loop that has returned has shown everything (`messages_shown`), and from
every point of a run it can come to that. What the worker sends is what the
host tells, so that this is also the end of the program
(`shown_of_command_line`).
-/

namespace Marginalia

namespace Loop

variable {sent : List Message} {l m n : Loop}

/-! ## What every step keeps -/

/-- **The state of a loop whose worker sends the messages `sent`**, whatever
steps have been taken. -/
structure Sound (sent : List Message) (l : Loop) : Prop where
  /-- Every message has been shown, waits in the queue or is still to be sent. -/
  shown : ∃ shown, l.printer = shown.foldl Printer.print {} ∧
    shown ++ (l.queue ++ l.unsent) = sent
  /-- A worker that has finished sends nothing more. -/
  finished : l.finished = true → l.unsent = []
  /-- The queue is emptied once the worker has finished. -/
  draining : l.phase = .draining → l.finished = true
  /-- The loop leaves nothing in the queue. -/
  returned : l.phase = .returned → l.finished = true ∧ l.queue = []

/-- Before the first step all is unsent. -/
theorem sound_start (sent : List Message) : Sound sent { unsent := sent } where
  shown := ⟨[], rfl, rfl⟩
  finished := nofun
  draining := nofun
  returned := nofun

/-- A message that goes from the queue to the printer is the next one to be
shown. -/
theorem Sound.exists_print {msg : Message} {rest : List Message} (h : Sound sent l)
    (hqueue : l.queue = msg :: rest) :
    ∃ shown, l.printer.print msg = shown.foldl Printer.print {} ∧
      shown ++ (rest ++ l.unsent) = sent := by
  obtain ⟨shown, hprinter, hsent⟩ := h.shown
  refine ⟨shown ++ [msg], ?_, ?_⟩
  · rw [List.foldl_append, ← hprinter]
    rfl
  · rw [← hsent, hqueue, List.append_assoc, List.singleton_append, List.cons_append]

/-- **One step**, of the worker or of the loop, keeps it. -/
theorem Sound.step (h : Sound sent l) (hstep : Step l m) : Sound sent m := by
  cases hstep with
  | @send msg rest hunsent =>
    obtain ⟨shown, hprinter, hsent⟩ := h.shown
    -- a worker with something to send has not finished
    have hopen : l.finished ≠ true := fun hf => by
      have := h.finished hf
      rw [hunsent] at this
      cases this
    refine ⟨⟨shown, hprinter, ?_⟩, ?_, h.draining, ?_⟩
    · rw [List.append_assoc, List.singleton_append, ← hunsent, hsent]
    · exact fun hf => absurd hf hopen
    · exact fun hr => absurd (h.returned hr).1 hopen
  | finish hunsent =>
    exact ⟨h.shown, fun _ => hunsent, fun _ => rfl, fun hr => ⟨rfl, (h.returned hr).2⟩⟩
  | receive _ hqueue => exact ⟨h.exists_print hqueue, h.finished, nofun, nofun⟩
  | timeout => exact ⟨h.shown, h.finished, nofun, nofun⟩
  | again => exact ⟨h.shown, h.finished, nofun, nofun⟩
  | drain _ hfinished => exact ⟨h.shown, h.finished, fun _ => hfinished, nofun⟩
  | take hphase hqueue =>
    refine ⟨h.exists_print hqueue, h.finished, h.draining, ?_⟩
    intro hr
    rw [hphase] at hr
    cases hr
  | leave hphase hqueue =>
    exact ⟨h.shown, h.finished, nofun, fun _ => ⟨h.draining hphase, hqueue⟩⟩

/-- By induction on the steps: it holds throughout a run. -/
theorem sound_of_steps (h : Steps { unsent := sent } l) : Sound sent l := by
  generalize hstart : ({ unsent := sent } : Loop) = start at h
  induction h with
  | refl => exact hstart ▸ sound_start sent
  | tail _ hstep ih => exact ih.step hstep

/-- Where the loop has returned, its printer is as if every message had been
shown as it was sent. -/
theorem Sound.printer_eq (h : Sound sent l) (hphase : l.phase = .returned) :
    l.printer = sent.foldl Printer.print {} := by
  obtain ⟨shown, hprinter, hsent⟩ := h.shown
  obtain ⟨hfinished, hqueue⟩ := h.returned hphase
  rw [hqueue, h.finished hfinished, List.append_nil, List.append_nil] at hsent
  rw [hprinter, hsent]

/-! ## The way to the end -/

theorem Steps.trans (h : Steps l m) (h' : Steps m n) : Steps l n := by
  induction h' with
  | refl => exact h
  | tail _ hstep ih => exact .tail ih hstep

theorem Step.steps (h : Step l m) : Steps l m :=
  .tail (.refl l) h

/-- The worker can send all that it has. -/
theorem exists_steps_sent (l : Loop) : ∃ n, Steps l n ∧ n.unsent = [] := by
  generalize hunsent : l.unsent = unsent
  induction unsent generalizing l with
  | nil => exact ⟨l, .refl l, hunsent⟩
  | cons msg rest ih =>
    obtain ⟨n, hsteps, hn⟩ := ih { l with unsent := rest, queue := l.queue ++ [msg] } rfl
    exact ⟨n, (Step.send hunsent).steps.trans hsteps, hn⟩

/-- A loop that empties the queue comes to its end. -/
theorem exists_steps_of_draining (h : l.phase = .draining) :
    ∃ n, Steps l n ∧ n.phase = .returned := by
  generalize hqueue : l.queue = queue
  induction queue generalizing l with
  | nil => exact ⟨_, (Step.leave h hqueue).steps, rfl⟩
  | cons msg rest ih =>
    obtain ⟨n, hsteps, hn⟩ :=
      ih (l := { l with queue := rest, printer := l.printer.print msg }) h rfl
    exact ⟨n, (Step.take h hqueue).steps.trans hsteps, hn⟩

theorem exists_steps_of_checking (h : l.phase = .checking) (hfinished : l.finished = true) :
    ∃ n, Steps l n ∧ n.phase = .returned := by
  obtain ⟨n, hsteps, hn⟩ := exists_steps_of_draining (l := { l with phase := .draining }) rfl
  exact ⟨n, (Step.drain h hfinished).steps.trans hsteps, hn⟩

/-- A loop whose worker has finished comes to its end from every phase. -/
theorem exists_steps_of_finished (hfinished : l.finished = true) :
    ∃ n, Steps l n ∧ n.phase = .returned := by
  cases hphase : l.phase with
  | waiting =>
    obtain ⟨n, hsteps, hn⟩ :=
      exists_steps_of_checking (l := { l with phase := .checking }) rfl hfinished
    exact ⟨n, (Step.timeout hphase).steps.trans hsteps, hn⟩
  | checking => exact exists_steps_of_checking hphase hfinished
  | draining => exact exists_steps_of_draining hphase
  | returned => exact ⟨l, .refl l, hphase⟩

/-- **The loop never gets stuck**: the worker can send the rest and finish,
and then there is a way to the end. -/
theorem exists_steps_returned (l : Loop) : ∃ n, Steps l n ∧ n.phase = .returned := by
  obtain ⟨m, hsent, hunsent⟩ := exists_steps_sent l
  obtain ⟨n, hsteps, hn⟩ := exists_steps_of_finished (l := { m with finished := true }) rfl
  exact ⟨n, (hsent.tail (.finish hunsent)).trans hsteps, hn⟩

/-! ## The whole run -/

/-- **No message is lost, told twice or out of order.** However the sends of
the worker and its end fall between the steps of the loop: when the loop has
returned, the messages shown are those sent, in the order of sending, and it
has failed exactly when one of them is an error. And from wherever a run has
come, the loop can return. -/
theorem messages_shown (h : Steps { unsent := sent } l) :
    (l.phase = .returned →
      l.printer.printed = sent ∧ (l.printer.failed = true ↔ ∃ e, Message.error e ∈ sent)) ∧
    ∃ n, Steps l n ∧ n.phase = .returned := by
  refine ⟨?_, exists_steps_returned l⟩
  intro hphase
  rw [(sound_of_steps h).printer_eq hphase]
  refine ⟨Printer.printed_foldl_print {} sent, ?_⟩
  rw [Printer.failed_foldl_print, Bool.false_or, List.any_eq_true]
  constructor
  · rintro ⟨msg, hmem, herror⟩
    cases msg with
    | error e => exact ⟨e, hmem⟩
    | starting | event | goodbye => cases herror
  · rintro ⟨e, hmem⟩
    exact ⟨.error e, hmem, rfl⟩

/-- A worker that sends an error and finishes while the loop, which has shown
one message, looks whether it has. -/
theorem messages_shown_late :
    let sent : List Message :=
      [.starting 1, .event (.skipped "a"), .error (.streamingNotSupported "b")]
    let l : Loop :=
      { unsent := [], finished := true, phase := .returned, printer := ⟨sent, true⟩ }
    Steps { unsent := sent } l ∧ l.phase = .returned ∧
      (l.printer.printed = sent ∧ (l.printer.failed = true ↔ ∃ e, Message.error e ∈ sent)) := by
  intro sent l
  have hsteps : Steps { unsent := sent } l :=
    .tail (.tail (.tail (.tail (.tail (.tail (.tail (.tail (.tail (.refl _)
      (.send rfl)) (.receive rfl rfl)) (.send rfl)) (.send rfl)) (.finish rfl)) (.drain rfl rfl))
      (.take rfl rfl)) (.take rfl rfl)) (.leave rfl rfl)
  exact ⟨hsteps, rfl, (messages_shown hsteps).1 rfl⟩

/-! ## The program -/

section Program

variable {disk : Disk} {cwd : Disk.Place} {a : Arguments}

/-- Where the worker carries out a command line, the loop leaves the printer
as if the host had told it everything itself. -/
theorem printer_eq_after
    (h : Steps { unsent := (World.after { disk, cwd } a).printer.printed } l)
    (hphase : l.phase = .returned) : l.printer = (World.after { disk, cwd } a).printer := by
  obtain ⟨ms, hms⟩ := World.exists_printer_after { disk, cwd } a
  have hprinted : (World.after { disk, cwd } a).printer.printed = ms := by
    rw [hms, Printer.printed_foldl_print, List.nil_append]
  rw [(sound_of_steps h).printer_eq hphase, hprinted, hms]

/-- **From the command line to the exit status.** The worker carries out a
command line and sends what the host tells, and the loop shows it. However
the two interleave, the loop can return; and when it has, the user has been
told what the work came to, and the exit status is one exactly if it came to
an error. -/
theorem shown_of_command_line
    (h : Steps { unsent := (World.after { disk, cwd } a).printer.printed } l) :
    (∃ n, Steps l n ∧ n.phase = .returned) ∧
    (l.phase = .returned →
      (∀ e, World.configured { disk, cwd } a = .error e →
        l.printer.printed = [.error e] ∧ l.printer.status = 1) ∧
      ∀ s, World.configured { disk, cwd } a = .ok s →
        ∃ events result outcome, World.Carried { disk, cwd } a s events result outcome ∧
          l.printer.printed =
            .starting a.files.length :: events.map .event ++ [.ending outcome] ∧
          (l.printer.status = 1 ↔ ∃ e, outcome = .error e)) := by
  refine ⟨exists_steps_returned l, fun hphase => ?_⟩
  rw [printer_eq_after h hphase]
  refine ⟨?_, ?_⟩
  · intro e he
    rw [World.after_of_configured_error he]
    exact ⟨rfl, rfl⟩
  · intro s hs
    obtain ⟨events, result, outcome, hcarried⟩ := World.exists_carried rfl hs
    exact ⟨events, result, outcome, hcarried, hcarried.printed, hcarried.status_iff⟩

end Program

end Loop

end Marginalia
