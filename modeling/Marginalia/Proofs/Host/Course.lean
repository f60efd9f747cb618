import Marginalia.Proofs.Host.Effects
import Marginalia.Proofs.Run.Batch

/-!
# What a command line comes to

The host reads a file and submits it before it looks at the next one, so
that what is wrong with the files is found in the order of the command
line, whatever it is. `Course` says how far the host comes, by the first
file that cannot be read or is refused, and `exists_course_work` that it
does come so far. `Carried` puts the whole together: what is told, the exit
status, and what is left on the disk and on standard output.

Where all files can be read, the host is a driver of the run as
`Run.batch` is, and both come to the same (`Course.eq_batch`).
-/

namespace Marginalia

namespace World

/-- **Files that are all accepted.** Each is read from `base` and submitted
in turn; this takes the run `r` to the last one, and `events` is what is
heard of it. -/
inductive Accepts (w : World) (base : Path) : Run → List Path → Run → List Event → Prop
  | nil (r : Run) : Accepts w base r [] r []
  | cons {r last : Run} {p : Path} {rest : List Path} {f : SourceFile} {events : List Event} :
      w.source base p = .ok f → (r.submit f).result = .ok () →
      Accepts w base (r.submit f).run rest last events →
      Accepts w base r (p :: rest) last ((r.submit f).events ++ events)

/-- **How the files of a command line are worked on**, with the events and
the result of it. -/
inductive Course (w : World) (base : Path) (r : Run) (paths : List Path) :
    List Event → Except Error (Option Artifact) → Prop
  /-- The first file that is not accepted cannot be read. -/
  | unreadable {before after : List Path} {p : Path} {last : Run} {events : List Event}
      {e : Error} :
      paths = before ++ p :: after → Accepts w base r before last events →
      w.source base p = .error e → Course w base r paths events (.error e)
  /-- The first file that is not accepted is refused by the run. -/
  | refused {before after : List Path} {p : Path} {last : Run} {events : List Event}
      {f : SourceFile} {e : Error} :
      paths = before ++ p :: after → Accepts w base r before last events →
      w.source base p = .ok f → (last.submit f).result = .error e →
      Course w base r paths (events ++ (last.submit f).events) (.error e)
  /-- All files are accepted, and the batch is ended. -/
  | ended {last : Run} {events : List Event} :
      Accepts w base r paths last events →
      Course w base r paths (events ++ last.finish.events) last.finish.result

section Course

variable {w : World} {base : Path} {r last : Run} {paths : List Path} {events : List Event}
variable {result : Except Error (Option Artifact)}

/-- A file that is accepted comes before the course of the others. -/
theorem Course.cons {p : Path} {f : SourceFile} (hread : w.source base p = .ok f)
    (hok : (r.submit f).result = .ok ()) (h : Course w base (r.submit f).run paths events result) :
    Course w base r (p :: paths) ((r.submit f).events ++ events) result := by
  cases h with
  | unreadable hpaths haccepts herror =>
    exact .unreadable (by rw [hpaths, List.cons_append]) (.cons hread hok haccepts) herror
  | refused hpaths haccepts hsource herror =>
    rw [← List.append_assoc]
    exact .refused (by rw [hpaths, List.cons_append]) (.cons hread hok haccepts) hsource herror
  | ended haccepts =>
    rw [← List.append_assoc]
    exact .ended (.cons hread hok haccepts)

/-! ## The course and the batch -/

/-- What is accepted can be read. -/
theorem Accepts.exists_files (h : Accepts w base r paths last events) :
    ∃ files : List SourceFile, paths.map (w.source base) = files.map .ok := by
  induction h with
  | nil => exact ⟨[], rfl⟩
  | @cons _ _ p _ f _ hread _ _ ih =>
    obtain ⟨files, hfiles⟩ := ih
    exact ⟨f :: files, by rw [List.map_cons, List.map_cons, hread, hfiles]⟩

/-- Files that are accepted one by one are accepted together. -/
theorem Accepts.submitAll_eq (h : Accepts w base r paths last events) {files : List SourceFile}
    (hfiles : paths.map (w.source base) = files.map .ok) :
    r.submitAll files = { run := last, result := .ok (), events } := by
  induction h generalizing files with
  | nil =>
    obtain rfl : files = [] := by simpa using hfiles
    rfl
  | @cons _ _ p _ f _ hread hok _ ih =>
    cases files with
    | nil => simp at hfiles
    | cons f' files =>
      rw [List.map_cons, List.map_cons, hread, List.cons.injEq, Except.ok.injEq] at hfiles
      obtain ⟨rfl, hfiles⟩ := hfiles
      rw [Run.submitAll_cons_of_ok hok, ih hfiles]

/-- **Where all files can be read, the course is that of the batch.** -/
theorem Course.eq_batch {s : Settings} (h : Course w base { settings := s } paths events result)
    {files : List SourceFile} (hfiles : paths.map (w.source base) = files.map .ok) :
    result = (Run.batch s files).result ∧ events = (Run.batch s files).events := by
  -- a file in the middle is one of those that were read
  have hsplit {before after : List Path} {p : Path} (hpaths : paths = before ++ p :: after) :
      ∃ fs f gs, files = fs ++ f :: gs ∧ before.map (w.source base) = fs.map .ok ∧
        w.source base p = .ok f := by
    rw [hpaths, List.map_append, List.map_cons] at hfiles
    obtain ⟨fs, rest, rfl, hfs, hrest⟩ := List.append_eq_map_iff.mp hfiles
    obtain ⟨f, gs, rfl, hf, -⟩ := List.map_eq_cons_iff.mp hrest
    exact ⟨fs, f, gs, rfl, hfs.symm, hf.symm⟩
  cases h with
  | unreadable hpaths _ herror =>
    obtain ⟨_, f, _, _, _, hf⟩ := hsplit hpaths
    rw [herror] at hf
    simp at hf
  | @refused _ _ _ _ _ f e hpaths haccepts hsource herror =>
    obtain ⟨fs, f', gs, rfl, hfs, hf⟩ := hsplit hpaths
    rw [hsource, Except.ok.injEq] at hf
    subst hf
    have hall := haccepts.submitAll_eq hfs
    have hok : (Run.submitAll { settings := s } fs).result = .ok () := by rw [hall]
    rw [Run.batch, Run.submitAll_append_of_ok hok, hall, Run.submitAll_cons_of_error herror]
    simp only [herror, and_self]
  | ended haccepts =>
    rw [Run.batch, haccepts.submitAll_eq hfiles]
    exact ⟨rfl, rfl⟩

end Course

/-! ## The host keeps the course -/

open Host

/-- By induction on the files: the host comes as far as the course, with
the run that is left to be ended or with the error. -/
theorem exists_course_submitFiles (w₀ w : World) (base : Path) (paths : List Path) (r : Run)
    (ms : List Message) :
    ∃ events passed,
      Job.at (submitFiles w₀.surroundings base r paths) (w.told ms) =
        (passed, w.told (ms ++ events.map .event)) ∧
      (∀ e, passed = .error e → Course w base r paths events (.error e)) ∧
      ∀ last, passed = .ok last →
        Course w base r paths (events ++ last.finish.events) last.finish.result := by
  induction paths generalizing r ms with
  | nil =>
    refine ⟨[], .ok r, by rw [List.map_nil, List.append_nil]; rfl, by simp, ?_⟩
    intro last hlast
    obtain rfl := Except.ok.inj hlast
    exact .ended (.nil r)
  | cons p rest ih =>
    have htold : (w.told ms).source base p = w.source base p := rfl
    rw [submitFiles_cons_at, htold]
    cases hsource : w.source base p with
    | error e =>
      refine ⟨[], .error e, by rw [List.map_nil, List.append_nil], ?_, by simp⟩
      intro e' he
      obtain rfl := Except.error.inj he
      exact .unreadable (List.nil_append (p :: rest)).symm (.nil r) hsource
    | ok f =>
      simp only
      rw [← told_append]
      cases hsubmit : (r.submit f).result with
      | error e =>
        refine ⟨(r.submit f).events, .error e, rfl, ?_, by simp⟩
        intro e' he
        obtain rfl := Except.error.inj he
        exact .refused (List.nil_append (p :: rest)).symm (.nil r) hsource hsubmit
      | ok =>
        obtain ⟨events, passed, hat, herror, hok⟩ :=
          ih (r.submit f).run (ms ++ (r.submit f).events.map .event)
        refine ⟨(r.submit f).events ++ events, passed, ?_, ?_, ?_⟩
        · rw [List.map_append, ← List.append_assoc]
          exact hat
        · intro e he
          exact (herror e he).cons hsource hsubmit
        · intro last hlast
          rw [List.append_assoc]
          exact (hok last hlast).cons hsource hsubmit

/-- The work once the settings are had: the number of files is told first. -/
theorem work_at_of_configured {w : World} {a : Arguments} {s : Settings}
    (hs : w.configured a = .ok s) :
    Job.at (work w.surroundings a) w =
      Job.at (do
        let r ← submitFiles w.surroundings (w.baseOf a) { settings := s } a.files
        let (_, artifact) ← heed w.surroundings r.finish
        match artifact with
        | none => return
        | some report =>
          if a.stdout then w.surroundings.print report.contents
          else writeReport w.surroundings report) (w.told [.starting a.files.length]) := by
  rw [work, at_bind, settings_at, hs]
  rfl

/-- **The host keeps the course**, and delivers what comes of it. -/
theorem exists_course_work (w : World) {a : Arguments} {s : Settings}
    (hs : w.configured a = .ok s) :
    ∃ events result, Course w (w.baseOf a) { settings := s } a.files events result ∧
      Job.at (work w.surroundings a) w =
        ((w.delivered a result).1,
          (w.delivered a result).2.told (.starting a.files.length :: events.map .event)) := by
  obtain ⟨events, passed, hat, herror, hok⟩ := exists_course_submitFiles w w (w.baseOf a) a.files
    { settings := s } [.starting a.files.length]
  rw [work_at_of_configured hs, at_bind, hat]
  cases passed with
  | error e => exact ⟨events, .error e, herror e rfl, rfl⟩
  | ok last =>
    refine ⟨events ++ last.finish.events, last.finish.result, hok last rfl, ?_⟩
    simp only
    rw [at_bind, heed_at, ← told_append, List.append_assoc, ← List.map_append,
      List.singleton_append]
    rcases last.finish.result with e | _ | report
    · rfl
    · rfl
    · rw [← delivered_told]
      cases ha : a.stdout with
      | true =>
        rw [delivered_of_stdout _ ha]
        rfl
      | false =>
        rw [delivered_of_not_stdout _ ha]
        exact writeReport_at w _ report

/-- The world after a command line: the work, and what is told of its end. -/
theorem after_eq (w : World) (a : Arguments) :
    w.after a =
      (Job.at (work w.surroundings a) w).2.told
        [.ending (Job.at (work w.surroundings a) w).1] := by
  rcases hwork : Job.at (work w.surroundings a) w with ⟨result, w'⟩
  have hrun : (work w.surroundings a).run.run w = (result, w') := hwork
  rw [after, Host.run, StateT.run_bind, hrun]
  cases result <;> rfl

/-- Without settings nothing is worked on. -/
theorem after_of_configured_error {w : World} {a : Arguments} {e : Error}
    (h : w.configured a = .error e) : w.after a = w.told [.error e] := by
  have hwork : Job.at (work w.surroundings a) w = (.error e, w) := by
    rw [work, at_bind, settings_at, h]
  rw [after_eq, hwork]
  rfl

/-! ## The whole of it -/

/-- **What carrying out a command line comes to** in a world, once there
are settings: the run over the files has the given events and result, and
all of the work the outcome. -/
structure Carried (w : World) (a : Arguments) (s : Settings) (events : List Event)
    (result : Except Error (Option Artifact)) (outcome : Except Error Unit) : Prop where
  /-- The files are worked on in order, up to the first one that cannot be
  read or is refused, or else to the end of the batch. -/
  course : w.Course (w.baseOf a) { settings := s } a.files events result
  /-- Told are the number of files, the events of the run, and the end. -/
  printed : (w.after a).printer.printed =
    .starting a.files.length :: events.map .event ++ [.ending outcome]
  /-- The exit status is one if the end is an error. -/
  status_iff : (w.after a).printer.status = 1 ↔ ∃ e, outcome = .error e
  /-- An error of the run is the error of the whole, and leaves everything
  as it was. -/
  failed : ∀ e, result = .error e →
    outcome = .error e ∧ (w.after a).disk = w.disk ∧ (w.after a).stdout = w.stdout
  /-- And so does a run without a report. -/
  nothing : result = .ok none →
    outcome = .ok () ∧ (w.after a).disk = w.disk ∧ (w.after a).stdout = w.stdout
  /-- A report that is to be printed is printed. -/
  shown : ∀ report, result = .ok (some report) → a.stdout = true →
    outcome = .ok () ∧ (w.after a).disk = w.disk ∧
      (w.after a).stdout = w.stdout ++ report.contents
  /-- Any other is written, and only then the outcome is that of writing. -/
  stored : ∀ report, result = .ok (some report) → a.stdout = false →
    outcome = (w.stored report).1 ∧ (w.after a).disk = (w.stored report).2.disk ∧
      (w.after a).stdout = w.stdout
  /-- What is printed or written is the report of files that were all read
  and accepted. -/
  reported : (w.after a).disk ≠ w.disk ∨ (w.after a).stdout ≠ w.stdout →
    ∃ files report, a.files.map (w.source (w.baseOf a)) = files.map .ok ∧
      (Run.submitAll { settings := s } files).result = .ok () ∧
      (Run.submitAll { settings := s } files).run.finish.result = .ok (some report)
  /-- Where all files can be read, the run is that of the batch. -/
  batch : ∀ files, a.files.map (w.source (w.baseOf a)) = files.map .ok →
    result = (Run.batch s files).result ∧ events = (Run.batch s files).events

/-- A course with a result went through all files. -/
theorem Course.exists_of_ok {w : World} {base : Path} {r : Run} {paths : List Path}
    {events : List Event} {artifact : Option Artifact}
    (h : Course w base r paths events (.ok artifact)) :
    ∃ files : List SourceFile, paths.map (w.source base) = files.map .ok ∧
      (r.submitAll files).result = .ok () ∧
      (r.submitAll files).run.finish.result = .ok artifact := by
  generalize hresult : Except.ok artifact = result at h
  cases h with
  | unreadable | refused => simp at hresult
  | ended haccepts =>
    obtain ⟨files, hfiles⟩ := haccepts.exists_files
    refine ⟨files, hfiles, ?_, ?_⟩
    · rw [haccepts.submitAll_eq hfiles]
    · rw [haccepts.submitAll_eq hfiles]

theorem carried_of_course {w : World} {a : Arguments} {s : Settings} {events : List Event}
    {result : Except Error (Option Artifact)} (hfresh : w.printer = {})
    (hcourse : w.Course (w.baseOf a) { settings := s } a.files events result)
    (hafter : w.after a = (w.delivered a result).2.told
      (.starting a.files.length :: events.map .event ++ [.ending (w.delivered a result).1])) :
    w.Carried a s events result (w.delivered a result).1 := by
  have hdisk : (w.after a).disk = (w.delivered a result).2.disk := by rw [hafter, told_disk]
  have hstdout : (w.after a).stdout = (w.delivered a result).2.stdout := by
    rw [hafter, told_stdout]
  have hprinter : (w.after a).printer = (Message.starting a.files.length :: events.map .event ++
      [Message.ending (w.delivered a result).1]).foldl Printer.print {} := by
    rw [hafter, told, delivered_printer, hfresh]
  have huntouched (h : (w.delivered a result).2 = w) :
      (w.after a).disk = w.disk ∧ (w.after a).stdout = w.stdout := by
    rw [hdisk, hstdout, h]
    exact ⟨rfl, rfl⟩
  refine
    { course := hcourse
      printed := ?_
      status_iff := ?_
      failed := ?_
      nothing := ?_
      shown := ?_
      stored := ?_
      reported := ?_
      batch := fun files => hcourse.eq_batch }
  · rw [hprinter, Printer.printed_foldl_print, List.nil_append]
  · -- of all messages only the last one can be an error
    have hevents : (events.map Message.event).any Message.isError = false := by
      simp [Message.isError]
    rw [Printer.status_eq_one_iff, hprinter, Printer.failed_foldl_print, List.any_append,
      List.any_cons, hevents, ← Message.isError_ending]
    simp [Message.isError]
  · rintro e rfl
    exact ⟨rfl, huntouched rfl⟩
  · rintro rfl
    exact ⟨rfl, huntouched rfl⟩
  · rintro report rfl ha
    rw [hdisk, hstdout, delivered_of_stdout _ ha]
    exact ⟨rfl, rfl, rfl⟩
  · rintro report rfl ha
    rw [hdisk, hstdout, delivered_of_not_stdout _ ha]
    refine ⟨rfl, rfl, ?_⟩
    rw [stored_eq]
  · intro hchanged
    rcases result with e | _ | report
    · obtain ⟨hdisk, hstdout⟩ := huntouched rfl
      exact (hchanged.elim (· hdisk) (· hstdout)).elim
    · obtain ⟨hdisk, hstdout⟩ := huntouched rfl
      exact (hchanged.elim (· hdisk) (· hstdout)).elim
    · obtain ⟨files, hfiles, hok, hfinish⟩ := hcourse.exists_of_ok
      exact ⟨files, report, hfiles, hok, hfinish⟩

/-- The world after a command line with settings: what the files come to is
delivered, and everything is told. -/
theorem exists_course_after (w : World) {a : Arguments} {s : Settings}
    (hs : w.configured a = .ok s) :
    ∃ events result, Course w (w.baseOf a) { settings := s } a.files events result ∧
      w.after a = (w.delivered a result).2.told
        (.starting a.files.length :: events.map .event ++ [.ending (w.delivered a result).1]) := by
  obtain ⟨events, result, hcourse, hwork⟩ := exists_course_work w hs
  refine ⟨events, result, hcourse, ?_⟩
  rw [after_eq, hwork, ← told_append]

/-- **With settings the work is carried out.** -/
theorem exists_carried {w : World} {a : Arguments} {s : Settings} (hfresh : w.printer = {})
    (hs : w.configured a = .ok s) :
    ∃ events result outcome, Carried w a s events result outcome := by
  obtain ⟨events, result, hcourse, hafter⟩ := exists_course_after w hs
  exact ⟨events, result, _, carried_of_course hfresh hcourse hafter⟩

/-- Nothing reaches the printer but what is told. -/
theorem exists_printer_after (w : World) (a : Arguments) :
    ∃ ms : List Message, (w.after a).printer = ms.foldl Printer.print w.printer := by
  cases hs : w.configured a with
  | error e => exact ⟨[.error e], by rw [after_of_configured_error hs]; rfl⟩
  | ok s =>
    obtain ⟨events, result, -, hafter⟩ := exists_course_after w hs
    exact ⟨_, by rw [hafter, told, delivered_printer]⟩

/-- **A command line is carried out faithfully**, on any disk and from any
place. Where its settings cannot be had, that error is all that is told,
and nothing else happens. Otherwise the host is a driver of the run and no
more, with the settings of the file where the command line does not say
otherwise. -/
theorem carried (disk : Disk) (cwd : Disk.Place) (a : Arguments) :
    (∀ e, configured { disk, cwd } a = .error e →
      (after { disk, cwd } a).printer.printed = [.error e] ∧
        (after { disk, cwd } a).printer.status = 1 ∧
        (after { disk, cwd } a).disk = disk ∧ (after { disk, cwd } a).stdout = "") ∧
    ∀ s, configured { disk, cwd } a = .ok s →
      ∃ events result outcome, Carried { disk, cwd } a s events result outcome := by
  refine ⟨?_, ?_⟩
  · intro e he
    rw [after_of_configured_error he]
    exact ⟨rfl, rfl, rfl, rfl⟩
  · exact fun s hs => exists_carried rfl hs

/-- A result that is there, read off without the errors that there are. -/
theorem eq_ok_of_toOption {ε α : Type} {result : Except ε α} {a : α}
    (h : result.toOption = some a) : result = .ok a := by
  cases result with
  | error e => cases h
  | ok b => exact congrArg _ (Option.some.inj h)

/-- A settings file with flags over it: the name and the padding are those
of the flags, the line end is that of the file, and the report is written
with them. -/
theorem carried_overruled :
    let file : SourceFile :=
      ⟨⟨"/w"⟩, ⟨"/w/a.yml"⟩, .buffered (Utf8.encode "# TODO: x".toList)⟩
    let disk : Disk := ⟨[(["w".toList], .directory),
      (["w".toList, "a.yml".toList], .file (Utf8.encode "# TODO: x".toList)),
      (["w".toList, "s.json".toList], .file (Utf8.encode
        "\x7b\"fileName\":\"A.md\",\"padding\":3,\"newLine\":\"\\r\\n\"\x7d".toList))]⟩
    let w : World := { disk, cwd := ["w".toList] }
    let a : Arguments :=
      { files := [⟨"a.yml"⟩], config := some ⟨"s.json"⟩, fileName := some "B.md",
        padding := some 0, verbose := true }
    let s : Settings := { fileName := "B.md", padding := 0, newLine := "\r\n", verbose := true }
    w.configured a = .ok s ∧
      ∃ events result outcome, Carried w a s events result outcome ∧
        w.source (w.baseOf a) ⟨"a.yml"⟩ = .ok file ∧
        events = [.found ⟨.todo, "x", "a.yml", 1⟩, .rendered 1 1] ∧ outcome = .ok () ∧
        (w.after a).disk.get? ["w".toList, "B.md".toList] = some (.file (Utf8.encode
          "# TODOs\r\n### a.yml\r\n- TODO (line 1): x\r\n".toList)) := by
  intro file disk w a s
  let report : Artifact :=
    ⟨⟨"/w"⟩, ⟨"B.md"⟩, "# TODOs\r\n### a.yml\r\n- TODO (line 1): x\r\n"⟩
  have hs : w.configured a = .ok s := by
    with_unfolding_all rfl
  have hread : w.source (w.baseOf a) ⟨"a.yml"⟩ = .ok file :=
    eq_ok_of_toOption (by decide +kernel)
  have hreport : (Run.batch s [file]).result = .ok (some report) :=
    eq_ok_of_toOption (by decide +kernel)
  have hevents : (Run.batch s [file]).events =
      [.found ⟨.todo, "x", "a.yml", 1⟩, .rendered 1 1] := by
    decide +kernel
  have hwritten : (w.stored report).1 = .ok () :=
    eq_ok_of_toOption (by decide +kernel)
  have hdisk : (w.stored report).2.disk.get? ["w".toList, "B.md".toList] =
      some (.file (Utf8.encode report.contents.toList)) := by
    decide +kernel
  obtain ⟨events, result, outcome, h⟩ := (carried disk ["w".toList] a).2 s hs
  obtain ⟨hresult, htold⟩ := h.batch [file] (congrArg (fun f => [f]) hread)
  obtain ⟨houtcome, hafter, -⟩ := h.stored report (hresult.trans hreport) rfl
  refine ⟨hs, events, result, outcome, h, hread, htold.trans hevents,
    houtcome.trans hwritten, ?_⟩
  rw [hafter]
  exact hdisk

end World

end Marginalia
