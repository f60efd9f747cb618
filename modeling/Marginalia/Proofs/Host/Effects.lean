import Marginalia.World

/-!
# What the host does to a world

The host works in any surroundings; here it works in a world, which is a
value. Each of its parts then has an equation: what it answers with and
the world that it leaves. Most parts only look at the world or tell it
something (`told`), and telling changes nothing that is looked at. Only
`stored` changes the disk.
-/

namespace Marginalia

/-! ## Printed messages -/

namespace Printer

theorem printed_foldl_print (p : Printer) (ms : List Message) :
    (ms.foldl print p).printed = p.printed ++ ms := by
  induction ms generalizing p with
  | nil => exact (List.append_nil _).symm
  | cons m ms ih => rw [List.foldl_cons, ih, print, List.append_assoc, List.singleton_append]

/-- A printer has failed once it has printed an error. -/
theorem failed_foldl_print (p : Printer) (ms : List Message) :
    (ms.foldl print p).failed = (p.failed || ms.any Message.isError) := by
  induction ms generalizing p with
  | nil => simp
  | cons m ms ih => rw [List.foldl_cons, ih, print, List.any_cons, Bool.or_assoc]

theorem status_eq_one_iff (p : Printer) : p.status = 1 ↔ p.failed = true := by
  unfold status
  cases p.failed <;> decide

end Printer

/-- The message that work ends with. -/
def Message.ending : Except Error Unit → Message
  | .ok () => goodbye
  | .error e => error e

theorem Message.isError_ending (outcome : Except Error Unit) :
    (ending outcome).isError = true ↔ ∃ e, outcome = .error e := by
  cases outcome <;> simp [ending, isError]

/-! ## A world, looked at and told something -/

namespace World

/-- The world after it was told some messages. -/
def told (w : World) (ms : List Message) : World :=
  { w with printer := ms.foldl Printer.print w.printer }

@[simp] theorem told_disk (w : World) (ms : List Message) : (w.told ms).disk = w.disk := rfl

@[simp] theorem told_cwd (w : World) (ms : List Message) : (w.told ms).cwd = w.cwd := rfl

@[simp] theorem told_stdout (w : World) (ms : List Message) : (w.told ms).stdout = w.stdout := rfl

theorem told_append (w : World) (ms ns : List Message) :
    w.told (ms ++ ns) = (w.told ms).told ns := by
  rw [told, List.foldl_append]
  rfl

/-- The settings of the file that a command line names, or the defaults
where it names none. -/
def loaded (w : World) (a : Arguments) : Except Error Settings :=
  match a.config with
  | none => .ok {}
  | some path =>
    match w.text path with
    | .error fault => .error (.disk fault)
    | .ok text => (Settings.ofText text).mapError .badSettings

/-- The settings that a command line asks for. What it says itself goes
before what its file says, notes are announced where either asks for it,
and all else is left to the file. -/
def configured (w : World) (a : Arguments) : Except Error Settings :=
  (w.loaded a).map fun s =>
    { fileName := a.fileName.getD s.fileName
      padding := a.padding.getD s.padding
      newLine := s.newLine
      verbose := s.verbose || a.verbose
      noteHook := s.noteHook
      headerHook := s.headerHook }

/-- The directory that the files of a command line are looked for in. -/
def baseOf (w : World) (a : Arguments) : Path :=
  a.base.getD w.workingDirectory

/-- The file that a path of the command line leads to. -/
def source (w : World) (base p : Path) : Except Error SourceFile :=
  ((w.content (base.join p)).map (⟨base, base.join p, ·⟩)).mapError .disk

/-- Makes sure of the directory that a report belongs in. -/
def sheltered (w : World) (report : Artifact) : Except Disk.Fault Unit × World :=
  match report.path.parent? with
  | some parent => w.makeDirectories parent.ancestors
  | none => (.ok (), w)

/-- Writes a report: what this gives, and the world after it. -/
def stored (w : World) (report : Artifact) : Except Error Unit × World :=
  match w.sheltered report with
  | (.error fault, w') => (.error (.disk fault), w')
  | (.ok (), w') =>
    let written := w'.writeText report.path report.contents
    (written.1.mapError .disk, written.2)

/-- **Telling and writing do not meet.** -/
theorem stored_told (w : World) (ms : List Message) (report : Artifact) :
    (w.told ms).stored report = ((w.stored report).1, (w.stored report).2.told ms) := by
  have hsheltered : (w.told ms).sheltered report =
      ((w.sheltered report).1, (w.sheltered report).2.told ms) := by
    unfold sheltered
    cases report.path.parent? <;> rfl
  have hwrite (w : World) : (w.told ms).writeText report.path report.contents =
      ((w.writeText report.path report.contents).1,
        (w.writeText report.path report.contents).2.told ms) := by
    unfold writeText
    rw [told_disk, told_cwd]
    cases w.disk.write w.cwd report.path (Utf8.encode report.contents.toList) <;> rfl
  unfold stored
  rw [hsheltered]
  rcases w.sheltered report with ⟨prepared, w'⟩
  cases prepared with
  | error fault => rfl
  | ok => simp only [hwrite]

/-- Writing changes nothing but the disk. -/
theorem stored_eq (w : World) (report : Artifact) :
    (w.stored report).2 = { w with disk := (w.stored report).2.disk } := by
  have hsheltered : ∃ disk, (w.sheltered report).2 = { w with disk } := by
    unfold sheltered
    cases report.path.parent? with
    | none => exact ⟨w.disk, rfl⟩
    | some parent => exact ⟨_, rfl⟩
  have hwrite (w : World) :
      ∃ disk, (w.writeText report.path report.contents).2 = { w with disk } := by
    unfold writeText
    split
    · exact ⟨_, rfl⟩
    · exact ⟨w.disk, rfl⟩
  obtain ⟨disk, hdisk⟩ := hsheltered
  unfold stored
  rcases hprepared : w.sheltered report with ⟨prepared, w'⟩
  obtain rfl : w' = { w with disk } := by rw [← hdisk, hprepared]
  cases prepared with
  | error fault => rfl
  | ok =>
    obtain ⟨disk', hdisk'⟩ := hwrite { w with disk }
    simp only [hdisk']

/-- What becomes of the result of a run: a report is printed or written. -/
def delivered (w : World) (a : Arguments) :
    Except Error (Option Artifact) → Except Error Unit × World
  | .error e => (.error e, w)
  | .ok none => (.ok (), w)
  | .ok (some report) =>
    if a.stdout then (.ok (), { w with stdout := w.stdout ++ report.contents })
    else w.stored report

section Delivered

variable (w : World) {a : Arguments}

theorem delivered_of_stdout (h : a.stdout = true) (report : Artifact) :
    w.delivered a (.ok (some report)) =
      (.ok (), { w with stdout := w.stdout ++ report.contents }) :=
  if_pos h

theorem delivered_of_not_stdout (h : a.stdout = false) (report : Artifact) :
    w.delivered a (.ok (some report)) = w.stored report :=
  if_neg (by simp [h])

theorem delivered_told (ms : List Message) (result : Except Error (Option Artifact)) :
    (w.told ms).delivered a result =
      ((w.delivered a result).1, (w.delivered a result).2.told ms) := by
  match result with
  | .error e => rfl
  | .ok none => rfl
  | .ok (some report) =>
    cases ha : a.stdout with
    | true =>
      rw [delivered_of_stdout _ ha, delivered_of_stdout _ ha]
      rfl
    | false => rw [delivered_of_not_stdout _ ha, delivered_of_not_stdout _ ha, stored_told]

theorem delivered_printer (result : Except Error (Option Artifact)) :
    (w.delivered a result).2.printer = w.printer := by
  match result with
  | .error e => rfl
  | .ok none => rfl
  | .ok (some report) =>
    cases ha : a.stdout with
    | true => rw [delivered_of_stdout _ ha]
    | false => rw [delivered_of_not_stdout _ ha, stored_eq]

end Delivered

end World

/-! ## The parts of the host -/

namespace Host

/-- A part of the host's work, in a world. -/
abbrev Job (α : Type) := ExceptT Error (StateM World) α

/-- What a job answers with in a world, and the world after it. -/
def Job.at {α : Type} (job : Job α) (w : World) : Except Error α × World :=
  job.run w

/-- **One job after another.** The first error ends both. -/
theorem at_bind {α β : Type} (x : Job α) (f : α → Job β) (w : World) :
    Job.at (x >>= f) w =
      match x.at w with
      | (.ok a, w') => (f a).at w'
      | (.error e, w') => (.error e, w') := by
  have hbind : Job.at (x >>= f) w = ExceptT.bindCont f (x.at w).1 (x.at w).2 := rfl
  rw [hbind]
  rcases x.at w with ⟨result, w'⟩
  cases result <;> rfl

/-- What the disk gives is passed on as it is. -/
theorem mapError_disk_ok {α : Type} (a : α) : Except.mapError Error.disk (.ok a) = .ok a :=
  rfl

section Parts

variable (w₀ w : World)

theorem settings_at (a : Arguments) :
    Job.at (settings w₀.surroundings a) w = (w.configured a, w) := by
  unfold settings World.configured World.loaded
  cases a.config with
  | none => rfl
  | some path =>
    have hread : Job.at (onDisk (w₀.surroundings.readText path)) w =
        ((w.text path).mapError .disk, w) := rfl
    simp only
    rw [at_bind, hread]
    cases w.text path with
    | error fault => rfl
    | ok text =>
      simp only [mapError_disk_ok]
      cases Settings.ofText text <;> rfl

/-- By induction on the events: they are told one by one. -/
theorem tell_at (events : List Event) :
    Job.at (forIn events PUnit.unit fun e _ => do
        (w₀.surroundings.tell (.event e) : Job Unit)
        pure (ForInStep.yield PUnit.unit)) w =
      (.ok PUnit.unit, w.told (events.map .event)) := by
  induction events generalizing w with
  | nil => rfl
  | cons e events ih =>
    rw [List.forIn_cons]
    exact ih _

/-- **Heeding a call** tells its events and passes its result on. -/
theorem heed_at {α : Type} (step : Step α) :
    Job.at (heed w₀.surroundings step) w =
      (step.result.map (step.run, ·), w.told (step.events.map .event)) := by
  rw [heed, at_bind, tell_at]
  cases step.result <;> rfl

/-- **A file is read and submitted before the next one is looked at.** -/
theorem submitFiles_cons_at (base : Path) (r : Run) (p : Path) (rest : List Path) :
    Job.at (submitFiles w₀.surroundings base r (p :: rest)) w =
      match w.source base p with
      | .error e => (.error e, w)
      | .ok f =>
        match (r.submit f).result with
        | .error e => (.error e, w.told ((r.submit f).events.map .event))
        | .ok () =>
          Job.at (submitFiles w₀.surroundings base (r.submit f).run rest)
            (w.told ((r.submit f).events.map .event)) := by
  have hread : Job.at (onDisk (w₀.surroundings.readContent (base.join p))) w =
      ((w.content (base.join p)).mapError .disk, w) := rfl
  rw [submitFiles, at_bind, hread, World.source]
  cases w.content (base.join p) with
  | error fault => rfl
  | ok content =>
    simp only [mapError_disk_ok, Except.map]
    rw [at_bind, heed_at]
    cases (r.submit ⟨base, base.join p, content⟩).result <;> rfl

/-- **Writing a report** is all that touches the disk. -/
theorem writeReport_at (report : Artifact) :
    Job.at (writeReport w₀.surroundings report) w = w.stored report := by
  have hwrite (w : World) :
      Job.at (onDisk (w₀.surroundings.writeText report.path report.contents)) w =
        ((w.writeText report.path report.contents).1.mapError .disk,
          (w.writeText report.path report.contents).2) := rfl
  unfold writeReport World.stored World.sheltered
  cases report.path.parent? with
  | none => exact hwrite w
  | some parent =>
    have hmake : Job.at (onDisk (w₀.surroundings.makeDirectories parent.ancestors)) w =
        ((w.makeDirectories parent.ancestors).1.mapError .disk,
          (w.makeDirectories parent.ancestors).2) := rfl
    simp only
    rw [at_bind, hmake]
    rcases w.makeDirectories parent.ancestors with ⟨made, w'⟩
    cases made with
    | error fault => rfl
    | ok => exact hwrite w'

end Parts

end Host

end Marginalia
