import Marginalia.Proofs.Report.Render

/-!
# What the hooks decide

All of a report but its title and its empty lines is written by hooks, or
by the defaults in their place. `calls` lists what they are asked, group
by group, and `layout` where the answers go. Rendering is a traversal
within a traversal, and either of them stops at a failure; together they
stop at the first call that fails (`failure?_render`), and where none
does the report is its layout, filled in (`render_of_answers`).
-/

namespace Marginalia.Report

/-! ## Failures of a traversal -/

section

variable {ε α β : Type}

/-- Why there is no result, if there is none. -/
def failure? (r : Except ε α) : Option ε :=
  if let .error e := r then some e else none

theorem failure?_eq_some_iff {r : Except ε α} {e : ε} : failure? r = some e ↔ r = .error e := by
  cases r <;> simp [failure?]

theorem failure?_eq_none_iff {r : Except ε α} : failure? r = none ↔ ∃ a, r = .ok a := by
  cases r <;> simp [failure?]

/-- **A traversal fails as the first element that fails.** -/
theorem failure?_mapM (f : α → Except ε β) (l : List α) :
    failure? (l.mapM f) = l.findSome? fun x => failure? (f x) := by
  induction l with
  | nil => rfl
  | cons x l ih =>
    rw [List.mapM_cons, List.findSome?_cons, ← ih]
    cases f x with
    | error e => rfl
    | ok y => cases l.mapM f <;> rfl

/-- And where none fails it gives all their results. -/
theorem mapM_eq_ok {f : α → Except ε β} {g : α → β} {l : List α}
    (h : ∀ x ∈ l, f x = .ok (g x)) : l.mapM f = .ok (l.map g) := by
  induction l with
  | nil => rfl
  | cons x l ih =>
    rw [List.forall_mem_cons] at h
    rw [List.mapM_cons, h.1, ih h.2]
    rfl

/-- A search through lists put together is a search for the list. -/
theorem findSome?_flatMap (p : β → Option ε) (f : α → List β) (l : List α) :
    (l.flatMap f).findSome? p = l.findSome? fun x => (f x).findSome? p := by
  induction l with
  | nil => rfl
  | cons x l ih =>
    rw [List.flatMap_cons, List.findSome?_append, ih, List.findSome?_cons]
    cases (f x).findSome? p <;> rfl

end

/-! ## The calls -/

/-- A call of a hook, with what the hook is shown. -/
inductive HookCall where
  | header (h : Header)
  | note (n : Note)

namespace HookCall

/-- The hook that is called. -/
def kind : HookCall → HookKind
  | header _ => .header
  | note _ => .note

/-- What a call is answered: the line, or why there is none. In place of
a missing hook the default answers. -/
def answer (s : Settings) : HookCall → Except String String
  | header h => (s.headerHook.getD fun h => .ok (defaultHeader h)) h
  | note n => (s.noteHook.getD fun n => .ok (defaultEntry n)) n

/-- The error that a call ends the rendering with, if it fails. -/
def refusal? (s : Settings) (c : HookCall) : Option Error :=
  (failure? (c.answer s)).map (.hookFailed c.kind)

theorem refusal?_eq_some_iff {s : Settings} {c : HookCall} {e : Error} :
    c.refusal? s = some e ↔
      ∃ reason, c.answer s = .error reason ∧ .hookFailed c.kind reason = e := by
  simp only [refusal?, Option.map_eq_some_iff, failure?_eq_some_iff]

theorem refusal?_eq_none_iff {s : Settings} {c : HookCall} :
    c.refusal? s = none ↔ ∃ line, c.answer s = .ok line := by
  rw [refusal?, Option.map_eq_none_iff, failure?_eq_none_iff]

end HookCall

/-- What is asked about a group: its header, then each of its notes. -/
def groupCalls (g : Group) : List HookCall :=
  .header ⟨g.file, g.notes.length⟩ :: g.notes.map .note

/-- What is asked about some notes, group by group. -/
def calls (notes : List Note) : List HookCall :=
  (Group.byFile notes).flatMap groupCalls

/-- The header line of a group is what its call is answered. -/
theorem headerLine_eq (s : Settings) (h : Header) :
    headerLine s h = ((HookCall.header h).answer s).mapError (.hookFailed .header) := by
  unfold headerLine HookCall.answer
  cases s.headerHook <;> rfl

/-- And so is the line of a note. -/
theorem entryLine_eq (s : Settings) (n : Note) :
    entryLine s n = ((HookCall.note n).answer s).mapError (.hookFailed .note) := by
  unfold entryLine HookCall.answer
  cases s.noteHook <;> rfl

/-! ## Where rendering fails -/

theorem failure?_headerLine (s : Settings) (h : Header) :
    failure? (headerLine s h) = (HookCall.header h).refusal? s := by
  rw [headerLine_eq, HookCall.refusal?]
  cases (HookCall.header h).answer s <;> rfl

theorem failure?_entryLine (s : Settings) (n : Note) :
    failure? (entryLine s n) = (HookCall.note n).refusal? s := by
  rw [entryLine_eq, HookCall.refusal?]
  cases (HookCall.note n).answer s <;> rfl

/-- **A group fails as the first of its calls that fails.** -/
theorem failure?_groupLines (s : Settings) (g : Group) :
    failure? (groupLines s g) = (groupCalls g).findSome? (HookCall.refusal? s) := by
  have hnotes : failure? (g.notes.mapM (entryLine s)) =
      (g.notes.map HookCall.note).findSome? (HookCall.refusal? s) := by
    rw [failure?_mapM, List.findSome?_map]
    simp only [failure?_entryLine]
    rfl
  rw [groupCalls, List.findSome?_cons, ← failure?_headerLine, ← hnotes, groupLines,
    Group.header]
  cases headerLine s ⟨g.file, g.notes.length⟩ with
  | error e => rfl
  | ok header => cases g.notes.mapM (entryLine s) <;> rfl

/-- **Rendering fails as the first call that fails**, of all calls of all
groups in their order. -/
theorem failure?_render (s : Settings) (notes : List Note) :
    failure? (render s notes) = (calls notes).findSome? (HookCall.refusal? s) := by
  have hsections : failure? (render s notes) = failure? (sections s notes) := by
    rw [render_eq]
    cases sections s notes <;> rfl
  rw [hsections, sections, failure?_mapM, calls, findSome?_flatMap]
  simp only [failure?_groupLines]

/-! ## What is rendered -/

/-- The lines of a group: empty ones, and those that calls write. -/
def slots (s : Settings) (g : Group) : List (Option HookCall) :=
  let pad := List.replicate s.padding none
  pad ++ [some (.header ⟨g.file, g.notes.length⟩)] ++ pad ++ g.notes.map fun n => some (.note n)

/-- The lines of a report after its title. -/
def layout (s : Settings) (notes : List Note) : List (Option HookCall) :=
  (Group.byFile notes).flatMap (slots s)

/-- A line, filled in. -/
def filled (write : HookCall → String) : Option HookCall → String
  | none => ""
  | some c => write c

/-- All lines of a report, filled in. -/
def filledLines (s : Settings) (write : HookCall → String) (notes : List Note) : List String :=
  title :: (layout s notes).map (filled write)

/-- The lines of a group none of whose calls fails. -/
theorem groupLines_of_answers {s : Settings} {write : HookCall → String} {g : Group}
    (h : ∀ c ∈ groupCalls g, c.answer s = .ok (write c)) :
    groupLines s g = .ok ((slots s g).map (filled write)) := by
  obtain ⟨hheader, hnotes⟩ := List.forall_mem_cons.mp h
  have hline : headerLine s g.header = .ok (write (.header ⟨g.file, g.notes.length⟩)) := by
    rw [Group.header, headerLine_eq, hheader]
    rfl
  have hentries : g.notes.mapM (entryLine s) = .ok (g.notes.map fun n => write (.note n)) := by
    refine mapM_eq_ok fun n hn => ?_
    rw [entryLine_eq, hnotes _ (List.mem_map_of_mem hn)]
    rfl
  rw [groupLines, hline, hentries]
  simp [slots, filled, bind, Except.bind, pure, Except.pure]

/-- **A report is its layout, filled in** with what the calls are
answered. -/
theorem render_of_answers {s : Settings} {write : HookCall → String} {notes : List Note}
    (h : ∀ c ∈ calls notes, c.answer s = .ok (write c)) :
    render s notes = .ok (ended s (filledLines s write notes)) := by
  have hsections : sections s notes =
      .ok ((Group.byFile notes).map fun g => (slots s g).map (filled write)) :=
    mapM_eq_ok fun g hg => groupLines_of_answers fun c hc => h c (List.mem_flatMap_of_mem hg hc)
  have hlines : ((Group.byFile notes).map fun g => (slots s g).map (filled write)).flatten =
      (layout s notes).map (filled write) := by
    rw [layout, List.map_flatMap, List.flatMap_def]
  rw [render_eq, hsections, filledLines, ended_cons, ← hlines]
  rfl

/-- A report that was rendered was written by calls. -/
theorem exists_write_of_render {s : Settings} {notes : List Note} {report : String}
    (h : render s notes = .ok report) :
    ∃ write : HookCall → String, ∀ c ∈ calls notes, c.answer s = .ok (write c) := by
  have hnone : (calls notes).findSome? (HookCall.refusal? s) = none := by
    rw [← failure?_render, failure?_eq_none_iff]
    exact ⟨report, h⟩
  have hline : ∀ c ∈ calls notes, ∃ line, c.answer s = .ok line := fun c hc =>
    HookCall.refusal?_eq_none_iff.mp (List.findSome?_eq_none_iff.mp hnone c hc)
  choose! write hwrite using hline
  exact ⟨write, hwrite⟩

/-- Lines that are each ended are lines joined, with one more end. -/
theorem ended_eq_intercalate {s : Settings} {lines : List String} (h : lines ≠ []) :
    ended s lines = String.intercalate s.newLine lines ++ s.newLine := by
  induction lines with
  | nil => exact absurd rfl h
  | cons line lines ih =>
    rw [ended_cons]
    by_cases hl : lines = []
    · simp [hl, ended]
    · rw [ih hl, String.intercalate_cons_of_ne_nil hl, String.append_assoc, String.append_assoc,
        String.append_assoc]

/-- **What rendering makes of the answers of the hooks.** -/
structure Rendering (s : Settings) (notes : List Note) : Prop where
  /-- There is a report if and only if no call fails. -/
  succeeds_iff : (∃ report, render s notes = .ok report) ↔
    ∀ c ∈ calls notes, ∃ line, c.answer s = .ok line
  /-- It fails as the first call that fails, with the hook and its reason. -/
  fails_iff : ∀ e, render s notes = .error e ↔
    ∃ before c later reason, calls notes = before ++ c :: later ∧
      (∀ b ∈ before, ∃ line, b.answer s = .ok line) ∧
      c.answer s = .error reason ∧ e = .hookFailed c.kind reason
  /-- Where every call is answered, the answers are filled in, and each
  line is ended. -/
  filled_in : ∀ write, (∀ c ∈ calls notes, c.answer s = .ok (write c)) →
    render s notes = .ok (ended s (filledLines s write notes))
  /-- That is the lines joined, and one end more. -/
  joined : ∀ write, ended s (filledLines s write notes) =
    String.intercalate s.newLine (filledLines s write notes) ++ s.newLine

/-- **Every rendering is so**, whatever the settings and the hooks. -/
theorem rendering (s : Settings) (notes : List Note) : Rendering s notes where
  succeeds_iff := by
    rw [← failure?_eq_none_iff, failure?_render, List.findSome?_eq_none_iff]
    simp only [HookCall.refusal?_eq_none_iff]
  fails_iff e := by
    rw [← failure?_eq_some_iff, failure?_render, List.findSome?_eq_some_iff]
    simp only [HookCall.refusal?_eq_none_iff, HookCall.refusal?_eq_some_iff]
    constructor
    · rintro ⟨before, c, later, hsplit, ⟨reason, hc, rfl⟩, hbefore⟩
      exact ⟨before, c, later, reason, hsplit, hbefore, hc, rfl⟩
    · rintro ⟨before, c, later, reason, hsplit, hbefore, hc, rfl⟩
      exact ⟨before, c, later, hsplit, ⟨reason, hc, rfl⟩, hbefore⟩
  filled_in write h := render_of_answers h
  joined write := ended_eq_intercalate (List.cons_ne_nil _ _)

/-- The header of the second file fails, but the last note of the first
file is asked before it. -/
example :
    render
      { headerHook := some fun h => if h.file = "b.py" then .error "no py" else .ok h.file
        noteHook := some fun n => if n.line = 9 then .error "too late" else .ok n.text }
      [⟨.todo, "one", "a.js", 1⟩, ⟨.todo, "two", "b.py", 2⟩, ⟨.fixme, "three", "a.js", 9⟩] =
      .error (.hookFailed .note "too late") := by
  rfl

end Marginalia.Report
