import Marginalia.Proofs.Report.Group
import Mathlib.Data.List.Perm.Basic

/-!
# Groups on a shelf

Grouping notes by inserting them one by one looks through all groups for
each note. `Shelf` keeps beside the groups a table of where the group of
each file stands, so that one look-up does. What makes the table right
travels with it: it knows a file and a place if and only if the group at
that place is the file's, and therefore no look-up misses a group and
none leads out of the shelf. Putting a note on a shelf is inserting it
(`toList_groups_put`).
-/

namespace Marginalia.Group

/-- A note more in a group. -/
def add (n : Note) (g : Group) : Group :=
  ⟨g.file, g.notes ++ [n]⟩

@[simp] theorem add_file (n : Note) (g : Group) : (g.add n).file = g.file := rfl

/-! ## Inserting at a place -/

/-- A note of a file without a group opens one. -/
theorem insert_of_forall_ne {n : Note} {gs : List Group} (h : ∀ g ∈ gs, g.file ≠ n.file) :
    insert n gs = gs ++ [⟨n.file, [n]⟩] := by
  induction gs with
  | nil => rfl
  | cons g gs ih =>
    rw [List.forall_mem_cons] at h
    rw [insert, if_neg h.1, ih h.2, List.cons_append]

/-- A note of a file whose group stands at one place is added there. -/
theorem insert_eq_modify {n : Note} {gs : List Group} {i : Nat}
    (h : ∀ j, (∃ g, gs[j]? = some g ∧ g.file = n.file) ↔ j = i) :
    insert n gs = gs.modify i (add n) := by
  induction gs generalizing i with
  | nil =>
    obtain ⟨g, hg, -⟩ := (h i).mpr rfl
    simp at hg
  | cons g gs ih =>
    by_cases hf : g.file = n.file
    · -- the first group is the one, so that its place is the first
      obtain rfl : 0 = i := (h 0).mp ⟨g, rfl, hf⟩
      rw [insert, if_pos hf]
      rfl
    · cases i with
      | zero =>
        obtain ⟨g', hg', hf'⟩ := (h 0).mpr rfl
        obtain rfl : g = g' := by simpa using hg'
        exact absurd hf' hf
      | succ i =>
        have hlater : ∀ j, (∃ g, gs[j]? = some g ∧ g.file = n.file) ↔ j = i := by
          intro j
          simpa using h (j + 1)
        rw [insert, if_neg hf, ih hlater, List.modify_succ_cons]

/-! ## Shelves -/

/-- A table knows the place of each group by its file, and no others. -/
def Lists (place : Std.HashMap String Nat) (groups : Array Group) : Prop :=
  ∀ (file : String) (i : Nat),
    place[file]? = some i ↔ ∃ g : Group, groups[i]? = some g ∧ g.file = file

/-- Groups, and where the group of each file stands among them. -/
structure Shelf where
  groups : Array Group := #[]
  place : Std.HashMap String Nat := ∅
  lists : Lists place groups := by simp [Lists]

/-- Adding a note to a group does not move any. -/
theorem Lists.modify {place : Std.HashMap String Nat} {groups : Array Group}
    (h : Lists place groups) (i : Nat) (n : Note) : Lists place (groups.modify i (add n)) := by
  intro file j
  rw [h file j, Array.getElem?_modify]
  split
  · simp only [Option.map_eq_some_iff, exists_exists_and_eq_and, add_file]
  · rfl

/-- A group of a new file takes the next place. -/
theorem Lists.push {place : Std.HashMap String Nat} {groups : Array Group}
    (h : Lists place groups) {g : Group} (hnew : place[g.file]? = none) :
    Lists (place.insert g.file groups.size) (groups.push g) := by
  intro file i
  rw [Std.HashMap.getElem?_insert, Array.getElem?_push]
  by_cases hf : g.file = file
  · -- no other place is that of the new file
    subst hf
    have hother : ¬ ∃ g', groups[i]? = some g' ∧ g'.file = g.file := by
      rw [← h, hnew]
      simp
    by_cases hi : i = groups.size
    · simp [hi]
    · simp [hi, Ne.symm hi, hother]
  · rw [if_neg (by simpa using hf), h]
    by_cases hi : i = groups.size
    · simp [hi, hf]
    · rw [if_neg hi]

namespace Shelf

/-- Puts a note into the group of its file, or into a new one. -/
def put (t : Shelf) (n : Note) : Shelf :=
  match h : t.place[n.file]? with
  | some i =>
    { groups := t.groups.modify i (add n)
      place := t.place
      lists := t.lists.modify i n }
  | none =>
    { groups := t.groups.push ⟨n.file, [n]⟩
      place := t.place.insert n.file t.groups.size
      lists := t.lists.push (g := ⟨n.file, [n]⟩) h }

/-- The shelf of some notes. -/
def ofNotes (notes : List Note) : Shelf :=
  notes.foldl put {}

/-- **A place in the table is on the shelf.** -/
theorem lt_size_of_place {t : Shelf} {file : String} {i : Nat} (h : t.place[file]? = some i) :
    i < t.groups.size := by
  obtain ⟨g, hg, -⟩ := (t.lists file i).mp h
  exact (Array.getElem?_eq_some_iff.mp hg).1

/-- **Putting a note on a shelf is inserting it** into its groups. -/
theorem toList_groups_put (t : Shelf) (n : Note) :
    (t.put n).groups.toList = insert n t.groups.toList := by
  unfold put
  split
  · next i hi =>
    have hplace : ∀ j, (∃ g, t.groups.toList[j]? = some g ∧ g.file = n.file) ↔ j = i := by
      intro j
      rw [Array.getElem?_toList, ← t.lists n.file j, hi, Option.some.injEq, eq_comm]
    rw [Array.toList_modify, insert_eq_modify hplace]
  · next hnone =>
    have hnew : ∀ g ∈ t.groups.toList, g.file ≠ n.file := by
      intro g hg hf
      obtain ⟨i, hi⟩ := List.mem_iff_getElem?.mp hg
      rw [Array.getElem?_toList] at hi
      have := (t.lists n.file i).mpr ⟨g, hi, hf⟩
      simp [hnone] at this
    rw [Array.toList_push, insert_of_forall_ne hnew]

/-- **A shelf holds the groups of its notes.** -/
theorem toList_groups_ofNotes (notes : List Note) :
    (ofNotes notes).groups.toList = byFile notes := by
  have hfold (t : Shelf) : (notes.foldl put t).groups.toList =
      notes.foldl (fun groups n => insert n groups) t.groups.toList := by
    induction notes generalizing t with
    | nil => rfl
    | cons n notes ih => rw [List.foldl_cons, List.foldl_cons, ih, toList_groups_put]
  exact hfold {}

end Shelf

end Marginalia.Group
