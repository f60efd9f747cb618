import Marginalia.Proofs.Text.Lines
import Marginalia.Run

/-!
# Paths that lead back

A report names a file by what is left of its path after its base, and
joining the two gives the file again (`shown_leads_back`). Both are read
through components: those of a join are the components of the base and then
what the other path has beneath it (`components_join`), and what `after?`
leaves has the components that come after those of the base
(`leaves_after?`). The spellings may differ, in slashes and in dots that
count for nothing.
-/

namespace Marginalia

namespace Path

/-! ## Segments and what they stand for -/

/-- The components that segments stand for beneath the start of a path. -/
def steps (segments : List (List Char)) : List Component :=
  segments.filterMap Component.ofSegment?

@[simp]
theorem steps_append (segments more : List (List Char)) :
    steps (segments ++ more) = steps segments ++ steps more :=
  List.filterMap_append

theorem isIdle_iff {segment : List Char} :
    isIdle segment = true ↔ segment = [] ∨ segment = ['.'] := by
  unfold isIdle Component.ofSegment?
  split
  · next h => simp [h]
  · next h => split <;> simp [h]

theorem steps_cons_of_isIdle {segment : List Char} (h : isIdle segment = true)
    (segments : List (List Char)) : steps (segment :: segments) = steps segments :=
  List.filterMap_cons_none (Option.isNone_iff_eq_none.mp h)

theorem steps_cons_of_eq_some {segment : List Char} {c : Component}
    (h : Component.ofSegment? segment = some c) (segments : List (List Char)) :
    steps (segment :: segments) = c :: steps segments :=
  List.filterMap_cons_some h

/-- The root and the leading dot are where a path starts, and nowhere beneath
it. -/
theorem ne_of_mem_steps {segments : List (List Char)} {c : Component} (h : c ∈ steps segments) :
    c ≠ .root ∧ c ≠ .current := by
  obtain ⟨segment, -, hs⟩ := List.mem_filterMap.mp h
  unfold Component.ofSegment? at hs
  split at hs
  · cases hs
  · split at hs <;> cases hs <;> simp

theorem steps_dropWhile (segments : List (List Char)) :
    steps (segments.dropWhile isIdle) = steps segments := by
  induction segments with
  | nil => rfl
  | cons segment segments ih =>
    rw [List.dropWhile_cons]
    split
    · next h => rw [ih, steps_cons_of_isIdle h]
    · rfl

theorem steps_dropIdleEnd (segments : List (List Char)) :
    steps (dropIdleEnd segments) = steps segments := by
  have hreverse (s : List (List Char)) : steps s.reverse = (steps s).reverse :=
    List.filterMap_reverse
  rw [dropIdleEnd, hreverse, steps_dropWhile, hreverse, List.reverse_reverse]

theorem isPrefix_dropIdleEnd (segments : List (List Char)) : dropIdleEnd segments <+: segments := by
  rw [← List.reverse_suffix, dropIdleEnd, List.reverse_reverse]
  exact List.dropWhile_suffix isIdle

/-! ## The start of a path -/

/-- The parts of a path with the given segments, its start among them. -/
def Parts.ofSegments : List (List Char) → Parts
  | [] :: segment :: segments => ⟨.root, segment :: segments⟩
  | ['.'] :: segments => ⟨.current, segments⟩
  | segments => ⟨.relative, segments⟩

theorem parts_eq (p : Path) : p.parts = .ofSegments (Text.splitOn '/' p.spelling.toList) := rfl

theorem ofSegments_of_not_isIdle {segment : List Char} (h : isIdle segment = false)
    (segments : List (List Char)) :
    Parts.ofSegments (segment :: segments) = ⟨.relative, segment :: segments⟩ := by
  have hidle := isIdle_iff.not.mp (Bool.not_eq_true _ ▸ h)
  unfold Parts.ofSegments
  split
  · simp_all
  · simp_all
  · rfl

/-- **How the segments of a path can start**: there is a single empty one,
or a slash, a dot or a segment that counts comes first. -/
theorem startCases {P : List (List Char) → Prop} (nil : P []) (empty : P [[]])
    (root : ∀ segment segments, P ([] :: segment :: segments))
    (current : ∀ segments, P (['.'] :: segments))
    (relative : ∀ segment segments, isIdle segment = false → P (segment :: segments))
    (segments : List (List Char)) : P segments := by
  cases segments with
  | nil => exact nil
  | cons segment segments =>
    cases hidle : isIdle segment with
    | false => exact relative segment segments hidle
    | true =>
      rcases isIdle_iff.mp hidle with rfl | rfl
      · cases segments with
        | nil => exact empty
        | cons second others => exact root second others
      · exact current segments

/-- What follows the segments of a path is beneath it. -/
theorem components_ofSegments_append {segments : List (List Char)} (hne : segments ≠ [])
    (h : segments ≠ [[]]) (more : List (List Char)) :
    (Parts.ofSegments (segments ++ more)).components =
      (Parts.ofSegments segments).components ++ steps more := by
  cases segments using startCases with
  | nil => exact absurd rfl hne
  | empty => exact absurd rfl h
  | root segment segments =>
    exact congrArg (Component.root :: ·) (steps_append (segment :: segments) more)
  | current segments => exact congrArg (Component.current :: ·) (steps_append segments more)
  | relative segment segments hidle =>
    rw [List.cons_append, ofSegments_of_not_isIdle hidle, ofSegments_of_not_isIdle hidle]
    exact steps_append (segment :: segments) more

/-- A path that starts with a slash starts at the root. -/
theorem components_of_isAbsolute {p : Path} (h : p.isAbsolute = true) :
    ∃ segments, p.components = .root :: steps segments := by
  obtain ⟨rest, hrest⟩ : ∃ rest, p.spelling.toList = '/' :: rest := by
    simpa [isAbsolute, List.head?_eq_some_iff] using h
  obtain ⟨first, others, hs⟩ := List.exists_cons_of_ne_nil (Text.splitOn_ne_nil '/' rest)
  refine ⟨first :: others, ?_⟩
  rw [components, parts_eq, hrest, Text.splitOn_cons, if_pos rfl, hs]
  rfl

/-- The components of a path without a leading dot. -/
def dropCurrent : List Component → List Component
  | .current :: components => components
  | components => components

theorem dropCurrent_steps (segments : List (List Char)) :
    dropCurrent (steps segments) = steps segments := by
  unfold dropCurrent
  split
  · next h =>
    exact absurd rfl (ne_of_mem_steps (c := .current) (h ▸ List.mem_cons_self)).2
  · rfl

/-- Beneath another path a path that does not start at the root is all of its
components but a leading dot. -/
theorem steps_splitOn {p : Path} (hp : p.isAbsolute = false) :
    steps (Text.splitOn '/' p.spelling.toList) = dropCurrent p.components := by
  rw [components, parts_eq]
  have hroot (segment : List Char) (segments : List (List Char)) :
      Text.splitOn '/' p.spelling.toList ≠ [] :: segment :: segments := by
    intro h
    rcases Text.eq_nil_or_cons_of_splitOn h with ⟨-, hnil⟩ | ⟨rest, hrest, -⟩
    · cases hnil
    · simp [isAbsolute, hrest] at hp
  cases hs : Text.splitOn '/' p.spelling.toList using startCases with
  | nil => rfl
  | empty => rfl
  | root segment segments => exact absurd hs (hroot segment segments)
  | current segments => exact steps_cons_of_isIdle rfl segments
  | relative segment segments hidle =>
    rw [ofSegments_of_not_isIdle hidle]
    exact (dropCurrent_steps (segment :: segments)).symm

/-- The empty path is the one that has no components. -/
theorem components_eq_nil_iff {p : Path} : p.components = [] ↔ p.spelling = "" := by
  constructor
  · intro h
    rw [components, parts_eq] at h
    cases hs : Text.splitOn '/' p.spelling.toList using startCases with
    | nil => exact absurd hs (Text.splitOn_ne_nil _ _)
    | empty => exact String.toList_eq_nil_iff.mp (Text.eq_nil_of_splitOn hs)
    | root segment segments => rw [hs] at h; cases h
    | current segments => rw [hs] at h; cases h
    | relative segment segments hidle =>
      rw [hs, ofSegments_of_not_isIdle hidle] at h
      have := List.filterMap_eq_nil_iff.mp h segment List.mem_cons_self
      simp [isIdle, this] at hidle
  · intro h
    rw [components, parts_eq, h]
    rfl

/-! ## Joining -/

/-- **A path beneath another** has the components of that and then its own. -/
theorem components_join {base p : Path} (hbase : base.spelling ≠ "") (hp : p.isAbsolute = false) :
    (base.join p).components = base.components ++ dropCurrent p.components := by
  have hne : base.spelling.toList ≠ [] := mt String.toList_eq_nil_iff.mp hbase
  have hbeneath {before : List Char} (h : before ≠ []) (more : List (List Char)) :
      (Parts.ofSegments (Text.splitOn '/' before ++ more)).components =
        (Parts.ofSegments (Text.splitOn '/' before)).components ++ steps more :=
    components_ofSegments_append (Text.splitOn_ne_nil _ _) (mt Text.eq_nil_of_splitOn h) more
  rw [← steps_splitOn hp, components, components, parts_eq, parts_eq, join, if_neg (by simp [hp])]
  split
  · next hend =>
    obtain ⟨before, hbefore⟩ := List.getLast?_eq_some_iff.mp (hend.resolve_left hne)
    rw [String.toList_append, hbefore, List.append_assoc, List.singleton_append,
      Text.splitOn_append_mark, Text.splitOn_append_mark]
    by_cases hroot : before = []
    · obtain ⟨first, others, hs⟩ :=
        List.exists_cons_of_ne_nil (Text.splitOn_ne_nil '/' p.spelling.toList)
      rw [hroot, hs]
      rfl
    · have hend : steps (Text.splitOn '/' []) = [] := rfl
      rw [hbeneath hroot, hbeneath hroot, hend, List.append_nil]
  · have hslash : (base.spelling ++ "/" ++ p.spelling).toList =
        base.spelling.toList ++ '/' :: p.spelling.toList := by simp
    rw [hslash, Text.splitOn_append_mark, hbeneath hne]

theorem empty_join {base : Path} (hbase : base.spelling = "") (p : Path) : base.join p = p := by
  unfold join
  split
  · rfl
  · rw [if_pos (by simp [hbase]), hbase, String.empty_append]

/-! ## What is left of a path -/

/-- Segments that have no slash and do not start a path in another way are
read as they were spelled. -/
theorem components_toPath {anchor : Anchor} {segments : List (List Char)}
    (hslash : ∀ segment ∈ segments, '/' ∉ segment)
    (hstart : anchor = .relative → ∀ segment ∈ segments.head?, isIdle segment = false) :
    (Parts.toPath ⟨anchor, segments⟩).components = anchor.components ++ steps segments := by
  cases anchor with
  | root =>
    rw [components, parts_eq, Parts.toPath, String.toList_ofList, Text.splitOn_cons, if_pos rfl]
    cases segments with
    | nil => rfl
    | cons segment segments =>
      rw [Text.splitOn_joinWith (List.cons_ne_nil _ _) hslash]
      rfl
  | current =>
    have hdot : ∀ segment ∈ ['.'] :: segments, '/' ∉ segment :=
      List.forall_mem_cons.mpr ⟨by decide, hslash⟩
    rw [components, parts_eq, Parts.toPath, String.toList_ofList,
      Text.splitOn_joinWith (List.cons_ne_nil _ _) hdot]
    rfl
  | relative =>
    rw [components, parts_eq, Parts.toPath, String.toList_ofList]
    cases segments with
    | nil => rfl
    | cons segment segments =>
      rw [Text.splitOn_joinWith (List.cons_ne_nil _ _) hslash,
        ofSegments_of_not_isIdle (hstart rfl segment rfl)]
      rfl

theorem slash_notMem {p : Path} {segment : List Char} (h : segment ∈ p.parts.segments) :
    '/' ∉ segment := by
  refine Text.not_mem_of_mem_splitOn (s := p.spelling.toList) ?_
  rw [parts_eq] at h
  unfold Parts.ofSegments at h
  split at h
  · next hs => exact hs ▸ List.mem_cons_of_mem _ h
  · next hs => exact hs ▸ List.mem_cons_of_mem _ h
  · exact h

/-- Dropping idle segments at the end leaves the one at the start. -/
theorem not_isIdle_of_mem_head? {segments : List (List Char)}
    (h : ∀ segment ∈ segments.head?, isIdle segment = false) :
    ∀ segment ∈ (dropIdleEnd segments).head?, isIdle segment = false := by
  intro segment hhead
  obtain ⟨others, hothers⟩ := List.head?_eq_some_iff.mp hhead
  obtain ⟨more, hmore⟩ := hothers ▸ isPrefix_dropIdleEnd segments
  exact h segment (hmore ▸ rfl)

/-- A path loses no component with the idle segments at its end. -/
theorem components_toPath_dropIdleEnd (p : Path) :
    (Parts.toPath ⟨p.parts.anchor, dropIdleEnd p.parts.segments⟩).components = p.components := by
  rw [components_toPath fun segment h => slash_notMem ((isPrefix_dropIdleEnd _).subset h),
    steps_dropIdleEnd]
  · rfl
  · rw [parts_eq]
    cases Text.splitOn '/' p.spelling.toList using startCases with
    | nil => exact fun _ => not_isIdle_of_mem_head? (by simp [Parts.ofSegments])
    | empty => simp [Parts.ofSegments, dropIdleEnd, isIdle_iff]
    | root segment segments => exact fun h => nomatch h
    | current segments => exact fun h => nomatch h
    | relative segment segments hidle =>
      rw [ofSegments_of_not_isIdle hidle]
      exact fun _ => not_isIdle_of_mem_head? (by simpa using hidle)

/-- Nor does it lose one with those at its ends, beneath another path. -/
theorem components_toPath_relative {segments : List (List Char)}
    (hslash : ∀ segment ∈ segments, '/' ∉ segment) :
    (Parts.toPath ⟨.relative, dropIdleEnd (segments.dropWhile isIdle)⟩).components =
      steps segments := by
  rw [components_toPath, steps_dropIdleEnd, steps_dropWhile]
  · rfl
  · intro segment h
    exact hslash segment ((List.dropWhile_suffix _).subset ((isPrefix_dropIdleEnd _).subset h))
  · intro _
    refine not_isIdle_of_mem_head? fun segment h => ?_
    have hnot := List.head?_dropWhile_not isIdle segments
    rwa [Option.mem_def.mp h] at hnot

/-- **What is left after some components** of a path: the components that come
after those, none of which starts a path, or nothing, as the path does not
start with them. -/
def Leaves (first components : List Component) : Option Path → Prop
  | some q => components = first ++ q.components ∧ ∃ segments, q.components = steps segments
  | none => ¬ first <+: components

theorem Leaves.cons {first components : List Component} {left : Option Path}
    (h : Leaves first components left) (c : Component) :
    Leaves (c :: first) (c :: components) left := by
  cases left with
  | some q => exact ⟨congrArg (c :: ·) h.1, h.2⟩
  | none => exact fun hbeneath => h (List.cons_prefix_cons.mp hbeneath).2

theorem leaves_none_of_ne {c d : Component} (h : c ≠ d) (first components : List Component) :
    Leaves (c :: first) (d :: components) none :=
  fun hbeneath => h (List.cons_prefix_cons.mp hbeneath).1

theorem leaves_dropComponents (first : List Component) {segments : List (List Char)}
    (hslash : ∀ segment ∈ segments, '/' ∉ segment) :
    Leaves first (steps segments) ((dropComponents first segments).map fun left =>
      Parts.toPath ⟨.relative, dropIdleEnd (left.dropWhile isIdle)⟩) := by
  fun_induction dropComponents first segments with
  | case1 segments =>
    have hq := components_toPath_relative hslash
    rw [Option.map_some]
    exact ⟨by rw [hq, List.nil_append], segments, hq⟩
  | case2 c first => exact fun h => List.cons_ne_nil c first (List.prefix_nil.mp h)
  | case3 c first segment segments hidle ih =>
    rw [steps_cons_of_isIdle (Option.isNone_iff_eq_none.mpr hidle)]
    exact ih (List.forall_mem_cons.mp hslash).2
  | case4 first segment segments c hstep ih =>
    rw [steps_cons_of_eq_some hstep]
    exact (ih (List.forall_mem_cons.mp hslash).2).cons c
  | case5 c first segment segments d hstep hne =>
    rw [steps_cons_of_eq_some hstep]
    exact leaves_none_of_ne hne _ _

/-- **What `after?` leaves of a path.** -/
theorem leaves_after? {base : Path} (hbase : base.spelling ≠ "") (p : Path) :
    Leaves base.components p.components (after? base p) := by
  have hp : p.components = p.parts.anchor.components ++ steps p.parts.segments := rfl
  have hdrop (first : List Component) :=
    leaves_dropComponents first fun _ h => slash_notMem (p := p) h
  obtain ⟨c, first, hc⟩ := List.exists_cons_of_ne_nil (mt components_eq_nil_iff.mp hbase)
  rw [after?, hp, hc]
  dsimp only
  cases p.parts.anchor with
  | relative => exact hdrop (c :: first)
  | root | current =>
    dsimp only [Anchor.components]
    split
    · next h => exact h ▸ (hdrop first).cons c
    · next h => exact leaves_none_of_ne h _ _

/-! ## Seeing a path from a base -/

theorem isPrefix_of_empty {base : Path} (hbase : base.spelling = "") (p : Path) :
    base.components <+: p.components :=
  components_eq_nil_iff.mpr hbase ▸ List.nil_prefix

/-- Beneath a base there is something left, with the components that come
after those of the base. -/
theorem exists_after? {base p : Path} (h : base.components <+: p.components) :
    ∃ q, after? base p = some q ∧ p.components = base.components ++ q.components ∧
      (base.spelling ≠ "" → ∃ segments, q.components = steps segments) := by
  by_cases hbase : base.spelling = ""
  · have hnil := components_eq_nil_iff.mpr hbase
    refine ⟨_, by rw [after?, hnil], ?_, absurd hbase⟩
    rw [hnil, List.nil_append, components_toPath_dropIdleEnd]
  · have hleaves := leaves_after? hbase p
    cases hq : after? base p with
    | none =>
      rw [hq] at hleaves
      exact absurd h hleaves
    | some q =>
      rw [hq] at hleaves
      exact ⟨q, rfl, hleaves.1, fun _ => hleaves.2⟩

/-- **There and back**: joining undoes seeing a path from a base above it. -/
theorem components_join_relativeTo {base p : Path} (h : base.components <+: p.components) :
    (base.join (p.relativeTo base)).components = p.components := by
  obtain ⟨q, hq, heq, hsteps⟩ := exists_after? h
  rw [relativeTo, hq, Option.getD_some, heq]
  by_cases hbase : base.spelling = ""
  · rw [empty_join hbase, components_eq_nil_iff.mpr hbase, List.nil_append]
  · obtain ⟨segments, hsegments⟩ := hsteps hbase
    have hrelative : q.isAbsolute = false := by
      by_contra habsolute
      obtain ⟨others, hroot⟩ := components_of_isAbsolute (Bool.not_eq_false _ ▸ habsolute)
      exact (ne_of_mem_steps (hsegments ▸ hroot ▸ List.mem_cons_self)).1 rfl
    rw [components_join hbase hrelative, hsegments, dropCurrent_steps]

/-- A path that does not lie beneath the base stays as it was spelled. -/
theorem relativeTo_eq_self {base p : Path} (h : ¬ base.components <+: p.components) :
    p.relativeTo base = p := by
  have hleaves := leaves_after? (fun hbase => h (isPrefix_of_empty hbase p)) p
  cases hq : after? base p with
  | none => rw [relativeTo, hq, Option.getD_none]
  | some q =>
    rw [hq] at hleaves
    exact absurd ⟨_, hleaves.1.symm⟩ h

theorem isPrefix_components_join (base : Path) {p : Path} (hp : p.isAbsolute = false) :
    base.components <+: (base.join p).components := by
  by_cases hbase : base.spelling = ""
  · exact isPrefix_of_empty hbase _
  · rw [components_join hbase hp]
    exact List.prefix_append _ _

/-- **Back and there**: seeing a path from the base that it was joined to undoes
the joining, but for a leading dot. -/
theorem components_relativeTo_join (base : Path) {p : Path} (hp : p.isAbsolute = false) :
    ((base.join p).relativeTo base).components =
      if base.spelling = "" then p.components else dropCurrent p.components := by
  obtain ⟨q, hq, heq, -⟩ := exists_after? (isPrefix_components_join base hp)
  rw [relativeTo, hq, Option.getD_some]
  split
  · next hbase =>
    rw [empty_join hbase, components_eq_nil_iff.mpr hbase, List.nil_append] at heq
    exact heq.symm
  · next hbase =>
    rw [components_join hbase hp] at heq
    exact (List.append_cancel_left heq).symm

end Path

/-! ## Files as the report shows them -/

/-- **The name a report gives a file leads back to it.** Seen from the base it
has the components of the path, if the path lies beneath the base, and it is
the path as it was spelled if not. A relative path that was joined to the base
does lie beneath, and is shown by its own components; of these a base that is
not empty takes the leading dot. -/
theorem SourceFile.shown_leads_back (f : SourceFile) :
    (f.base.components <+: f.path.components →
      (f.base.join ⟨f.shown⟩).components = f.path.components) ∧
    (¬ f.base.components <+: f.path.components → f.shown = f.path.spelling) ∧
    ∀ p : Path, p.isAbsolute = false → f.path = f.base.join p →
      f.base.components <+: f.path.components ∧
      Path.components ⟨f.shown⟩ =
        if f.base.spelling = "" then p.components else Path.dropCurrent p.components := by
  refine ⟨Path.components_join_relativeTo, fun h => ?_, fun p hp hpath => ?_⟩
  · rw [shown, Path.relativeTo_eq_self h]
  · rw [hpath]
    refine ⟨Path.isPrefix_components_join _ hp, ?_⟩
    rw [← Path.components_relativeTo_join _ hp, ← hpath]
    rfl

/-- A file beneath a base with slashes behind it, one whose path only
starts with the letters of its base, and one that a relative path led to. -/
theorem SourceFile.shown_leads_back_work :
    (Path.join ⟨"/work//"⟩
        ⟨(SourceFile.mk ⟨"/work//"⟩ ⟨"/work/./src/../a.js/"⟩ .streamed).shown⟩).components =
      Path.components ⟨"/work/./src/../a.js/"⟩ ∧
    (SourceFile.mk ⟨"/work"⟩ ⟨"/worker/./a.js"⟩ .streamed).shown = "/worker/./a.js" ∧
    Path.components ⟨(SourceFile.mk ⟨"work"⟩ ⟨"work/.//a.js"⟩ .streamed).shown⟩ =
      Path.dropCurrent (Path.components ⟨".//a.js"⟩) :=
  ⟨(shown_leads_back ⟨⟨"/work//"⟩, ⟨"/work/./src/../a.js/"⟩, .streamed⟩).1 (by decide),
    (shown_leads_back ⟨⟨"/work"⟩, ⟨"/worker/./a.js"⟩, .streamed⟩).2.1 (by decide),
    ((shown_leads_back ⟨⟨"work"⟩, ⟨"work/.//a.js"⟩, .streamed⟩).2.2 ⟨".//a.js"⟩
      (by decide) (by decide)).2.trans (if_neg (by decide))⟩

end Marginalia
