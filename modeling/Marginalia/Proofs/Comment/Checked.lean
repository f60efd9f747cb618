import Marginalia.Proofs.Comment.Slice
import Marginalia.Proofs.Report.Hook
import Marginalia.Proofs.Text.ByteOffset

/-!
# Extraction within bounds

The notes of a comment are found through indices: of lines, and of places
in them. `Checked` goes through the same steps with offsets in bytes and
looks at every index before it uses it, so that it stops with a `Stray`
where one of them points nowhere. It never stops, and finds the notes that
are found without looking (`notes_checked`).

All of it rests on the order in which hits stand (`InOrder`): one after
the other, each within its line, and apart. What holds of them in
characters holds in bytes as well (`InOrder.inBytes`), because a place
further on in a line has more bytes before it.
-/

namespace Marginalia.Comment

/-! ## The steps, with a look at every index -/

/-- What can be wrong with an index. -/
inductive Stray where
  /-- There is no such line. -/
  | line
  /-- A text ends on a line before the one it starts on. -/
  | range
  /-- A place stands after the one that it has to precede. -/
  | order
  /-- An offset lies past the end of its line, or inside a character. -/
  | boundary
  deriving DecidableEq

namespace Checked

/-- How far it is from the second offset to the first. -/
def distance (stop start : Nat) : Except Stray Nat :=
  if start ≤ stop then .ok (stop - start) else .error .order

/-- The line of the given number. -/
def lineAt (ls : List (List Char)) (n : Nat) : Except Stray (List Char) :=
  match ls[n]? with
  | some text => .ok text
  | none => .error .line

/-- The part of a text between two byte offsets. -/
def slice (text : List Char) (start stop : Nat) : Except Stray (List Char) :=
  if start ≤ stop then
    match Text.slice? start stop text with
    | some part => .ok part
    | none => .error .boundary
  else
    .error .order

/-- The tags from the byte `pos` of the line `text` on, the characters from
there being given as well. -/
def hitsFrom (line : Nat) (text : List Char) (previous : Option Char) (pos resume : Nat) :
    List Char → Except Stray (List Hit)
  | [] => .ok []
  | c :: rest =>
    if pos < resume || previous.any Text.isIdentChar then
      hitsFrom line text (some c) (pos + c.utf8Size) resume rest
    else do
      let found ← slice text pos (Text.size text)
      match readTag found with
      | .ok (k, after) =>
        let textStart ← distance (Text.size text) (Text.size after)
        let later ← hitsFrom line text (some c) (pos + c.utf8Size) textStart rest
        return ⟨k, line, pos, textStart⟩ :: later
      | .error _ => hitsFrom line text (some c) (pos + c.utf8Size) resume rest

/-- The tags of a list of lines, the first of which has the given number. -/
def hitsFromLine (line : Nat) : List (List Char) → Except Stray (List Hit)
  | [] => .ok []
  | text :: texts => do
    let here ← hitsFrom line text none 0 0 text
    let later ← hitsFromLine (line + 1) texts
    return here ++ later

/-- The tags of the lines of a comment. -/
def hits (ls : List (List Char)) : Except Stray (List Hit) :=
  hitsFromLine 0 ls

/-- Where the text before the tag `next` ends: its line, and the byte there. -/
def endOf (ls : List (List Char)) : Option Hit → Except Stray (Nat × Nat)
  | some next => .ok (next.line, next.start)
  | none => do
    let last ← distance ls.length 1
    let text ← lineAt ls last
    return (last, Text.size text)

/-- What belongs to a tag of the line `n`, if its text ends at the byte `stop`
of the line `last`. -/
def partOf (ls : List (List Char)) (hit : Hit) (last stop n : Nat) :
    Except Stray (List Char) := do
  let text ← lineAt ls n
  slice text (if n = hit.line then hit.textStart else 0) (if n = last then stop else Text.size text)

/-- What belongs to a tag, line by line. -/
def partsOf (ls : List (List Char)) (hit : Hit) (next : Option Hit) :
    Except Stray (List (List Char)) := do
  let (last, stop) ← endOf ls next
  if last < hit.line then
    throw .range
  (List.range' hit.line (last + 1 - hit.line)).mapM (partOf ls hit last stop)

/-- The notes of the given tags. -/
def notesOf (g : Grammar) (file : String) (firstLine : Nat) (ls : List (List Char)) :
    List Hit → Except Stray (List Note)
  | [] => .ok []
  | hit :: rest => do
    let parts ← partsOf ls hit rest.head?
    let later ← notesOf g file firstLine ls rest
    return ⟨hit.keyword, String.ofList (unfoldLines g.borders parts), file,
      firstLine + hit.line⟩ :: later

/-- The notes of one comment. -/
def notes (g : Grammar) (file : String) (r : Region) : Except Stray (List Note) := do
  let found ← hits (lines r.body)
  notesOf g file r.line (lines r.body) found

end Checked

/-! ## Hits in order -/

/-- **Hits in order**: one stands after the other, each within its line, and
where two stand on one line the first has ended before the second starts. The
offsets are such that `measure` gives the end of a line. -/
structure InOrder (measure : List Char → Nat) (ls : List (List Char)) (hs : List Hit) : Prop where
  increasing : hs.Pairwise fun h n => h.line < n.line ∨ h.line = n.line ∧ h.start < n.start
  within : ∀ h ∈ hs, ∃ text, ls[h.line]? = some text ∧
    h.start < h.textStart ∧ h.textStart ≤ measure text
  apart : hs.Pairwise fun h n => h.line = n.line → h.textStart ≤ n.start

theorem inOrder_hits (ls : List (List Char)) : InOrder List.length ls (hits ls) := by
  have hbefore := pairwise_hitsFromLine 0 ls
  refine ⟨?_, fun h hh => exists_line_of_mem_hits hh, ?_⟩
  · refine List.Pairwise.imp_of_mem ?_ hbefore
    intro h n hh _ hhn
    obtain ⟨_, -, hlt, -⟩ := exists_line_of_mem_hits hh
    rcases hhn with hline | ⟨hline, hle⟩
    · exact .inl hline
    · exact .inr ⟨hline, by omega⟩
  · refine hbefore.imp ?_
    rintro h n (hline | ⟨-, hle⟩) heq
    · omega
    · exact hle

section

variable {measure : List Char → Nat} {ls : List (List Char)} {h : Hit} {hs : List Hit}

theorem InOrder.of_cons (ho : InOrder measure ls (h :: hs)) : InOrder measure ls hs :=
  ⟨(List.pairwise_cons.mp ho.increasing).2, (List.forall_mem_cons.mp ho.within).2,
    (List.pairwise_cons.mp ho.apart).2⟩

theorem InOrder.bounds (ho : InOrder measure ls hs) (hh : h ∈ hs) :
    h.line < ls.length ∧ h.start < h.textStart ∧ h.textStart ≤ measure (ls.getD h.line []) := by
  obtain ⟨text, htext, hlt, hle⟩ := ho.within h hh
  refine ⟨(List.getElem?_eq_some_iff.mp htext).1, hlt, ?_⟩
  rwa [List.getD_eq_getElem?_getD, htext]

end

/-! ## Characters and bytes -/

/-- A hit on a line, with its offsets in bytes. -/
def Hit.inBytes (text : List Char) (h : Hit) : Hit :=
  ⟨h.keyword, h.line, Text.size (text.take h.start), Text.size (text.take h.textStart)⟩

/-- The hits on the given lines, with their offsets in bytes. -/
def inBytes (ls : List (List Char)) (hs : List Hit) : List Hit :=
  hs.map fun h => h.inBytes (ls.getD h.line [])

/-- **Hits that are in order are so in bytes as well.** -/
theorem InOrder.inBytes {ls : List (List Char)} {hs : List Hit} (ho : InOrder List.length ls hs) :
    InOrder Text.size ls (inBytes ls hs) := by
  refine ⟨?_, ?_, ?_⟩
  · rw [Comment.inBytes, List.pairwise_map]
    refine List.Pairwise.imp_of_mem ?_ ho.increasing
    rintro h n - hn (hline | ⟨hline, hlt⟩)
    · exact .inl hline
    · obtain ⟨-, hstart, hle⟩ := ho.bounds hn
      refine .inr ⟨hline, ?_⟩
      simp only [Hit.inBytes, hline]
      exact Text.size_take_lt hlt (by omega)
  · intro h hh
    obtain ⟨h, hmem, rfl⟩ := List.mem_map.mp hh
    obtain ⟨text, htext, hlt, hle⟩ := ho.within h hmem
    have hline : ls.getD h.line [] = text := by
      rw [List.getD_eq_getElem?_getD, htext, Option.getD_some]
    simp only [Hit.inBytes, hline]
    exact ⟨text, htext, Text.size_take_lt hlt hle, Text.size_take_le_size _ _⟩
  · rw [Comment.inBytes, List.pairwise_map]
    refine ho.apart.imp ?_
    intro h n hle hline
    have hline : h.line = n.line := hline
    simp only [Hit.inBytes, hline]
    exact Text.size_take_le (hle hline) _

/-! ## The steps go through -/

/-- What follows a tag is an end of the text. -/
theorem exists_append_of_readTag {s after : List Char} {k : Keyword}
    (h : readTag s = .ok (k, after)) : ∃ tag, s = tag ++ after := by
  obtain ⟨rest, rfl, -, rfl⟩ := readTag_eq_ok_iff.mp h
  obtain ⟨separator, hrest, -⟩ := exists_append_dropSeparator rest
  refine ⟨k.letters ++ separator, ?_⟩
  rw [List.append_assoc, ← hrest]

namespace Checked

theorem distance_eq {start stop : Nat} (h : start ≤ stop) :
    distance stop start = .ok (stop - start) :=
  if_pos h

theorem lineAt_eq {ls : List (List Char)} {n : Nat} (h : n < ls.length) :
    lineAt ls n = .ok (ls.getD n []) := by
  rw [lineAt, List.getElem?_eq_getElem h, List.getD_eq_getElem?_getD, List.getElem?_eq_getElem h]
  rfl

theorem slice_size_take {p q : Nat} (h : p ≤ q) (text : List Char) :
    slice text (Text.size (text.take p)) (Text.size (text.take q)) =
      .ok ((text.take q).drop p) := by
  rw [slice, if_pos (Text.size_take_le h text), Text.slice?_size_take h]

/-- The rest of a text is a slice of it. -/
theorem slice_append (before rest : List Char) :
    slice (before ++ rest) (Text.size before) (Text.size (before ++ rest)) = .ok rest := by
  have hslice := slice_size_take (p := before.length) (q := (before ++ rest).length)
    (by simp) (before ++ rest)
  rwa [List.take_left, List.take_length, List.drop_left] at hslice

/-- By induction on what is left of the line: the bytes are those of the
characters before it, so that the two walks skip the same places. -/
theorem hitsFrom_eq {line : Nat} {text s : List Char} {previous : Option Char} {resume : Nat}
    (before : List Char) (htext : text = before ++ s) (hresume : resume ≤ text.length) :
    hitsFrom line text previous (Text.size before) (Text.size (text.take resume)) s =
      .ok ((Comment.hitsFrom line previous before.length resume s).map (Hit.inBytes text)) := by
  induction s generalizing before previous resume with
  | nil => rfl
  | cons c s ih =>
    have hnext : text = before ++ [c] ++ s := by
      rw [htext, List.append_assoc, List.singleton_append]
    have hpos : Text.size before = Text.size (text.take before.length) := by
      rw [htext, List.take_left]
    have hskip : Text.size before < Text.size (text.take resume) ↔ before.length < resume := by
      rw [hpos, Text.size_take_lt_iff hresume]
    have hsize : Text.size before + c.utf8Size = Text.size (before ++ [c]) := by
      rw [Text.size_append, Text.size_cons, Text.size_nil, Nat.add_zero]
    have hlength : before.length + 1 = (before ++ [c]).length := by
      rw [List.length_append, List.length_singleton]
    simp only [hitsFrom, Comment.hitsFrom, hskip, hsize, hlength]
    split
    · exact ih (before ++ [c]) hnext hresume
    · have hslice : slice text (Text.size before) (Text.size text) = .ok (c :: s) := by
        rw [htext]
        exact slice_append before (c :: s)
      simp only [hslice, bind, Except.bind]
      cases hread : readTag (c :: s) with
      | error e => exact ih (before ++ [c]) hnext hresume
      | ok found =>
        obtain ⟨k, after⟩ := found
        obtain ⟨tag, htag⟩ := exists_append_of_readTag hread
        have hsplit : text = before ++ tag ++ after := by
          rw [htext, htag, List.append_assoc]
        have hcount : before.length + ((c :: s).length - after.length) = (before ++ tag).length := by
          rw [htag, List.length_append, List.length_append, Nat.add_sub_cancel]
        have htake : Text.size (text.take (before ++ tag).length) =
            Text.size text - Text.size after := by
          rw [hsplit, List.take_left, Text.size_append _ after, Nat.add_sub_cancel]
        have hdistance : distance (Text.size text) (Text.size after) =
            .ok (Text.size text - Text.size after) := by
          refine distance_eq ?_
          rw [hsplit, Text.size_append _ after]
          omega
        have hwithin : (before ++ tag).length ≤ text.length := by
          rw [hsplit]
          exact (List.prefix_append (before ++ tag) after).length_le
        have hlater := @ih (some c) _ (before ++ [c]) hnext hwithin
        rw [htake] at hlater
        simp only [hdistance, hcount, hlater]
        rw [List.map_cons, Hit.inBytes, htake, ← hpos]
        rfl

/-- By induction on the lines, `before` being those above. -/
theorem hitsFromLine_eq {ls texts : List (List Char)} (before : List (List Char))
    (hls : ls = before ++ texts) :
    hitsFromLine before.length texts =
      .ok (inBytes ls (Comment.hitsFromLine before.length texts)) := by
  induction texts generalizing before with
  | nil => rfl
  | cons text texts ih =>
    have hline : ls.getD before.length [] = text := by
      rw [hls, List.getD_eq_getElem?_getD, List.getElem?_append_right (Nat.le_refl _), Nat.sub_self]
      rfl
    have hbytes : inBytes ls (hitsOnLine before.length text) =
        (hitsOnLine before.length text).map (Hit.inBytes text) := by
      refine List.map_congr_left fun h hh => ?_
      rw [hitsOnLine_eq] at hh
      obtain ⟨m, -, rfl⟩ := List.mem_map.mp hh
      exact congrArg (Hit.inBytes · _) hline
    have hhere : hitsFrom before.length text none 0 0 text =
        .ok (inBytes ls (hitsOnLine before.length text)) := by
      rw [hbytes]
      exact hitsFrom_eq [] rfl (Nat.zero_le _)
    have hbelow : ls = before ++ [text] ++ texts := by
      rw [hls, List.append_assoc, List.singleton_append]
    have hlater := ih (before ++ [text]) hbelow
    rw [List.length_append, List.length_singleton] at hlater
    simp only [hitsFromLine, Comment.hitsFromLine, bind, Except.bind, hhere, hlater]
    rw [inBytes, inBytes, inBytes, List.map_append]
    rfl

/-- **The search for tags goes through**, and finds the hits. -/
theorem hits_eq (ls : List (List Char)) : hits ls = .ok (inBytes ls (Comment.hits ls)) :=
  hitsFromLine_eq [] rfl

end Checked

/-! ## The parts of a text -/

/-- The lines up to a place, each as far as it precedes it. -/
theorem getElem_take_append_take {ls : List (List Char)} {toLine toOffset n : Nat}
    (hto : toLine < ls.length)
    (hn : n < (ls.take toLine ++ [(ls.getD toLine []).take toOffset]).length) :
    (ls.take toLine ++ [(ls.getD toLine []).take toOffset])[n] =
      (ls.getD n []).take (if n = toLine then toOffset else (ls.getD n []).length) := by
  rw [List.getElem_append]
  split
  · next hlt =>
    rw [List.length_take] at hlt
    rw [List.getElem_take, if_neg (by omega), List.take_length, List.getD_eq_getElem?_getD,
      List.getElem?_eq_getElem (by omega), Option.getD_some]
  · next hge =>
    rw [List.length_append, List.length_take, List.length_singleton] at hn
    rw [List.length_take] at hge
    obtain rfl : n = toLine := by omega
    rw [List.getElem_singleton, if_pos rfl]

/-- **An excerpt, line by line.** -/
theorem excerpt_eq_map {ls : List (List Char)} {fromLine toLine : Nat} (h : fromLine ≤ toLine)
    (hto : toLine < ls.length) (fromOffset toOffset : Nat) :
    excerpt ls fromLine fromOffset toLine toOffset =
      (List.range' fromLine (toLine + 1 - fromLine)).map fun n =>
        ((ls.getD n []).take (if n = toLine then toOffset else (ls.getD n []).length)).drop
          (if n = fromLine then fromOffset else 0) := by
  refine List.ext_getElem ?_ ?_
  · simp only [excerpt, List.length_modifyHead, List.length_drop, List.length_append,
      List.length_take, List.length_map, List.length_range', List.length_singleton]
    omega
  · intro i hi hi'
    simp only [excerpt, List.getElem_modifyHead, List.getElem_drop, List.getElem_map,
      List.getElem_range', getElem_take_append_take hto, Nat.one_mul]
    split
    · next hzero =>
      rw [hzero, Nat.add_zero, if_pos rfl]
    · next hpos =>
      rw [if_neg (c := fromLine + i = fromLine) (by omega), List.drop_zero]

namespace Checked

section

variable {ls : List (List Char)} {hit : Hit} {last stop n : Nat}

/-- One line of what belongs to a tag, if its text does not end before it
starts. -/
theorem partOf_eq (hn : n < ls.length) (hstart : hit.textStart ≤ (ls.getD hit.line []).length)
    (hstop : hit.line = last → hit.textStart ≤ stop) :
    partOf ls (hit.inBytes (ls.getD hit.line [])) last (Text.size ((ls.getD last []).take stop)) n =
      .ok (((ls.getD n []).take (if n = last then stop else (ls.getD n []).length)).drop
        (if n = hit.line then hit.textStart else 0)) := by
  have hfrom : (if n = hit.line then Text.size ((ls.getD hit.line []).take hit.textStart) else 0) =
      Text.size ((ls.getD n []).take (if n = hit.line then hit.textStart else 0)) := by
    split
    · next heq => rw [heq]
    · rfl
  have hto : (if n = last then Text.size ((ls.getD last []).take stop)
        else Text.size (ls.getD n [])) =
      Text.size ((ls.getD n []).take (if n = last then stop else (ls.getD n []).length)) := by
    split
    · next heq => rw [heq]
    · rw [List.take_length]
  have hle : (if n = hit.line then hit.textStart else 0) ≤
      (if n = last then stop else (ls.getD n []).length) := by
    split
    · next heq =>
      split
      · next hlast => exact hstop (heq ▸ hlast)
      · rw [heq]
        exact hstart
    · exact Nat.zero_le _
  rw [partOf, lineAt_eq hn]
  change slice (ls.getD n []) (if n = hit.line then
    Text.size ((ls.getD hit.line []).take hit.textStart) else 0) _ = _
  rw [hto, hfrom]
  exact slice_size_take hle _

end

/-- Where the text of a tag ends: not before it starts, and within its line. -/
theorem exists_endOf {ls : List (List Char)} {hit : Hit} {rest : List Hit}
    (ho : InOrder List.length ls (hit :: rest)) :
    ∃ last stop,
      endOf ls (inBytes ls rest).head? = .ok (last, Text.size ((ls.getD last []).take stop)) ∧
      excerptOf ls hit rest.head? = excerpt ls hit.line hit.textStart last stop ∧
      hit.line ≤ last ∧ last < ls.length ∧ (hit.line = last → hit.textStart ≤ stop) := by
  obtain ⟨hlt, -, hwithin⟩ := ho.bounds List.mem_cons_self
  cases rest with
  | nil =>
    refine ⟨ls.length - 1, (ls.getD (ls.length - 1) []).length, ?_, ?_, by omega, by omega, ?_⟩
    · simp only [inBytes, List.map_nil, List.head?_nil, endOf, bind, Except.bind,
        distance_eq (show 1 ≤ ls.length by omega),
        lineAt_eq (show ls.length - 1 < ls.length by omega), List.take_length]
      rfl
    · rw [List.head?_nil, excerptOf, List.getLast?_eq_getElem?, List.getD_eq_getElem?_getD]
    · intro heq
      rwa [← heq]
  | cons next rest =>
    have hnext : next.line < ls.length := (ho.bounds (by simp)).1
    refine ⟨next.line, next.start, rfl, rfl, ?_, hnext, ?_⟩
    · rcases (List.pairwise_cons.mp ho.increasing).1 next List.mem_cons_self with hline | ⟨hline, -⟩
      · exact hline.le
      · exact hline.le
    · exact (List.pairwise_cons.mp ho.apart).1 next List.mem_cons_self

/-- **What belongs to a tag is found**, and is the excerpt. -/
theorem partsOf_eq {ls : List (List Char)} {hit : Hit} {rest : List Hit}
    (ho : InOrder List.length ls (hit :: rest)) :
    partsOf ls (hit.inBytes (ls.getD hit.line [])) (inBytes ls rest).head? =
      .ok (excerptOf ls hit rest.head?) := by
  obtain ⟨last, stop, hend, hexcerpt, hline, hlast, hstop⟩ := exists_endOf ho
  obtain ⟨-, -, hstart⟩ := ho.bounds List.mem_cons_self
  simp only [partsOf, bind, Except.bind, hend]
  rw [if_neg (by simp only [Hit.inBytes]; omega), hexcerpt, excerpt_eq_map hline hlast]
  refine Report.mapM_eq_ok fun n hn => ?_
  rw [List.mem_range'_1] at hn
  have hn : n < ls.length := by
    simp only [Hit.inBytes] at hn
    omega
  exact partOf_eq hn hstart hstop

/-- By induction on the hits. -/
theorem notesOf_eq {ls : List (List Char)} {hs : List Hit} (ho : InOrder List.length ls hs)
    (g : Grammar) (file : String) (line : Nat) :
    notesOf g file line ls (inBytes ls hs) = .ok (Comment.notesOf g file line ls hs) := by
  induction hs with
  | nil => rfl
  | cons hit rest ih =>
    have hcons : inBytes ls (hit :: rest) =
        hit.inBytes (ls.getD hit.line []) :: inBytes ls rest := rfl
    simp only [hcons, notesOf, Comment.notesOf, bind, Except.bind, partsOf_eq ho, ih ho.of_cons]
    rfl

end Checked

/-- **Extraction stays within bounds.** The hits on any lines are in order,
whether their offsets are counted in characters or in bytes: each starts after
the one before it, ends after it starts and within its line, and does not reach
into the next. So every step of the extraction goes through, whatever the
comment holds: there are the lines it looks up, a text ends on its own line or
below, no part of a line ends before it starts, and all of them are cut between
two characters. -/
theorem notes_checked :
    (∀ ls : List (List Char), InOrder List.length ls (hits ls) ∧
      Checked.hits ls = .ok (inBytes ls (hits ls)) ∧ InOrder Text.size ls (inBytes ls (hits ls))) ∧
    ∀ (g : Grammar) (file : String) (r : Region),
      Checked.notes g file r = .ok (notes g file r) := by
  refine ⟨?_, ?_⟩
  · intro ls
    exact ⟨inOrder_hits ls, Checked.hits_eq ls, (inOrder_hits ls).inBytes⟩
  · intro g file r
    simp only [Checked.notes, bind, Except.bind, Checked.hits_eq]
    exact Checked.notesOf_eq (inOrder_hits (lines r.body)) g file r.line

end Marginalia.Comment
