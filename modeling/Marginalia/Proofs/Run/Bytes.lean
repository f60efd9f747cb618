import Marginalia.Proofs.Comment.Position
import Marginalia.Proofs.Run.Move
import Marginalia.Proofs.Text.Utf8

/-!
# Notes of raw bytes

A file is handed in as bytes and searched as the text that lenient reading
makes of them. Whatever the bytes are, damage included, each note stands for
the bytes of its keyword at an offset of its own, and its line is counted by
the line feed bytes before that offset (`exists_offsets_extract`). A run
collects these notes when the file is submitted to it
(`notes_submit_of_bytes`).
-/

namespace Marginalia

/-- A whole keyword of a text is spelled at its position. -/
theorem KeywordAt.isPrefix_drop {g : Grammar} {content : List Char} {k : Keyword} {p : Nat}
    (h : KeywordAt g content k p) : k.letters <+: content.drop p := by
  obtain ⟨r, start, before, after, ⟨tokens, t, others, hseg, hr, rfl⟩, hbody, -, rfl⟩ := h
  obtain ⟨closing, htext⟩ := Token.exists_text_of_body? (Region.body?_of_onLine? hr).1
  have hcontent : content = (tokens.flatMap Token.text ++ (t.opening ++ before)) ++
      (k.letters ++ (after ++ (closing ++ others.flatMap Token.text))) := by
    rw [← Token.flatMap_text_of_segmentation hseg, List.flatMap_append, List.flatMap_cons, htext,
      hbody]
    simp only [List.append_assoc]
  have hlength : (tokens.flatMap Token.text).length + t.opening.length + before.length =
      (tokens.flatMap Token.text ++ (t.opening ++ before)).length := by
    rw [List.length_append, List.length_append, Nat.add_assoc]
  rw [hlength, hcontent, List.drop_left]
  exact List.prefix_append _ _

/-- The letters of a keyword are ASCII. -/
theorem Keyword.letters_ascii (k : Keyword) : ∀ c ∈ k.letters, c.toNat < 0x80 := by
  cases k <;> simp [letters]

/-- **Where a note stands in the bytes of its file**: the bytes of its
keyword are there, and its line is one more than the line feeds before. -/
def Note.StandsAt (bytes : List UInt8) (n : Nat) (note : Note) : Prop :=
  Utf8.encode note.keyword.letters <+: bytes.drop n ∧
    note.line = 1 + (bytes.take n).count 0x0a

/-- **The notes of a file stand in its bytes**, one after another, however
damaged the bytes are. -/
theorem exists_offsets_extract (g : Grammar) (file : String) (bytes : List UInt8) :
    ∃ offsets : List Nat, offsets.Pairwise (· < ·) ∧
      List.Forall₂ (Note.StandsAt bytes) offsets (extract g file (Utf8.decodeLossy bytes)) := by
  obtain ⟨chunks, hbytes, hchunks⟩ := Utf8.exists_chunks bytes
  generalize Utf8.decodeLossy bytes = content at hchunks
  subst hbytes
  have hspelled : ∀ m ∈ Token.marksFrom 0 (Token.divide g content),
      m.keyword.letters <+: content.drop m.start := fun m hm =>
    (exists_mem_marksFrom_iff_keywordAt.mp ⟨m, hm, rfl, rfl⟩).isPrefix_drop
  refine ⟨(Token.marksFrom 0 (Token.divide g content)).map fun m => Utf8.offset chunks m.start,
    ?_, ?_⟩
  · rw [List.pairwise_map]
    refine (Token.pairwise_start_marksFrom 0 (Token.divide g content)).imp_of_mem ?_
    intro a b ha _ hab
    have hle := (hspelled a ha).length_le
    have hpos : 0 < a.keyword.letters.length := by cases a.keyword <;> decide
    rw [List.length_drop] at hle
    exact Utf8.offset_lt_offset hchunks hab (by omega)
  · have hinfo := Region.info_notes_of_segmentation (Token.segmentation_divide g content) file 1 0
    have hnotes := List.forall₂_eq_eq_eq.symm ▸ hinfo.symm
    rw [List.forall₂_map_left_iff, List.forall₂_map_right_iff] at hnotes
    rw [List.forall₂_map_left_iff]
    refine (List.forall₂_and_left _ _ |>.mpr ⟨hspelled, hnotes⟩).imp ?_
    rintro m note ⟨hletters, hm⟩
    have hkeyword : m.keyword = note.keyword := congrArg (·.1) hm
    have hline : 1 + (content.take m.start).count '\n' = note.line := congrArg (·.2.2) hm
    refine ⟨?_, ?_⟩
    · rw [← hkeyword]
      exact Utf8.isPrefix_drop_offset hchunks hletters m.keyword.letters_ascii
    · rw [Utf8.count_take_offset hchunks, hline]

namespace Run

/-- **The notes of raw bytes.** An open run takes in a file of a known
extension whatever its bytes are, and adds notes that stand in them one after
another; bytes that a text was encoded in give the notes of that text. -/
theorem notes_submit_of_bytes {r : Run} {f : SourceFile} {bytes : List UInt8} {g : Grammar}
    (ho : r.stage.isOpen = true) (hcontent : f.content = .buffered bytes)
    (hg : Registry.builtin.resolve f.path.extension = some g) :
    (r.submit f).result = .ok () ∧
      ∃ new, (r.submit f).run.notes = r.notes ++ new ∧
        (∃ offsets : List Nat, offsets.Pairwise (· < ·) ∧
          List.Forall₂ (Note.StandsAt bytes) offsets new) ∧
        ∀ s, bytes = Utf8.encode s → new = extract g f.shown s := by
  have hfault : f.fault? = none := by simp [SourceFile.fault?, hcontent, hg]
  have hextracted : f.extracted = extract g f.shown (Utf8.decodeLossy bytes) := by
    simp [SourceFile.extracted, hcontent, hg]
  rw [submit_of_no_fault ho hfault]
  refine ⟨rfl, f.extracted, take_notes r f, ?_, ?_⟩
  · rw [hextracted]
    exact exists_offsets_extract g f.shown bytes
  · rintro s rfl
    rw [hextracted, Utf8.decodeLossy_encode]

/-- A comment in which a sequence of three bytes stops short, right before a
keyword. -/
theorem notes_submit_of_bytes_truncated :
    let bytes : List UInt8 := [0x0a, 0x23, 0xe2, 0x82, 0x54, 0x4f, 0x44, 0x4f]
    let f : SourceFile := ⟨⟨""⟩, ⟨"a.yml"⟩, .buffered bytes⟩
    let r : Run := { settings := {} }
    (r.submit f).result = .ok () ∧
      ∃ new, (r.submit f).run.notes = r.notes ++ new ∧
        (∃ offsets : List Nat, offsets.Pairwise (· < ·) ∧
          List.Forall₂ (Note.StandsAt bytes) offsets new) ∧
        ∀ s, bytes = Utf8.encode s → new = extract .hash f.shown s :=
  notes_submit_of_bytes (by decide) rfl (by decide +kernel)

end Run

end Marginalia
