import Marginalia.Text.CodeSet
import Marginalia.Text.Utf8
import Mathlib.Data.List.Forall2

/-!
# Bytes and the characters read from them

Lenient reading goes over the bytes by sequences, a lead byte with its
followers (`Sequence`), and by pieces of damage, and neither ever takes an
ASCII byte into a larger piece (`readOne_cases`). So the bytes are chunks,
one for each character read, in which an ASCII character is its own byte and
all other bytes and characters are not of ASCII (`exists_chunks`). Hence the
line feeds and any ASCII text are found at the same places in both:
`offset` goes from a character to its chunk. Bytes that a text was encoded
in are read as that text (`decodeLossy_encode`).
-/

namespace Marginalia.Utf8

/-! ## Sequences -/

/-- A byte that only ever follows. -/
def Tail (b : UInt8) : Prop :=
  0x80 ≤ b.toNat ∧ b.toNat ≤ 0xbf

/-- **A lead byte with all of its followers**, by their number. The first
follower of some leads is bounded, so that the sequence is not overlong, not
a surrogate and not past the last plane. -/
inductive Sequence : UInt8 → List UInt8 → Prop
  | one {a : UInt8} : a.toNat < 0x80 → Sequence a []
  | two {a b : UInt8} : 0xc2 ≤ a.toNat → a.toNat ≤ 0xdf → Tail b → Sequence a [b]
  | three {a b c : UInt8} :
      0xe0 ≤ a.toNat → a.toNat ≤ 0xef → Tail b → Tail c →
      (a.toNat = 0xe0 → 0xa0 ≤ b.toNat) → (a.toNat = 0xed → b.toNat ≤ 0x9f) → Sequence a [b, c]
  | four {a b c d : UInt8} :
      0xf0 ≤ a.toNat → a.toNat ≤ 0xf4 → Tail b → Tail c → Tail d →
      (a.toNat = 0xf0 → 0x90 ≤ b.toNat) → (a.toNat = 0xf4 → b.toNat ≤ 0x8f) →
      Sequence a [b, c, d]

/-- A byte lies in a range. -/
def InRange (range : UInt8 × UInt8) (b : UInt8) : Prop :=
  range.1.toNat ≤ b.toNat ∧ b.toNat ≤ range.2.toNat

theorem followers?_eq (lead : UInt8) :
    followers? lead =
      if lead.toNat < 0x80 then some []
      else if lead.toNat < 0xc2 then none
      else if lead.toNat < 0xe0 then some [(0x80, 0xbf)]
      else if lead.toNat = 0xe0 then some [(0xa0, 0xbf), (0x80, 0xbf)]
      else if lead.toNat = 0xed then some [(0x80, 0x9f), (0x80, 0xbf)]
      else if lead.toNat < 0xf0 then some [(0x80, 0xbf), (0x80, 0xbf)]
      else if lead.toNat = 0xf0 then some [(0x90, 0xbf), (0x80, 0xbf), (0x80, 0xbf)]
      else if lead.toNat < 0xf4 then some [(0x80, 0xbf), (0x80, 0xbf), (0x80, 0xbf)]
      else if lead.toNat = 0xf4 then some [(0x80, 0x8f), (0x80, 0xbf), (0x80, 0xbf)]
      else none := by
  simp only [followers?, UInt8.lt_iff_toNat_lt, ← UInt8.toNat_inj, UInt8.reduceToNat]

/-- **The ranges after a lead**, by their number. The first is narrower for
the leads whose sequences have a bound on the first follower. -/
inductive Ranges (lead : UInt8) : List (UInt8 × UInt8) → Prop
  | one : lead.toNat < 0x80 → Ranges lead []
  | two : 0xc2 ≤ lead.toNat → lead.toNat ≤ 0xdf → Ranges lead [(0x80, 0xbf)]
  | three {lo hi : UInt8} :
      0xe0 ≤ lead.toNat → lead.toNat ≤ 0xef → 0x80 ≤ lo.toNat → hi.toNat ≤ 0xbf →
      (lead.toNat = 0xe0 → 0xa0 ≤ lo.toNat) → (lead.toNat = 0xed → hi.toNat ≤ 0x9f) →
      Ranges lead [(lo, hi), (0x80, 0xbf)]
  | four {lo hi : UInt8} :
      0xf0 ≤ lead.toNat → lead.toNat ≤ 0xf4 → 0x80 ≤ lo.toNat → hi.toNat ≤ 0xbf →
      (lead.toNat = 0xf0 → 0x90 ≤ lo.toNat) → (lead.toNat = 0xf4 → hi.toNat ≤ 0x8f) →
      Ranges lead [(lo, hi), (0x80, 0xbf), (0x80, 0xbf)]

theorem ranges_of_followers? {lead : UInt8} {ranges : List (UInt8 × UInt8)}
    (h : followers? lead = some ranges) : Ranges lead ranges := by
  rw [followers?_eq] at h
  obtain ⟨ha, ⟨⟩⟩ | ⟨_, h⟩ := ite_eq_iff.mp h
  · exact .one ha
  obtain ⟨_, ⟨⟩⟩ | ⟨_, h⟩ := ite_eq_iff.mp h
  obtain ⟨_, ⟨⟩⟩ | ⟨_, h⟩ := ite_eq_iff.mp h
  · exact .two (by omega) (by omega)
  obtain ⟨_, ⟨⟩⟩ | ⟨_, h⟩ := ite_eq_iff.mp h
  · exact .three (by omega) (by omega) (by decide) (by decide) (fun _ => by decide) (by omega)
  obtain ⟨_, ⟨⟩⟩ | ⟨_, h⟩ := ite_eq_iff.mp h
  · exact .three (by omega) (by omega) (by decide) (by decide) (by omega) (fun _ => by decide)
  obtain ⟨_, ⟨⟩⟩ | ⟨_, h⟩ := ite_eq_iff.mp h
  · exact .three (by omega) (by omega) (by decide) (by decide) (by omega) (by omega)
  obtain ⟨_, ⟨⟩⟩ | ⟨_, h⟩ := ite_eq_iff.mp h
  · exact .four (by omega) (by omega) (by decide) (by decide) (fun _ => by decide) (by omega)
  obtain ⟨_, ⟨⟩⟩ | ⟨_, h⟩ := ite_eq_iff.mp h
  · exact .four (by omega) (by omega) (by decide) (by decide) (by omega) (by omega)
  obtain ⟨_, ⟨⟩⟩ | ⟨_, ⟨⟩⟩ := ite_eq_iff.mp h
  exact .four (by omega) (by omega) (by decide) (by decide) (by omega) (fun _ => by decide)

/-- **The ranges of a lead are those of its sequences.** -/
theorem sequence_iff {lead : UInt8} {following : List UInt8} :
    Sequence lead following ↔
      ∃ ranges, followers? lead = some ranges ∧ List.Forall₂ InRange ranges following := by
  constructor
  · intro h
    rw [followers?_eq]
    cases h with
    | one ha =>
      rw [if_pos ha]
      exact ⟨_, rfl, .nil⟩
    | two hlo hhi hb =>
      rw [if_neg (by omega), if_neg (by omega), if_pos (by omega)]
      exact ⟨_, rfl, .cons hb .nil⟩
    | three hlo hhi hb hc hfirst hsecond =>
      rw [if_neg (by omega), if_neg (by omega), if_neg (by omega)]
      split
      · next he0 => exact ⟨_, rfl, .cons ⟨hfirst he0, hb.2⟩ (.cons hc .nil)⟩
      split
      · next hed => exact ⟨_, rfl, .cons ⟨hb.1, hsecond hed⟩ (.cons hc .nil)⟩
      · rw [if_pos (by omega)]
        exact ⟨_, rfl, .cons hb (.cons hc .nil)⟩
    | four hlo hhi hb hc hd hfirst hsecond =>
      rw [if_neg (by omega), if_neg (by omega), if_neg (by omega), if_neg (by omega),
        if_neg (by omega), if_neg (by omega)]
      split
      · next hf0 => exact ⟨_, rfl, .cons ⟨hfirst hf0, hb.2⟩ (.cons hc (.cons hd .nil))⟩
      split
      · exact ⟨_, rfl, .cons hb (.cons hc (.cons hd .nil))⟩
      · next hf4 =>
        have hhigh := hsecond (by omega)
        rw [if_pos (by omega)]
        exact ⟨_, rfl, .cons ⟨hb.1, hhigh⟩ (.cons hc (.cons hd .nil))⟩
  · rintro ⟨ranges, hranges, h⟩
    cases ranges_of_followers? hranges with
    | one ha =>
      cases h
      exact .one ha
    | two hlo hhi =>
      obtain _ | ⟨hb, _ | _⟩ := h
      exact .two hlo hhi hb
    | three hlo hhi hlow hhigh hfirst hsecond =>
      obtain _ | ⟨⟨hb, hb'⟩, _ | ⟨hc, _ | _⟩⟩ := h
      exact .three hlo hhi ⟨Nat.le_trans hlow hb, Nat.le_trans hb' hhigh⟩ hc
        (fun heq => Nat.le_trans (hfirst heq) hb) (fun heq => Nat.le_trans hb' (hsecond heq))
    | four hlo hhi hlow hhigh hfirst hsecond =>
      obtain _ | ⟨⟨hb, hb'⟩, _ | ⟨hc, _ | ⟨hd, _ | _⟩⟩⟩ := h
      exact .four hlo hhi ⟨Nat.le_trans hlow hb, Nat.le_trans hb' hhigh⟩ hc hd
        (fun heq => Nat.le_trans (hfirst heq) hb) (fun heq => Nat.le_trans hb' (hsecond heq))

/-! ## Reading one character -/

theorem isPrefix_takeFollowers (ranges : List (UInt8 × UInt8)) (bytes : List UInt8) :
    takeFollowers ranges bytes <+: bytes := by
  fun_induction takeFollowers ranges bytes with
  | case1 lo hi ranges b bytes h ih => exact List.cons_prefix_cons.mpr ⟨rfl, ih⟩
  | case2 => exact List.nil_prefix
  | case3 => exact List.nil_prefix

theorem inRange_iff {lo hi b : UInt8} : (lo ≤ b && b ≤ hi) = true ↔ InRange (lo, hi) b := by
  rw [Bool.and_eq_true, decide_eq_true_iff, decide_eq_true_iff, UInt8.le_iff_toNat_le,
    UInt8.le_iff_toNat_le]
  rfl

/-- The followers taken lie in the ranges they were taken by. -/
theorem forall₂_takeFollowers (ranges : List (UInt8 × UInt8)) (bytes : List UInt8) :
    List.Forall₂ InRange (ranges.take (takeFollowers ranges bytes).length)
      (takeFollowers ranges bytes) := by
  fun_induction takeFollowers ranges bytes with
  | case1 lo hi ranges b bytes h ih => exact .cons (inRange_iff.mp h) ih
  | case2 => exact .nil
  | case3 => exact .nil

theorem takeFollowers_append {ranges : List (UInt8 × UInt8)} {following : List UInt8}
    (h : List.Forall₂ InRange ranges following) (rest : List UInt8) :
    takeFollowers ranges (following ++ rest) = following := by
  induction h with
  | nil => rfl
  | cons hb _ ih => rw [List.cons_append, takeFollowers, if_pos (inRange_iff.mpr hb), ih]

/-- A sequence is read as its character, whatever comes after it. -/
theorem readOne_of_sequence {lead : UInt8} {following : List UInt8} (h : Sequence lead following)
    (rest : List UInt8) :
    readOne lead (following ++ rest) =
      (some (Char.ofNat (codePoint lead following)), rest) := by
  obtain ⟨ranges, hranges, hfollowing⟩ := sequence_iff.mp h
  simp only [readOne, hranges, takeFollowers_append hfollowing, if_pos hfollowing.length_eq.symm,
    List.drop_left]

theorem le_of_mem_takeFollowers {ranges : List (UInt8 × UInt8)} {bytes : List UInt8}
    (h : ∀ range ∈ ranges, 0x80 ≤ range.1.toNat) :
    ∀ b ∈ takeFollowers ranges bytes, 0x80 ≤ b.toNat := by
  fun_induction takeFollowers ranges bytes with
  | case1 lo hi ranges b bytes hb ih =>
    rw [List.forall_mem_cons] at h ⊢
    exact ⟨Nat.le_trans h.1 (inRange_iff.mp hb).1, ih h.2⟩
  | case2 => exact List.forall_mem_nil _
  | case3 => exact List.forall_mem_nil _

/-- No follower is of ASCII. -/
theorem le_of_mem_ranges {lead : UInt8} {ranges : List (UInt8 × UInt8)}
    (h : followers? lead = some ranges) : ∀ range ∈ ranges, 0x80 ≤ range.1.toNat := by
  cases ranges_of_followers? h with
  | one => exact List.forall_mem_nil _
  | two => simp
  | three _ _ hlow => simpa using hlow
  | four _ _ hlow => simpa using hlow

/-- **What is read is a sequence or damage**, and no byte of damage is of
ASCII: it ends before a byte that does not fit. -/
theorem readOne_cases (lead : UInt8) (rest : List UInt8) :
    ∃ following rest', rest = following ++ rest' ∧
      (Sequence lead following ∧
          readOne lead rest = (some (Char.ofNat (codePoint lead following)), rest') ∨
        (∀ b ∈ lead :: following, 0x80 ≤ b.toNat) ∧ readOne lead rest = (none, rest')) := by
  cases hranges : followers? lead with
  | none =>
    refine ⟨[], rest, rfl, .inr ⟨fun b hb => ?_, ?_⟩⟩
    · obtain rfl := List.mem_singleton.mp hb
      by_contra hlow
      rw [followers?_eq, if_pos (by omega)] at hranges
      cases hranges
    · simp only [readOne, hranges]
  | some ranges =>
    have hinRange := forall₂_takeFollowers ranges rest
    obtain ⟨rest', hrest⟩ := isPrefix_takeFollowers ranges rest
    generalize hfollowing : takeFollowers ranges rest = following at hinRange hrest
    refine ⟨following, rest', hrest.symm, ?_⟩
    by_cases hall : following.length = ranges.length
    · rw [hall, List.take_length] at hinRange
      have hseq := sequence_iff.mpr ⟨ranges, hranges, hinRange⟩
      exact .inl ⟨hseq, hrest ▸ readOne_of_sequence hseq rest'⟩
    · refine .inr ⟨List.forall_mem_cons.mpr ⟨?_, fun b hb => ?_⟩, ?_⟩
      · by_contra hlow
        rw [followers?_eq, if_pos (by omega)] at hranges
        cases hranges
        exact hall (by simp [← hfollowing, takeFollowers])
      · exact le_of_mem_takeFollowers (le_of_mem_ranges hranges) b (hfollowing ▸ hb)
      · simp only [readOne, hranges, hfollowing, if_neg hall]
        rw [← hrest, List.drop_left]

/-! ## Code points -/

theorem codePoint_two (a b : UInt8) : codePoint a [b] = a.toNat % 32 * 64 + b.toNat % 64 := rfl

theorem codePoint_three (a b c : UInt8) :
    codePoint a [b, c] = (a.toNat % 16 * 64 + b.toNat % 64) * 64 + c.toNat % 64 := rfl

theorem codePoint_four (a b c d : UInt8) :
    codePoint a [b, c, d] =
      ((a.toNat % 8 * 64 + b.toNat % 64) * 64 + c.toNat % 64) * 64 + d.toNat % 64 := rfl

/-- A sequence of more than one byte has a code point that is not of ASCII and
that a character can have. -/
theorem codePoint_of_sequence {lead : UInt8} {following : List UInt8}
    (h : Sequence lead following) (hne : following ≠ []) :
    0x80 ≤ codePoint lead following ∧ (codePoint lead following).isValidChar := by
  unfold Nat.isValidChar
  cases h with
  | one => exact absurd rfl hne
  | two hlo hhi hb =>
    obtain ⟨hb, hb'⟩ := hb
    rw [codePoint_two]
    omega
  | three hlo hhi hb hc hfirst hsecond =>
    obtain ⟨hb, hb'⟩ := hb
    obtain ⟨hc, hc'⟩ := hc
    rw [codePoint_three]
    omega
  | four hlo hhi hb hc hd hfirst hsecond =>
    obtain ⟨hb, hb'⟩ := hb
    rw [codePoint_four]
    omega

/-! ## Reading the bytes -/

theorem readOnto_eq (done : List (Option Char)) (bytes : List UInt8) :
    readOnto done bytes = done.reverse ++ read bytes := by
  induction hn : bytes.length using Nat.strongRecOn generalizing done bytes with
  | ind n ih =>
    cases bytes with
    | nil => simp [read, readOnto]
    | cons lead rest =>
      have hlt : (readOne lead rest).2.length < n := by
        have := length_readOne_le lead rest
        rw [← hn, List.length_cons]
        omega
      rw [read, readOnto, readOnto, ih _ hlt _ _ rfl, ih _ hlt _ _ rfl]
      simp

@[simp]
theorem decodeLossy_nil : decodeLossy [] = [] := by
  rw [decodeLossy, read, readOnto]
  rfl

/-- Lenient reading goes on behind what was read. -/
theorem decodeLossy_cons (lead : UInt8) (rest : List UInt8) :
    decodeLossy (lead :: rest) =
      (readOne lead rest).1.getD replacement :: decodeLossy (readOne lead rest).2 := by
  rw [decodeLossy, read, readOnto, readOnto_eq]
  rfl

/-! ## Encoding and reading again -/

/-- **The bytes of a character are a sequence for it.** -/
theorem exists_sequence_of_char (c : Char) :
    ∃ lead following, String.utf8EncodeChar c = lead :: following ∧ Sequence lead following ∧
      codePoint lead following = c.toNat := by
  have hvalid : c.toNat < 0xd800 ∨ 0xdfff < c.toNat ∧ c.toNat < 0x110000 := c.valid
  have hval : c.val.toNat = c.toNat := rfl
  have hbyte {n : Nat} (h : n < 256) : (UInt8.ofNat n).toNat = n := UInt8.toNat_ofNat_of_lt' h
  unfold String.utf8EncodeChar
  simp only [hval]
  have htail (n : Nat) : Tail (UInt8.ofNat (n % 0x40 + 0x80)) := by
    rw [Tail, hbyte (by omega)]
    omega
  generalize c.toNat = v at *
  split
  · exact ⟨_, [], rfl, .one (by rw [hbyte (by omega)]; omega), hbyte (by omega)⟩
  split
  · refine ⟨_, _, rfl, .two ?_ ?_ (htail _), ?_⟩
    all_goals
      simp (disch := omega) only [codePoint_two, hbyte]
      omega
  split
  · refine ⟨_, _, rfl, .three ?_ ?_ (htail _) (htail _) ?_ ?_, ?_⟩
    all_goals
      simp (disch := omega) only [codePoint_three, hbyte]
      omega
  · refine ⟨_, _, rfl, .four ?_ ?_ (htail _) (htail _) (htail _) ?_ ?_, ?_⟩
    all_goals
      simp (disch := omega) only [codePoint_four, hbyte]
      omega

/-- **Reading undoes encoding.** -/
@[simp]
theorem decodeLossy_encode (s : List Char) : decodeLossy (encode s) = s := by
  induction s with
  | nil => exact decodeLossy_nil
  | cons c s ih =>
    obtain ⟨lead, following, hbytes, hseq, hcode⟩ := exists_sequence_of_char c
    rw [encode, List.flatMap_cons, hbytes, ← encode, List.cons_append, decodeLossy_cons,
      readOne_of_sequence hseq, hcode, Char.ofNat_toNat, ih, Option.getD_some]

/-! ## Bytes as chunks -/

/-- **What a chunk of bytes stands for**: an ASCII byte for its character, and
bytes that are not of ASCII for a character that is not. -/
inductive Stands : List UInt8 → Char → Prop
  | ascii {b : UInt8} : b.toNat < 0x80 → Stands [b] (Char.ofNat b.toNat)
  | beyond {b : UInt8} {chunk : List UInt8} {c : Char} :
      (∀ x ∈ b :: chunk, 0x80 ≤ x.toNat) → 0x80 ≤ c.toNat → Stands (b :: chunk) c

theorem le_of_mem_sequence {lead : UInt8} {following : List UInt8} (h : Sequence lead following)
    (hne : following ≠ []) : ∀ b ∈ lead :: following, 0x80 ≤ b.toNat := by
  cases h with
  | one => exact absurd rfl hne
  | two hlo _ hb => simp [hb.1]; omega
  | three hlo _ hb hc => simp [hb.1, hc.1]; omega
  | four hlo _ hb hc hd => simp [hb.1, hc.1, hd.1]; omega

/-- What is read at a byte stands for its character, or for the damage. -/
theorem exists_stands_readOne (lead : UInt8) (rest : List UInt8) :
    ∃ following, rest = following ++ (readOne lead rest).2 ∧
      Stands (lead :: following) ((readOne lead rest).1.getD replacement) := by
  obtain ⟨following, rest', hrest, ⟨hseq, hread⟩ | ⟨hbytes, hread⟩⟩ := readOne_cases lead rest
  · refine ⟨following, by rw [hread, hrest], ?_⟩
    rw [hread, Option.getD_some]
    by_cases hone : following = []
    · subst hone
      cases hseq with
      | one hlead => exact .ascii hlead
    · obtain ⟨hcode, hvalid⟩ := codePoint_of_sequence hseq hone
      exact .beyond (le_of_mem_sequence hseq hone) (by rw [toNat_ofNat hvalid]; exact hcode)
  · refine ⟨following, by rw [hread, hrest], ?_⟩
    rw [hread, Option.getD_none]
    exact .beyond hbytes (by decide)

/-- **The bytes are the chunks of the characters read**, one after another. -/
theorem exists_chunks (bytes : List UInt8) :
    ∃ chunks, chunks.flatten = bytes ∧ List.Forall₂ Stands chunks (decodeLossy bytes) := by
  induction hn : bytes.length using Nat.strongRecOn generalizing bytes with
  | ind n ih =>
    cases bytes with
    | nil => exact ⟨[], rfl, by rw [decodeLossy_nil]; exact .nil⟩
    | cons lead rest =>
      obtain ⟨following, hrest, hstands⟩ := exists_stands_readOne lead rest
      have hlt : (readOne lead rest).2.length < n := by
        have := length_readOne_le lead rest
        rw [← hn, List.length_cons]
        omega
      obtain ⟨chunks, hchunks, hall⟩ := ih _ hlt _ rfl
      refine ⟨(lead :: following) :: chunks, ?_, ?_⟩
      · rw [List.flatten_cons, hchunks, List.cons_append, ← hrest]
      · rw [decodeLossy_cons]
        exact .cons hstands hall

theorem Stands.ne_nil {chunk : List UInt8} {c : Char} (h : Stands chunk c) : chunk ≠ [] := by
  cases h <;> exact List.cons_ne_nil _ _

theorem toNat_char {b : UInt8} (hb : b.toNat < 0x80) : (Char.ofNat b.toNat).toNat = b.toNat :=
  toNat_ofNat (.inl (by omega))

/-- A line feed is read where its byte is and nowhere else. -/
theorem Stands.count_feed {chunk : List UInt8} {c : Char} (h : Stands chunk c) :
    chunk.count 0x0a = [c].count '\n' := by
  cases h with
  | @ascii b hb =>
    have hfeed : b = 0x0a ↔ Char.ofNat b.toNat = '\n' := by
      rw [← UInt8.toNat_inj, ← Char.toNat_inj, toNat_char hb]
      rfl
    simp only [List.count_singleton, beq_iff_eq, hfeed]
  | beyond hbytes hc =>
    rw [List.count_eq_zero_of_not_mem fun hmem => absurd (hbytes _ hmem) (by decide),
      List.count_eq_zero_of_not_mem]
    intro hmem
    obtain rfl := List.mem_singleton.mp hmem
    exact absurd hc (by decide)

/-- An ASCII character is read where its bytes are. -/
theorem Stands.eq_encode {chunk : List UInt8} {c : Char} (h : Stands chunk c)
    (hc : c.toNat < 0x80) : chunk = String.utf8EncodeChar c := by
  cases h with
  | @ascii b hb =>
    have hval : (Char.ofNat b.toNat).val.toNat = b.toNat := toNat_char hb
    rw [String.utf8EncodeChar, hval, if_pos (by omega), UInt8.ofNat_toNat]
  | beyond _ hc' => omega

/-! ## Offsets -/

/-- Where the chunk of the `n`-th character starts. -/
def offset (chunks : List (List UInt8)) (n : Nat) : Nat :=
  (chunks.take n).flatten.length

theorem flatten_eq_append (chunks : List (List UInt8)) (n : Nat) :
    chunks.flatten = (chunks.take n).flatten ++ (chunks.drop n).flatten := by
  rw [← List.flatten_append, List.take_append_drop]

theorem take_offset (chunks : List (List UInt8)) (n : Nat) :
    chunks.flatten.take (offset chunks n) = (chunks.take n).flatten := by
  rw [flatten_eq_append chunks n]
  exact List.take_left

theorem drop_offset (chunks : List (List UInt8)) (n : Nat) :
    chunks.flatten.drop (offset chunks n) = (chunks.drop n).flatten := by
  rw [flatten_eq_append chunks n]
  exact List.drop_left

section

variable {chunks : List (List UInt8)} {s : List Char}

theorem offset_lt_offset (h : List.Forall₂ Stands chunks s) {p q : Nat} (hpq : p < q)
    (hp : p < s.length) : offset chunks p < offset chunks q := by
  obtain ⟨k, rfl⟩ := Nat.exists_eq_add_of_lt hpq
  have hlater := List.forall₂_drop p h
  rw [List.drop_eq_getElem_cons hp] at hlater
  have htake : chunks.take (p + k + 1) = chunks.take p ++ (chunks.drop p).take (k + 1) := by
    rw [Nat.add_assoc, List.take_add]
  generalize chunks.drop p = later at hlater htake
  obtain _ | ⟨hc, _⟩ := hlater
  have hpos := List.length_pos_iff.mpr hc.ne_nil
  rw [offset, offset, htake, List.flatten_append, List.length_append, List.take_succ_cons,
    List.flatten_cons, List.length_append]
  omega

theorem count_feed (h : List.Forall₂ Stands chunks s) :
    chunks.flatten.count 0x0a = s.count '\n' := by
  induction h with
  | nil => rfl
  | cons hc _ ih =>
    rw [List.flatten_cons, List.count_append, hc.count_feed, ih, ← List.count_append,
      List.singleton_append]

/-- The line feeds before an offset are those before the character. -/
theorem count_take_offset (h : List.Forall₂ Stands chunks s) (n : Nat) :
    (chunks.flatten.take (offset chunks n)).count 0x0a = (s.take n).count '\n' := by
  rw [take_offset, count_feed (List.forall₂_take n h)]

theorem isPrefix_encode (h : List.Forall₂ Stands chunks s) {t : List Char} (ht : t <+: s)
    (hascii : ∀ c ∈ t, c.toNat < 0x80) : encode t <+: chunks.flatten := by
  induction t generalizing chunks s with
  | nil => exact List.nil_prefix
  | cons c t ih =>
    obtain ⟨after, rfl⟩ := ht
    rw [List.forall_mem_cons] at hascii
    obtain _ | ⟨hc, hrest⟩ := h
    rw [hc.eq_encode hascii.1, List.flatten_cons, encode, List.flatMap_cons]
    exact (List.prefix_append_right_inj _).mpr (ih hrest (List.prefix_append t after) hascii.2)

/-- The bytes of an ASCII text stand where the text was read. -/
theorem isPrefix_drop_offset (h : List.Forall₂ Stands chunks s) {t : List Char} {n : Nat}
    (ht : t <+: s.drop n) (hascii : ∀ c ∈ t, c.toNat < 0x80) :
    encode t <+: chunks.flatten.drop (offset chunks n) := by
  rw [drop_offset]
  exact isPrefix_encode (List.forall₂_drop n h) ht hascii

end

end Marginalia.Utf8
