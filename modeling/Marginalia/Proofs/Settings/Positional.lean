import Marginalia.Proofs.Settings.Document
import Marginalia.Proofs.Settings.Refusal

/-!
# Lists that give settings

A list gives its values to the fields in their order, and an object can give
the same values by key. When either can be read, and what it gives, is one
question, whether its values are written for the first fields (`Fits`): of
the elements of a list (`readElements_eq_ok_iff`) as of the members of an
object (`readMembers_eq_ok_iff`). Hence the two kinds of text agree
(`ofText_list_iff_object`).
-/

namespace Marginalia.Settings

/-! ## Values for the first fields -/

/-- **The values are written for the first of the fields**, as the given
choices. -/
inductive Fits : List Field → List (List Char) → List Choice → Prop
  | nil {fields : List Field} : Fits fields [] []
  | cons {f : Field} {v : f.Kind} {s : List Char} {fields : List Field}
      {values : List (List Char)} {choices : List Choice} :
      Writes f v s → Fits fields values choices →
        Fits (f :: fields) (s :: values) (⟨f, v⟩ :: choices)

theorem Fits.length_le {fields : List Field} {values : List (List Char)} {choices : List Choice}
    (h : Fits fields values choices) : values.length ≤ fields.length := by
  induction h with
  | nil => exact Nat.zero_le _
  | cons _ _ ih => exact Nat.succ_le_succ ih

theorem fits_cons_iff {s : List Char} {fields : List Field} {values : List (List Char)}
    {choices : List Choice} :
    Fits fields (s :: values) choices ↔
      ∃ f v fields' choices', fields = f :: fields' ∧ choices = ⟨f, v⟩ :: choices' ∧
        Writes f v s ∧ Fits fields' values choices' := by
  constructor
  · intro h
    cases h with
    | cons hw hfits => exact ⟨_, _, _, _, rfl, rfl, hw, hfits⟩
  · rintro ⟨f, v, fields', choices', rfl, rfl, hw, hfits⟩
    exact .cons hw hfits

/-! ## Lists -/

/-- What stands between the brackets of a list of the given values. -/
inductive Elements : List (List Char) → List Char → Prop
  | last {before value after : List Char} :
      Filler before → Value value → Filler after → Elements [value] (before ++ (value ++ after))
  | more {before value after s : List Char} {values : List (List Char)} :
      Filler before → Value value → Filler after → Elements values s →
      Elements (value :: values) (before ++ (value ++ (after ++ ',' :: s)))

/-- **A text that is the list of the given values.** -/
inductive IsList : List (List Char) → List Char → Prop
  | empty {before gap after : List Char} :
      Filler before → Filler gap → Filler after → IsList [] (before ++ '[' :: (gap ++ ']' :: after))
  | elements {values : List (List Char)} {before s after : List Char} :
      Filler before → Elements values s → Filler after →
      IsList values (before ++ '[' :: (s ++ ']' :: after))

section

variable {gap s : List Char} {values : List (List Char)} {settings : Settings}
  {fields : List Field} {result : Settings × List Char}

theorem nextElement_filler (hg : Filler gap) (first : Bool) (s : List Char) :
    nextElement first (gap ++ s) = nextElement first s := by
  rw [nextElement, skipFiller_append hg, ← nextElement]

theorem readElements_filler (hg : Filler gap) (first : Bool) (settings : Settings)
    (s : List Char) (fields : List Field) :
    readElements first settings (gap ++ s) fields = readElements first settings s fields := by
  cases fields with
  | nil => rw [readElements, readListEnd, skipFiller_append hg, ← readListEnd, ← readElements]
  | cons f fields => rw [readElements, nextElement_filler hg, ← readElements]

theorem readElements_closing (first : Bool) (settings : Settings) (rest : List Char)
    (fields : List Field) :
    readElements first settings (']' :: rest) fields = .ok (settings, rest) := by
  cases fields <;> rfl

theorem nextElement_value (hv : Value s) (hg : Filler gap) (rest : List Char) :
    nextElement true (gap ++ (s ++ rest)) = .ok (true, s ++ rest) := by
  obtain ⟨c, tail, rfl, hfiller, hc⟩ := hv.exists_cons
  rw [nextElement_filler hg, List.cons_append, nextElement, skipFiller_cons hfiller]
  simp [hc]

/-- A comma leads to an element. -/
theorem nextElement_comma (hv : Value s) (hg : Filler gap) (rest : List Char) :
    nextElement false (',' :: (gap ++ (s ++ rest))) = nextElement true (gap ++ (s ++ rest)) := by
  obtain ⟨c, tail, rfl, hfiller, hc⟩ := id hv.exists_cons
  have htoken : skipFiller (gap ++ (c :: tail ++ rest)) = c :: tail ++ rest := by
    rw [skipFiller_append hg, List.cons_append, skipFiller_cons hfiller]
  rw [nextElement_value hv hg, nextElement, skipFiller_cons rfl]
  dsimp only
  rw [if_neg (by decide), if_neg (by decide), if_pos rfl, htoken]
  exact if_neg hc

/-- A list has no more elements than there are fields. -/
theorem readElements_nil_ne_ok {c : Char} (first : Bool) (settings : Settings)
    (hg : Filler gap) (hfiller : isFiller c = false) (hc : c ≠ ']') (s : List Char) :
    readElements first settings (gap ++ c :: s) [] ≠ .ok result := by
  intro h
  obtain ⟨rest, hend, -⟩ := exists_of_bind_eq_ok h
  rw [readListEnd, skipFiller_append hg, skipFiller_cons hfiller] at hend
  dsimp only at hend
  rw [if_neg hc] at hend
  split at hend
  · split at hend <;> cases hend
  · cases hend

/-- **The first element of a list** is read where it is written for the
first field. -/
theorem readElements_value (hv : Value s) (hg : Filler gap) {rest : List Char}
    (hr : EndsNumber rest) (settings : Settings) (fields : List Field) :
    readElements true settings (gap ++ (s ++ rest)) fields = .ok result ↔
      ∃ f v fields', fields = f :: fields' ∧ Writes f v s ∧
        readElements false (settings.set f v) rest fields' = .ok result := by
  cases fields with
  | nil =>
    obtain ⟨c, tail, rfl, hfiller, hc⟩ := hv.exists_cons
    refine iff_of_false (readElements_nil_ne_ok true settings hg hfiller hc _) ?_
    rintro ⟨f, v, fields', hfields, -⟩
    cases hfields
  | cons f fields =>
    have hstep : readElements true settings (gap ++ (s ++ rest)) (f :: fields) =
        readField f settings ([] ++ (s ++ rest)) >>= fun r =>
          readElements false r.1 r.2 fields := by
      rw [readElements, nextElement_value hv hg]
      rfl
    rw [hstep, readField_bind_eq_ok_iff hv (by decide) hr]
    constructor
    · rintro ⟨v, hw, hread⟩
      exact ⟨f, v, fields, rfl, hw, hread⟩
    · rintro ⟨f', v, fields', hfields, hw, hread⟩
      obtain ⟨rfl, rfl⟩ := List.cons.inj hfields
      exact ⟨v, hw, hread⟩

/-- Behind a comma the elements of a list are read like behind its bracket,
where a field is left for them. -/
theorem readElements_comma (h : Elements values s) (settings : Settings) (fields : List Field)
    (rest : List Char) :
    readElements false settings (',' :: (s ++ rest)) fields = .ok result ↔
      readElements true settings (s ++ rest) fields = .ok result := by
  obtain ⟨gap, value, tail, rfl, hg, hv⟩ :
      ∃ gap value tail, s = gap ++ (value ++ tail) ∧ Filler gap ∧ Value value := by
    cases h with
    | last hb hv _ => exact ⟨_, _, _, rfl, hb, hv⟩
    | more hb hv _ _ => exact ⟨_, _, _, rfl, hb, hv⟩
  rw [List.append_assoc, List.append_assoc]
  cases fields with
  | nil =>
    have hnone : Filler [] := by decide
    refine iff_of_false ?_ ?_
    · exact readElements_nil_ne_ok false settings hnone rfl (by decide) _
    · obtain ⟨c, start, rfl, hfiller, hc⟩ := hv.exists_cons
      exact readElements_nil_ne_ok true settings hg hfiller hc _
  | cons f fields => rw [readElements, nextElement_comma hv hg, ← readElements]

/-- **A list is read where its values fit the fields**, and as their
choices. By induction on the elements: each is written for its field or
refused by it. -/
theorem readElements_eq_ok_iff (h : Elements values s) (settings : Settings)
    (fields : List Field) (rest : List Char) :
    readElements true settings (s ++ ']' :: rest) fields = .ok result ↔
      ∃ choices, Fits fields values choices ∧ result = (settings.choose choices, rest) := by
  induction h generalizing settings fields with
  | @last before value after hb hv ha =>
    have hend : EndsNumber (after ++ ']' :: rest) := .filler_append ha (.closing .list rest)
    rw [List.append_assoc, List.append_assoc, readElements_value hv hb hend]
    constructor
    · rintro ⟨f, v, fields', rfl, hw, hread⟩
      rw [readElements_filler ha, readElements_closing] at hread
      exact ⟨[⟨f, v⟩], .cons hw .nil, (Except.ok.inj hread).symm⟩
    · rintro ⟨choices, hfits, rfl⟩
      obtain ⟨f, v, fields', choices', rfl, rfl, hw, hlater⟩ := fits_cons_iff.mp hfits
      cases hlater
      exact ⟨f, v, fields', rfl, hw, by rw [readElements_filler ha, readElements_closing]; rfl⟩
  | @more before value after s values hb hv ha hs ih =>
    rw [List.append_assoc, List.append_assoc, List.append_assoc, List.cons_append,
      readElements_value hv hb (.filler_append ha (.comma _))]
    simp only [readElements_filler ha, readElements_comma hs, ih]
    constructor
    · rintro ⟨f, v, fields', rfl, hw, choices, hfits, rfl⟩
      exact ⟨⟨f, v⟩ :: choices, .cons hw hfits, rfl⟩
    · rintro ⟨choices, hfits, rfl⟩
      obtain ⟨f, v, fields', choices', rfl, rfl, hw, hlater⟩ := fits_cons_iff.mp hfits
      exact ⟨f, v, fields', rfl, hw, choices', hlater, rfl⟩

end

/-! ## Objects -/

/-- What stands between the braces of an object that gives the values to the
first of the fields, in their order. -/
inductive Assigns : List Field → List (List Char) → List Char → Prop
  | last {f : Field} {fields : List Field} {label before value after : List Char} :
      Label f.key label → Filler before → Value value → Filler after →
      Assigns (f :: fields) [value] (label ++ (before ++ (value ++ after)))
  | more {f : Field} {fields : List Field} {label before value after s : List Char}
      {values : List (List Char)} :
      Label f.key label → Filler before → Value value → Filler after → Assigns fields values s →
      Assigns (f :: fields) (value :: values)
        (label ++ (before ++ (value ++ (after ++ ',' :: s))))

/-- **A text that is an object which gives the values** to the first fields,
in their order. -/
inductive IsObject : List (List Char) → List Char → Prop
  | empty {before gap after : List Char} :
      Filler before → Filler gap → Filler after →
      IsObject [] (before ++ '\x7b' :: (gap ++ '\x7d' :: after))
  | members {values : List (List Char)} {before s after : List Char} :
      Filler before → Assigns Field.all values s → Filler after →
      IsObject values (before ++ '\x7b' :: (s ++ '\x7d' :: after))

section

variable {f : Field} {fields given : List Field} {gap label s rest : List Char}
  {values : List (List Char)} {result : Settings × List Char}

theorem readMembers_filler (hg : Filler gap) (first : Bool) (given : List Field)
    (settings : Settings) (s : List Char) :
    readMembers first given settings (gap ++ s) = readMembers first given settings s :=
  readMembers_congr (nextMember_filler hg first s) given settings

/-- **The first member of an object** is read where its value is written for
its field. -/
theorem readMembers_value (hl : Label f.key label) (hg : Filler gap) (hv : Value s)
    (hr : EndsNumber rest) (hnew : f ∉ given) (settings : Settings) :
    readMembers true given settings (label ++ (gap ++ (s ++ rest))) = .ok result ↔
      ∃ v, Writes f v s ∧
        readMembers false (f :: given) (settings.set f v) rest = .ok result := by
  obtain ⟨space, hspace, hread⟩ := readMembers_label hl given settings (gap ++ (s ++ rest))
  have hstep : readMembers true given settings (label ++ (gap ++ (s ++ rest))) =
      readField f settings (gap ++ (s ++ rest)) >>= fun r =>
        readMembers false (f :: given) r.1 r.2 := by
    simp only [hread, readMember, ofKey?_key, if_neg hnew, readColon_append hspace, bind,
      Except.bind]
    cases readField f settings (gap ++ (s ++ rest)) <;> rfl
  rw [hstep, readField_bind_eq_ok_iff hv hg hr]

/-- Behind a comma the members of an object are read like behind its
brace. -/
theorem readMembers_comma_of_assigns (h : Assigns fields values s) (given : List Field)
    (settings : Settings) (rest : List Char) :
    readMembers false given settings (',' :: (s ++ rest)) =
      readMembers true given settings (s ++ rest) := by
  obtain ⟨gap, tail, rfl, hg⟩ : ∃ gap tail, s = gap ++ '"' :: tail ∧ Filler gap := by
    cases h with
    | last hl _ _ _ => exact hl.exists_quote _
    | more hl _ _ _ _ => exact hl.exists_quote _
  rw [List.append_assoc, List.cons_append]
  exact readMembers_congr (nextMember_comma hg _) given settings

/-- **An object is read where its values fit the fields**, and as their
choices. By induction on the members, as for a list; the fields that follow
are other ones than those given before. -/
theorem readMembers_eq_ok_iff (h : Assigns fields values s) (hn : (fields ++ given).Nodup)
    (settings : Settings) (rest : List Char) :
    readMembers true given settings (s ++ '\x7d' :: rest) = .ok result ↔
      ∃ choices, Fits fields values choices ∧ result = (settings.choose choices, rest) := by
  induction h generalizing given settings with
  | @last f fields label before value after hl hb hv ha =>
    have hend : EndsNumber (after ++ '\x7d' :: rest) := .filler_append ha (.closing .object rest)
    have hnew : f ∉ given := fun hmem => (List.nodup_cons.mp hn).1 (List.mem_append_right _ hmem)
    rw [List.append_assoc, List.append_assoc, List.append_assoc,
      readMembers_value hl hb hv hend hnew]
    simp only [readMembers_filler ha, readMembers_closing]
    constructor
    · rintro ⟨v, hw, hread⟩
      exact ⟨[⟨f, v⟩], .cons hw .nil, (Except.ok.inj hread).symm⟩
    · rintro ⟨choices, hfits, rfl⟩
      obtain ⟨_, v, _, choices', hfields, rfl, hw, hlater⟩ := fits_cons_iff.mp hfits
      obtain ⟨rfl, rfl⟩ := List.cons.inj hfields
      cases hlater
      exact ⟨v, hw, rfl⟩
  | @more f fields label before value after s values hl hb hv ha hs ih =>
    have hnew : f ∉ given := fun hmem => (List.nodup_cons.mp hn).1 (List.mem_append_right _ hmem)
    have hlater : (fields ++ f :: given).Nodup := List.perm_middle.nodup_iff.mpr hn
    rw [List.append_assoc, List.append_assoc, List.append_assoc, List.append_assoc,
      List.cons_append, readMembers_value hl hb hv (.filler_append ha (.comma _)) hnew]
    simp only [readMembers_filler ha, readMembers_comma_of_assigns hs, ih hlater]
    constructor
    · rintro ⟨v, hw, choices, hfits, rfl⟩
      exact ⟨⟨f, v⟩ :: choices, .cons hw hfits, rfl⟩
    · rintro ⟨choices, hfits, rfl⟩
      obtain ⟨_, v, _, choices', hfields, rfl, hw, hfits⟩ := fits_cons_iff.mp hfits
      obtain ⟨rfl, rfl⟩ := List.cons.inj hfields
      exact ⟨v, hw, choices', hfits, rfl⟩

end

/-! ## Whole texts -/

section

variable {values : List (List Char)} {s after : List Char}

theorem fits_nil_iff {fields : List Field} {choices : List Choice} :
    Fits fields [] choices ↔ choices = [] := by
  constructor
  · rintro ⟨⟩
    rfl
  · rintro rfl
    exact .nil

/-- A text is read as its list or object is, with filler around it. -/
theorem readWhole_eq_ok_iff (ha : Filler after)
    (h : ∀ result, readDocument s = .ok result ↔
      ∃ choices, Fits Field.all values choices ∧ result = (choose {} choices, after))
    (settings : Settings) :
    readWhole s = .ok settings ↔
      ∃ choices, Fits Field.all values choices ∧ settings = choose {} choices := by
  constructor
  · intro hread
    obtain ⟨result, hresult, hend⟩ := exists_of_bind_eq_ok hread
    obtain ⟨choices, hfits, rfl⟩ := (h result).mp hresult
    simp only [skipFiller_eq_nil ha] at hend
    exact ⟨choices, hfits, (Except.ok.inj hend).symm⟩
  · rintro ⟨choices, hfits, rfl⟩
    have hresult := (h _).mpr ⟨choices, hfits, rfl⟩
    rw [readWhole, hresult]
    simp only [bind, Except.bind, skipFiller_eq_nil ha]

theorem IsList.readWhole_eq_ok_iff (h : IsList values s) (settings : Settings) :
    readWhole s = .ok settings ↔
      ∃ choices, Fits Field.all values choices ∧ settings = choose {} choices := by
  have hbracket {before tail : List Char} (hb : Filler before) :
      readDocument (before ++ '[' :: tail) = readElements true {} tail Field.all := by
    rw [readDocument, skipFiller_append hb]
    rfl
  cases h with
  | empty hb hg ha =>
    refine Settings.readWhole_eq_ok_iff ha (fun result => ?_) settings
    rw [hbracket hb, readElements_filler hg, readElements_closing]
    simp [fits_nil_iff, choose, eq_comm]
  | elements hb he ha =>
    refine Settings.readWhole_eq_ok_iff ha (fun result => ?_) settings
    rw [hbracket hb, readElements_eq_ok_iff he]

theorem IsObject.readWhole_eq_ok_iff (h : IsObject values s) (settings : Settings) :
    readWhole s = .ok settings ↔
      ∃ choices, Fits Field.all values choices ∧ settings = choose {} choices := by
  cases h with
  | empty hb hg ha =>
    refine Settings.readWhole_eq_ok_iff ha (fun result => ?_) settings
    rw [readDocument_object hb, readMembers_filler hg, readMembers_closing]
    simp [fits_nil_iff, choose, eq_comm]
  | members hb hm ha =>
    refine Settings.readWhole_eq_ok_iff ha (fun result => ?_) settings
    rw [readDocument_object hb, readMembers_eq_ok_iff hm (by decide)]

/-- A text gives settings where reading it does. -/
theorem ofText_eq_ok_iff (text : String) (settings : Settings) :
    ofText text = .ok settings ↔ readWhole text.toList = .ok settings := by
  rw [ofText]
  cases readWhole text.toList with
  | error stop => constructor <;> intro h <;> cases h
  | ok found =>
    have hok : (Except.ok found).mapError (Stop.failure · text.toList) = .ok found := rfl
    rw [hok, Except.ok.injEq, Except.ok.injEq]

theorem Elements.value_of_mem (h : Elements values s) : ∀ value ∈ values, Value value := by
  induction h with
  | last _ hv _ => simpa using hv
  | more _ hv _ _ ih => exact List.forall_mem_cons.mpr ⟨hv, ih⟩

theorem IsList.value_of_mem (h : IsList values s) : ∀ value ∈ values, Value value := by
  cases h with
  | empty => exact fun _ hv => absurd hv List.not_mem_nil
  | elements _ he _ => exact he.value_of_mem

/-- Values can be given by key as long as there are fields. -/
theorem exists_assigns {fields : List Field} (hne : values ≠ [])
    (hlen : values.length ≤ fields.length) (h : ∀ value ∈ values, Value value) :
    ∃ s, Assigns fields values s := by
  have hnone : Filler [] := by decide
  have hlabel (f : Field) : Label f.key _ :=
    .quoted hnone (.of_bare (by cases f <;> decide)) hnone
  induction values generalizing fields with
  | nil => exact absurd rfl hne
  | cons value values ih =>
    rw [List.forall_mem_cons] at h
    cases fields with
    | nil => simp at hlen
    | cons f fields =>
      by_cases hlast : values = []
      · subst hlast
        exact ⟨_, .last (hlabel f) hnone h.1 hnone⟩
      · obtain ⟨s, hs⟩ := ih hlast (Nat.le_of_succ_le_succ hlen) h.2
        exact ⟨_, .more (hlabel f) hnone h.1 hnone hs⟩

theorem exists_isObject (hlen : values.length ≤ Field.all.length)
    (h : ∀ value ∈ values, Value value) : ∃ s, IsObject values s := by
  have hnone : Filler [] := by decide
  by_cases hne : values = []
  · subst hne
    exact ⟨_, .empty hnone hnone hnone⟩
  · obtain ⟨s, hs⟩ := exists_assigns hne hlen h
    exact ⟨_, .members hnone hs hnone⟩

end

/-- **A list gives what the object with its values gives.** Of at most four
values there is such an object, and a list and an object of the same values
are read or refused together, and as the same settings. A list of more than
four values is refused. -/
theorem ofText_list_iff_object {list : String} {values : List (List Char)}
    (h : IsList values list.toList) :
    (values.length ≤ 4 →
        (∃ object : String, IsObject values object.toList) ∧
        ∀ object : String, IsObject values object.toList →
          ∀ settings, ofText list = .ok settings ↔ ofText object = .ok settings) ∧
      (4 < values.length → ∃ failure, ofText list = .error failure) := by
  refine ⟨fun hlen => ⟨?_, fun object ho settings => ?_⟩, fun hlen => ?_⟩
  · obtain ⟨s, hs⟩ := exists_isObject hlen h.value_of_mem
    exact ⟨String.ofList s, by rwa [String.toList_ofList]⟩
  · rw [ofText_eq_ok_iff, ofText_eq_ok_iff, h.readWhole_eq_ok_iff, ho.readWhole_eq_ok_iff]
  · cases hread : ofText list with
    | error failure => exact ⟨failure, rfl⟩
    | ok settings =>
      rw [ofText_eq_ok_iff, h.readWhole_eq_ok_iff] at hread
      obtain ⟨choices, hfits, -⟩ := hread
      exact absurd hfits.length_le (Nat.not_le.mpr hlen)

/-- A text with an escape in it and a count, by position and by key; and a
list of five values, none of which is of a wrong kind. -/
theorem ofText_list_iff_object_escaped :
    (∃ settings,
        ofText "[\"\\u0054\", 3]" = .ok settings ∧
        ofText "\x7b\"fileName\":\"\\u0054\",\"padding\":3\x7d" = .ok settings ∧
        settings.fileName = "T" ∧ settings.padding = 3 ∧ settings.newLine = "\n") ∧
      ∃ failure, ofText "[\"\",3,\"\",true,null]" = .error failure := by
  have hnone : Filler [] := by decide
  have hspace : Filler [' '] := by decide
  have hloose : Loose ('\\' :: 'u' :: (['0', '0', '5', '4'] ++ [])) :=
    .codePoint (.digits rfl rfl rfl rfl rfl) .nil
  have hspelled : Spells "T".toList (['\\', 'u', '0', '0', '5', '4'] ++ []) :=
    .cons (.codePoint (.digits rfl rfl rfl rfl rfl)) .nil
  have hthree : Whole ['3'] := .digits rfl (by decide) (by simp)
  have hempty : Value ['"', '"'] := .scalar (.text .nil)
  have hnumber : Value ([] ++ (['3'] ++ ([] ++ []))) :=
    .scalar (.number (.parts (by decide) hthree .none .none))
  have htext : Value ('"' :: ('\\' :: 'u' :: (['0', '0', '5', '4'] ++ []) ++ ['"'])) :=
    .scalar (.text hloose)
  constructor
  · have hlist : IsList _ (String.toList "[\"\\u0054\", 3]") :=
      .elements hnone (.more hnone htext hnone (.last hspace hnumber hnone)) hnone
    have hobject : IsObject _
        (String.toList "\x7b\"fileName\":\"\\u0054\",\"padding\":3\x7d") :=
      .members hnone
        (.more (.quoted hnone (.of_bare (by decide)) hnone) hnone htext hnone
          (.last (.quoted hnone (.of_bare (by decide)) hnone) hnone hnumber hnone)) hnone
    have hfits : Fits Field.all _ [⟨.fileName, "T"⟩, ⟨.padding, (3 : Nat)⟩] :=
      .cons (.fileName hspelled) (.cons (.padding hthree (by decide)) .nil)
    have hread : ofText "\x7b\"fileName\":\"\\u0054\",\"padding\":3\x7d" =
        .ok (choose {} [⟨.fileName, "T"⟩, ⟨.padding, (3 : Nat)⟩]) :=
      (ofText_eq_ok_iff ..).mpr ((hobject.readWhole_eq_ok_iff _).mpr ⟨_, hfits, rfl⟩)
    have hsame := ((ofText_list_iff_object hlist).1 (by decide)).2 _ hobject
    exact ⟨_, (hsame _).mpr hread, hread, rfl, rfl, rfl⟩
  · have hlist : IsList _ (String.toList "[\"\",3,\"\",true,null]") :=
      .elements hnone
        (.more hnone hempty hnone (.more hnone hnumber hnone (.more hnone hempty hnone
          (.more hnone (.scalar .yes) hnone (.last hnone (.scalar .null) hnone))))) hnone
    exact (ofText_list_iff_object hlist).2 (by decide)

end Marginalia.Settings
