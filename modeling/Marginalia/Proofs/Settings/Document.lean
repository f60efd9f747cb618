import Marginalia.Proofs.Settings.Choice
import Marginalia.Settings.Document

/-!
# Objects that give settings

An object gives a value to some of the fields, in any order, and may have
members with other keys, which hold any values. `Gives` says which choices
a text makes so. Where it chooses no field twice, the settings are those
choices and the defaults for the rest; a field that is chosen twice is
refused (`ofText_of_gives`).

A single member is read as its choice (`readMembers_given`,
`readMembers_repeated`) or passed over (`readMembers_other`), whatever
fields were given before it.
-/

namespace Marginalia.Settings

/-! ## What an object gives -/

/-- A key, in any spelling, with its colon. -/
inductive Label : String → List Char → Prop
  | quoted {key : String} {before written after : List Char} :
      Filler before → Spells key.toList written → Filler after →
      Label key (before ++ '"' :: (written ++ '"' :: (after ++ [':'])))

/-- A member of an object, with what it chooses. -/
inductive Member : Option Choice → List Char → Prop
  | given {f : Field} {v : f.Kind} {label before value after : List Char} :
      Label f.key label → Filler before → Writes f v value → Filler after →
      Member (some ⟨f, v⟩) (label ++ (before ++ (value ++ after)))
  /-- A member whose key is that of no field. -/
  | other {key : String} {label before value after : List Char} :
      (∀ f : Field, f.key ≠ key) → Label key label → Filler before → Value value → Filler after →
      Member none (label ++ (before ++ (value ++ after)))

/-- The members of an object, with what they choose. -/
inductive Members : List Choice → List Char → Prop
  | last {choice? : Option Choice} {s : List Char} :
      Member choice? s → Members choice?.toList s
  | more {choice? : Option Choice} {choices : List Choice} {s members : List Char} :
      Member choice? s → Members choices members →
      Members (choice?.toList ++ choices) (s ++ ',' :: members)

/-- **The choices that a text makes** which is an object. -/
inductive Gives : List Choice → List Char → Prop
  | empty {before gap after : List Char} :
      Filler before → Filler gap → Filler after →
      Gives [] (before ++ '\x7b' :: (gap ++ '\x7d' :: after))
  | members {choices : List Choice} {before members after : List Char} :
      Filler before → Members choices members → Filler after →
      Gives choices (before ++ '\x7b' :: (members ++ '\x7d' :: after))

/-! ## Single members -/

section

variable {first : Bool} {given : List Field} {settings : Settings} {s rest gap : List Char}

theorem ofKey?_key (f : Field) : Field.ofKey? f.key = some f := by
  cases f <;> decide

theorem ofKey?_eq_none {key : String} (h : ∀ f : Field, f.key ≠ key) :
    Field.ofKey? key = none :=
  List.find?_eq_none.mpr fun f _ => by simpa using h f

theorem readMembers_eq (first : Bool) (given : List Field) (settings : Settings)
    (s : List Char) :
    readMembers first given settings s =
      nextMember first s >>= fun
        | (false, rest) => .ok (settings, rest)
        | (true, rest) =>
          readText rest >>= fun (key, rest) =>
            readMember key given settings rest >>= fun ((given, settings), rest) =>
              readMembers false given settings rest := by
  rw [readMembers]
  split
  · next hn => rw [hn]; rfl
  · next hn => rw [hn]; rfl
  · next hn =>
    simp only [hn, bind, Except.bind]
    split
    · next hk => simp only [hk]
    · next hk =>
      simp only [hk]
      split <;> next hm => simp only [hm]

/-- An object goes on as its next member says, whether it is the first. -/
theorem readMembers_congr {other : Bool} {t : List Char}
    (h : nextMember first s = nextMember other t) (given : List Field) (settings : Settings) :
    readMembers first given settings s = readMembers other given settings t := by
  rw [readMembers_eq, h, ← readMembers_eq]

theorem nextMember_filler (hg : Filler gap) (first : Bool) (s : List Char) :
    nextMember first (gap ++ s) = nextMember first s := by
  rw [nextMember, skipFiller_append hg, ← nextMember]

theorem nextMember_quote (hg : Filler gap) (s : List Char) :
    nextMember true (gap ++ '"' :: s) = .ok (true, s) := by
  rw [nextMember_filler hg]
  rfl

/-- A comma leads to a member. -/
theorem nextMember_comma (hg : Filler gap) (s : List Char) :
    nextMember false (',' :: (gap ++ '"' :: s)) = nextMember true (gap ++ '"' :: s) := by
  have htoken : skipFiller (gap ++ '"' :: s) = '"' :: s := by
    rw [skipFiller_append hg, skipFiller_cons rfl]
  rw [nextMember_quote hg, nextMember, skipFiller_cons rfl]
  simp [htoken]

theorem nextMember_closing (hg : Filler gap) (first : Bool) (s : List Char) :
    nextMember first (gap ++ '\x7d' :: s) = .ok (false, s) := by
  rw [nextMember_filler hg]
  rfl

/-- The key of a member is read as it is spelled, up to its colon. -/
theorem readMembers_label {key : String} {label : List Char} (h : Label key label)
    (given : List Field) (settings : Settings) (rest : List Char) :
    ∃ gap, Filler gap ∧
      readMembers true given settings (label ++ rest) =
        readMember key given settings (gap ++ ':' :: rest) >>= fun r =>
          readMembers false r.1.1 r.1.2 r.2 := by
  cases h with
  | @quoted before written after hb hk ha =>
    refine ⟨after, ha, ?_⟩
    simp only [List.append_assoc, List.cons_append, List.nil_append]
    rw [readMembers_eq, nextMember_quote hb]
    simp only [bind, Except.bind, readText_append hk]

/-- **A member of another key is passed over.** -/
theorem readMembers_other (h : Member none s) (hr : EndsNumber rest) (given : List Field)
    (settings : Settings) :
    readMembers true given settings (s ++ rest) = readMembers false given settings rest := by
  cases h with
  | @other key label before value after hkey hl hb hv ha =>
    obtain ⟨gap, hg, hread⟩ :=
      readMembers_label hl given settings (before ++ (value ++ (after ++ rest)))
    have hskip := skipValue_append hv (hr.filler_append ha) []
    simp only [List.append_assoc, hread, readMember, ofKey?_eq_none hkey, readColon_append hg, bind,
      Except.bind, skipValue_filler hb, hskip, skipRest]
    exact readMembers_congr (nextMember_filler ha false rest) given settings

/-- **A member that gives a field chooses its value.** -/
theorem readMembers_given {choice : Choice} (h : Member (some choice) s) (hr : EndsNumber rest)
    (hnew : choice.field ∉ given) (settings : Settings) :
    readMembers true given settings (s ++ rest) =
      readMembers false (choice.field :: given) (settings.set choice.field choice.value) rest := by
  cases h with
  | @given f v label before value after hl hb hv ha =>
    obtain ⟨gap, hg, hread⟩ :=
      readMembers_label hl given settings (before ++ (value ++ (after ++ rest)))
    have hvalue := readField_append hv hb (hr.filler_append ha) settings
    simp only [List.append_assoc, hread, readMember, ofKey?_key, if_neg hnew, readColon_append hg,
      bind, Except.bind, hvalue]
    exact readMembers_congr (nextMember_filler ha false rest) _ _

/-- **A member that gives a field again is refused.** -/
theorem readMembers_repeated {choice : Choice} (h : Member (some choice) s)
    (hold : choice.field ∈ given) (settings : Settings) (rest : List Char) :
    ∃ stop, readMembers true given settings (s ++ rest) = .error stop ∧
      stop.cause = .duplicateField choice.field.key := by
  cases h with
  | @given f v label before value after hl hb hv ha =>
    obtain ⟨gap, hg, hread⟩ :=
      readMembers_label hl given settings (before ++ (value ++ (after ++ rest)))
    simp only [List.append_assoc, hread, readMember, ofKey?_key, if_pos hold, refuseDuplicate,
      skipFiller_append hg]
    exact ⟨_, rfl, rfl⟩

/-! ## Whole objects -/

theorem Label.exists_quote {key : String} {label : List Char} (h : Label key label)
    (tail : List Char) : ∃ gap rest, label ++ tail = gap ++ '"' :: rest ∧ Filler gap := by
  cases h with
  | quoted hb _ _ => exact ⟨_, _, List.append_assoc .., hb⟩

theorem Member.exists_quote {choice? : Option Choice} (h : Member choice? s) :
    ∃ gap rest, s = gap ++ '"' :: rest ∧ Filler gap := by
  cases h with
  | given hl _ _ _ => exact hl.exists_quote _
  | other _ hl _ _ _ => exact hl.exists_quote _

/-- Behind a comma the members of an object are read like behind its
bracket. -/
theorem readMembers_comma {choices : List Choice} (h : Members choices s)
    (given : List Field) (settings : Settings) (rest : List Char) :
    readMembers false given settings (',' :: (s ++ rest)) =
      readMembers true given settings (s ++ rest) := by
  obtain ⟨gap, tail, rfl, hg⟩ : ∃ gap tail, s = gap ++ '"' :: tail ∧ Filler gap := by
    cases h with
    | last hm => exact hm.exists_quote
    | more hm _ =>
      obtain ⟨gap, tail, rfl, hg⟩ := hm.exists_quote
      exact ⟨gap, _, List.append_assoc .., hg⟩
  rw [List.append_assoc, List.cons_append]
  exact readMembers_congr (nextMember_comma hg _) given settings

/-- A member is read as what it chooses, if it chooses anything. -/
theorem readMembers_member {choice? : Option Choice} (h : Member choice? s)
    (hr : EndsNumber rest) (hnew : ∀ f ∈ fieldsOf choice?.toList, f ∉ given)
    (settings : Settings) :
    readMembers true given settings (s ++ rest) =
      readMembers false (fieldsOf choice?.toList ++ given) (settings.choose choice?.toList)
        rest := by
  cases choice? with
  | none => exact readMembers_other h hr given settings
  | some choice => exact readMembers_given h hr (hnew _ (List.mem_singleton_self _)) settings

/-- A member whose field was given before is refused. -/
theorem readMembers_again {choice? : Option Choice} (h : Member choice? s)
    (hold : ¬ ∀ f ∈ fieldsOf choice?.toList, f ∉ given) (settings : Settings)
    (rest : List Char) :
    ∃ stop f, readMembers true given settings (s ++ rest) = .error stop ∧
      stop.cause = .duplicateField f.key ∧
      1 < (fieldsOf choice?.toList ++ given).count f := by
  obtain ⟨choice, rfl⟩ : ∃ choice, choice? = some choice := by
    cases choice? with
    | none => simp [fieldsOf] at hold
    | some choice => exact ⟨choice, rfl⟩
  have hmem : choice.field ∈ given := by simpa [fieldsOf] using hold
  have hcount : 0 < given.count choice.field := List.count_pos_iff.mpr hmem
  obtain ⟨stop, hread, hcause⟩ := readMembers_repeated h hmem settings rest
  refine ⟨stop, choice.field, hread, hcause, ?_⟩
  simp only [fieldsOf, Option.toList_some, List.map_cons, List.map_nil, List.cons_append,
    List.nil_append, List.count_cons_self]
  omega

theorem readMembers_closing (first : Bool) (given : List Field) (settings : Settings)
    (rest : List Char) :
    readMembers first given settings ('\x7d' :: rest) = .ok (settings, rest) := by
  rw [readMembers_eq]
  cases first <;> rfl

/-- What a member chooses counts as given from there on. -/
theorem perm_fieldsOf (choice? : Option Choice) (choices : List Choice) (given : List Field) :
    (fieldsOf (choice?.toList ++ choices) ++ given).Perm
      (fieldsOf choices ++ (fieldsOf choice?.toList ++ given)) := by
  rw [fieldsOf, List.map_append, List.append_assoc]
  exact List.perm_append_comm_assoc ..

theorem nodup_fieldsOf_append {choice? : Option Choice} (hg : given.Nodup)
    (hnew : ∀ f ∈ fieldsOf choice?.toList, f ∉ given) :
    (fieldsOf choice?.toList ++ given).Nodup := by
  cases choice? with
  | none => exact hg
  | some choice => exact List.nodup_cons.mpr ⟨hnew _ (List.mem_singleton_self _), hg⟩

/-- **The members of an object are read as their choices**, where no field
is chosen twice. By induction on the members: what was given before and
what is still chosen are different fields. -/
theorem readMembers_of_nodup {choices : List Choice} (h : Members choices s)
    (hn : (fieldsOf choices ++ given).Nodup) (settings : Settings) (rest : List Char) :
    readMembers true given settings (s ++ '\x7d' :: rest) =
      .ok (settings.choose choices, rest) := by
  induction h generalizing given settings with
  | last hm =>
    have hnew := (List.nodup_append.mp hn).2.2
    have hread := readMembers_member hm (.closing .object rest)
      (fun f hf hg => hnew f hf f hg rfl) settings
    exact hread.trans (readMembers_closing ..)
  | @more choice? choices s members hm hms ih =>
    have hlater := (perm_fieldsOf choice? choices given).nodup_iff.mp hn
    have hnew := (List.nodup_append.mp (List.nodup_append.mp hlater).2.1).2.2
    rw [List.append_assoc, List.cons_append,
      readMembers_member hm (.comma _) fun f hf hg => hnew f hf f hg rfl,
      readMembers_comma hms, ih hlater, choose_append]

/-- **A field that is chosen twice is refused**, at the first member that
does. -/
theorem readMembers_of_not_nodup {choices : List Choice} (h : Members choices s)
    (hg : given.Nodup) (hn : ¬ (fieldsOf choices ++ given).Nodup) (settings : Settings)
    (rest : List Char) :
    ∃ stop f, readMembers true given settings (s ++ '\x7d' :: rest) = .error stop ∧
      stop.cause = .duplicateField f.key ∧ 1 < (fieldsOf choices ++ given).count f := by
  induction h generalizing given settings with
  | @last choice? s hm =>
    by_cases hnew : ∀ f ∈ fieldsOf choice?.toList, f ∉ given
    · exact absurd (nodup_fieldsOf_append hg hnew) hn
    · exact readMembers_again hm hnew settings _
  | @more choice? choices s members hm hms ih =>
    have hperm := perm_fieldsOf choice? choices given
    rw [List.append_assoc, List.cons_append]
    by_cases hnew : ∀ f ∈ fieldsOf choice?.toList, f ∉ given
    · rw [readMembers_member hm (.comma _) hnew, readMembers_comma hms]
      obtain ⟨stop, f, hread, hcause, hcount⟩ := ih (nodup_fieldsOf_append hg hnew)
        (fun hlater => hn (hperm.nodup_iff.mpr hlater)) (settings.choose choice?.toList)
      exact ⟨stop, f, hread, hcause, by rwa [hperm.count_eq]⟩
    · obtain ⟨stop, f, hread, hcause, hcount⟩ :=
        readMembers_again hm hnew settings (',' :: (members ++ '\x7d' :: rest))
      refine ⟨stop, f, hread, hcause, ?_⟩
      rw [hperm.count_eq, List.count_append]
      omega

end

/-! ## Whole texts -/

section

variable {before s after : List Char} {settings : Settings}

theorem readDocument_object (h : Filler before) (s : List Char) :
    readDocument (before ++ '\x7b' :: s) = readMembers true [] {} s := by
  rw [readDocument, skipFiller_append h]
  rfl

/-- After its object a text may only hold filler. -/
theorem readWhole_object (h : Filler before) (ha : Filler after)
    (hread : readMembers true [] {} s = .ok (settings, after)) :
    readWhole (before ++ '\x7b' :: s) = .ok settings := by
  rw [readWhole, readDocument_object h, hread]
  simp only [bind, Except.bind, skipFiller_eq_nil ha]

/-- **An object gives what it says.** Where no field is chosen twice, the
chosen fields have the values that are written for them, the others their
defaults, and no hook is set. A field that is chosen twice is refused, by
its key. -/
theorem ofText_of_gives {text : String} {choices : List Choice}
    (h : Gives choices text.toList) :
    ((fieldsOf choices).Nodup →
        ∃ settings, ofText text = .ok settings ∧
          (∀ choice ∈ choices, settings.get choice.field = choice.value) ∧
          (∀ f, f ∉ fieldsOf choices → settings.get f = get {} f) ∧
          settings.noteHook = none ∧ settings.headerHook = none) ∧
      (¬ (fieldsOf choices).Nodup →
        ∃ failure f, ofText text = .error failure ∧ failure.cause = .duplicateField f.key ∧
          1 < (fieldsOf choices).count f) := by
  rw [ofText]
  generalize text.toList = s at h ⊢
  refine ⟨fun hn => ⟨choose {} choices, ?_, fun _ => get_choose_of_mem {} hn,
    fun _ => get_choose_of_notMem {}, hooks_choose {} choices⟩, fun hn => ?_⟩
  · cases h with
    | @empty before gap after hb hg ha =>
      have hread : readMembers true [] {} (gap ++ '\x7d' :: after) = .ok ({}, after) := by
        rw [readMembers_eq, nextMember_closing hg]
        rfl
      rw [readWhole_object hb ha hread]
      rfl
    | @members _ before members after hb hm ha =>
      rw [readWhole_object hb ha (readMembers_of_nodup hm (by rwa [List.append_nil]) {} after)]
      rfl
  · cases h with
    | empty => exact absurd List.nodup_nil hn
    | @members _ before members after hb hm ha =>
      obtain ⟨stop, f, hread, hcause, hcount⟩ :=
        readMembers_of_not_nodup hm List.nodup_nil (by rwa [List.append_nil]) {} after
      have herror : readWhole (before ++ '\x7b' :: (members ++ '\x7d' :: after)) = .error stop := by
        rw [readWhole, readDocument_object hb, hread]
        rfl
      rw [List.append_nil] at hcount
      rw [herror]
      exact ⟨_, f, rfl, hcause, hcount⟩

/-- A key and a character beyond sixteen bits given by code points, and a
value passed over with half a surrogate pair in it; and a field chosen
again under another spelling of its key. -/
theorem ofText_of_gives_codePoints :
    (∃ settings,
        ofText
            "\x7b\"\\u0066ileName\":\"\\uD83D\\uDE00\",\"x\":[\x7b\"y\":1e2\x7d,\"\\ud800\"]\x7d" =
          .ok settings ∧
        settings.fileName = "😀" ∧ settings.padding = 2 ∧ settings.newLine = "\n" ∧
        settings.verbose = false) ∧
      ∃ failure,
        ofText "\x7b\"verbose\":true,\"\\u0076erbose\":false\x7d" = .error failure ∧
        failure.cause = .duplicateField "verbose" := by
  have hgap : Filler [] := by decide
  constructor
  · have hkey : Spells "fileName".toList
        (['\\', 'u', '0', '0', '6', '6'] ++ ['i', 'l', 'e', 'N', 'a', 'm', 'e']) :=
      .cons (.codePoint (.digits rfl rfl rfl rfl rfl)) (.of_bare (by decide))
    have hface : Spells "😀".toList
        (['\\', 'u', 'D', '8', '3', 'D', '\\', 'u', 'D', 'E', '0', '0'] ++ []) :=
      .cons (.pair (by decide) (.digits rfl rfl rfl rfl rfl) (.digits rfl rfl rfl rfl rfl)) .nil
    have hhundred : Numeral ([] ++ (['1'] ++ ([] ++ ('e' :: ([] ++ ['2']))))) :=
      .parts (by decide) (.digits rfl (by decide) (by simp)) .none
        (.letter (by decide) (by decide) (.digits rfl (by simp)))
    have hy : Lead .object ([] ++ '"' :: (['y'] ++ '"' :: ([] ++ ':' :: []))) :=
      .key hgap (.bare (by decide) .nil) hgap hgap
    have hhalf : Loose ('\\' :: 'u' :: (['d', '8', '0', '0'] ++ [])) :=
      .codePoint (.digits rfl rfl rfl rfl rfl) .nil
    have hlist := Value.bracket .list
      (.more (.element hgap) (.bracket .object (.last hy (.scalar (.number hhundred)) hgap)) hgap
        (.last (.element hgap) (.scalar (.text hhalf)) hgap))
    have hfirst : Member (some ⟨.fileName, "😀"⟩) _ :=
      .given (.quoted hgap hkey hgap) hgap (.fileName hface) hgap
    have hx : Label "x" ([] ++ '"' :: (['x'] ++ '"' :: ([] ++ [':']))) :=
      .quoted hgap (.of_bare (by decide)) hgap
    have hother := Member.other (fun f => by cases f <;> decide) hx hgap hlist hgap
    have hgives : Gives [⟨.fileName, "😀"⟩] (String.toList
        "\x7b\"\\u0066ileName\":\"\\uD83D\\uDE00\",\"x\":[\x7b\"y\":1e2\x7d,\"\\ud800\"]\x7d") :=
      .members hgap (.more hfirst (.last hother)) hgap
    obtain ⟨settings, hread, hchosen, hdefault, -⟩ := (ofText_of_gives hgives).1 (by decide)
    exact ⟨settings, hread, hchosen _ (List.mem_singleton_self _), hdefault .padding (by decide),
      hdefault .newLine (by decide), hdefault .verbose (by decide)⟩
  · have hkey : Spells "verbose".toList
        (['\\', 'u', '0', '0', '7', '6'] ++ ['e', 'r', 'b', 'o', 's', 'e']) :=
      .cons (.codePoint (.digits rfl rfl rfl rfl rfl)) (.of_bare (by decide))
    have hfirst : Member (some ⟨.verbose, true⟩) _ :=
      .given (.quoted hgap (.of_bare (by decide)) hgap) hgap .yes hgap
    have hsecond : Member (some ⟨.verbose, false⟩) _ :=
      .given (.quoted hgap hkey hgap) hgap .no hgap
    have hgives : Gives [⟨.verbose, true⟩, ⟨.verbose, false⟩] (String.toList
        "\x7b\"verbose\":true,\"\\u0076erbose\":false\x7d") :=
      .members hgap (.more hfirst (.last hsecond)) hgap
    obtain ⟨failure, f, hread, hcause, hcount⟩ := (ofText_of_gives hgives).2 (by decide)
    obtain rfl : f = .verbose := by
      revert hcount
      cases f <;> decide
    exact ⟨failure, hread, hcause⟩

end

end Marginalia.Settings
