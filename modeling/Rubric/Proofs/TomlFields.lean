import Mathlib.Data.List.TakeDrop
import Rubric.Proofs.JsonLayouts
import Rubric.Toml.Document

/-!
TOML documents made of fields: a line for each, with a bare key and a list of strings as JSON
writes it on one line. Such a list is a list of TOML too, unless a string holds the one character
that the two formats treat differently, and lines with different keys make one table in their
order.
-/
namespace Rubric.Toml

open Text

def strings (items : List String) : Toml := .array (items.map .string)

/-- Strings whose JSON literals a document can hold. -/
def Plain (items : List String) : Prop := ∀ item ∈ items, '\x7f' ∉ item.toList

/-! Lists of strings -/

theorem compactChars_strings (items : List String) :
    Json.compactChars (Json.strings items) =
      '[' :: (Json.separated [] Json.literal items ++ [']']) := by
  have hseparated (items : List String) :
      Json.separated [] Json.compactChars (items.map Json.string) =
        Json.separated [] Json.literal items := by
    cases items with
    | nil => rfl
    | cons first others =>
      simp only [List.map_cons, Json.separated, Json.compactChars, List.flatMap_map]
  rw [Json.strings, Json.compactChars, Json.compactItems_eq, hseparated]
  rfl

theorem readScalar_quote (s : List Char) :
    readScalar ('"' :: s) =
      (readString ('"' :: s)).map fun step => (.string step.1, step.2) := rfl

theorem readValue_quote (depth : Nat) (s : List Char) :
    readValue depth ('"' :: s) = readScalar ('"' :: s) := by
  cases depth <;> rfl

theorem readValue_literalChars (depth : Nat) (plain : Char → Bool) (text : String)
    (htext : ∀ c ∈ text.toList, Holds plain c) (s : List Char) (hs : s.head? ≠ some '"') :
    readValue depth (literalChars plain text ++ s) = some (.string text, s) := by
  have hread := readString_literal plain text htext s hs
  rw [literalChars_append] at hread
  rw [literalChars_append, readValue_quote, readScalar_quote, hread, Option.map_some]

theorem readValue_literal (depth : Nat) (text : String) (htext : '\x7f' ∉ text.toList)
    (s : List Char) (hs : s.head? ≠ some '"') :
    readValue depth (Json.literal text ++ s) = some (.string text, s) := by
  have hholds : ∀ c ∈ text.toList, Holds Json.isPlain c := by
    intro c hc
    exact holds_json c fun heq => htext (heq ▸ hc)
  exact readValue_literalChars depth Json.isPlain text hholds s hs

/-- A list that does not end at once starts with an item. -/
theorem readItems_quote (readItem : List Char → Take Toml) (fuel : Nat) (s : List Char) :
    readItems readItem (fuel + 1) ('"' :: s) =
      (match readItem ('"' :: s) with
      | none => none
      | some (item, rest) =>
          match skipTrivia false rest with
          | ']' :: rest => some ([item], rest)
          | ',' :: rest =>
              match readItems readItem fuel rest with
              | some (items, rest) => some (item :: items, rest)
              | none => none
          | _ => none) := rfl

theorem readItems_last (readItem : List Char → Take Toml) (fuel : Nat) (s rest : List Char)
    (item : Toml) (hitem : readItem ('"' :: s) = some (item, ']' :: rest)) :
    readItems readItem (fuel + 1) ('"' :: s) = some ([item], rest) := by
  rw [readItems_quote, hitem]
  rfl

theorem readItems_more (readItem : List Char → Take Toml) (fuel : Nat) (s after rest : List Char)
    (item : Toml) (items : List Toml) (hitem : readItem ('"' :: s) = some (item, ',' :: after))
    (hrest : readItems readItem fuel after = some (items, rest)) :
    readItems readItem (fuel + 1) ('"' :: s) = some (item :: items, rest) := by
  have hcomma : skipTrivia false (',' :: after) = ',' :: after := rfl
  simp only [readItems_quote, hitem, hcomma, hrest]

/-- The strings of a list, of which there is one at least, up to the closing bracket. -/
theorem readItems_separated (depth : Nat) (first : String) (others : List String)
    (hplain : Plain (first :: others)) (rest : List Char) (fuel : Nat)
    (hfuel : others.length < fuel) :
    readItems (readValue depth) fuel
        (Json.separated [] Json.literal (first :: others) ++ ']' :: rest) =
      some ((first :: others).map .string, rest) := by
  induction others generalizing first fuel with
  | nil =>
    obtain ⟨fuel, rfl⟩ := Nat.exists_eq_add_one.mpr hfuel
    have hitem := readValue_literal depth first (hplain first (by simp)) (']' :: rest) (by simp)
    rw [Json.literal, literalChars_append] at hitem
    simpa [Json.separated, Json.literal, literalChars_append] using
      readItems_last (readValue depth) fuel _ rest _ hitem
  | cons second others ih =>
    obtain ⟨fuel, rfl⟩ := Nat.exists_eq_add_one.mpr (Nat.zero_lt_of_lt hfuel)
    rw [List.length_cons, Nat.add_lt_add_iff_right] at hfuel
    have hrest := ih second (fun item h => hplain item (List.mem_cons_of_mem first h)) fuel hfuel
    have hitem := readValue_literal depth first (hplain first (by simp))
      (',' :: (Json.separated [] Json.literal (second :: others) ++ ']' :: rest)) (by simp)
    rw [Json.separated_cons_cons, List.nil_append, List.append_assoc, List.cons_append]
    rw [Json.literal, literalChars_append] at hitem ⊢
    exact readItems_more (readValue depth) fuel _ _ rest _ _ hitem hrest

theorem readValue_list (depth : Nat) (s : List Char) :
    readValue (depth + 1) ('[' :: s) =
      (readItems (readValue depth) (s.length + 1) s).map fun step =>
        (.array step.1, step.2) := rfl

/-- A text of a list of strings, which is read whatever comes after it. -/
structure ReadsStrings (items : List String) (written : List Char) : Prop where
  starts : written.head? = some '['
  reads : ∀ depth rest,
    readValue (depth + 1) (written ++ rest) = some (strings items, rest)

/-- A JSON list of strings is read as it stands. -/
theorem readsStrings_compactChars (items : List String) (hplain : Plain items) :
    ReadsStrings items (Json.compactChars (Json.strings items)) := by
  refine ⟨by rw [compactChars_strings, List.head?_cons], fun depth rest => ?_⟩
  rw [compactChars_strings, List.cons_append, readValue_list, List.append_assoc,
    List.singleton_append]
  cases items with
  | nil => rfl
  | cons first others =>
    have hlength := Json.length_le_separated [] Json.literal (first :: others)
      fun item _ => (Json.takes_string 0 item).starts
    rw [List.length_cons] at hlength
    rw [readItems_separated depth first others hplain rest _ (by rw [List.length_append]; omega)]
    rfl

/-! Lines -/

structure BareKey (key : String) : Prop where
  nonempty : key.toList ≠ []
  bare : ∀ c ∈ key.toList, isBareKeyChar c = true

def fieldLine (field : String × List String) : String :=
  field.1 ++ " = " ++ (Json.strings field.2).compact ++ "\n"

theorem toList_fieldLine (field : String × List String) :
    (fieldLine field).toList =
      field.1.toList ++ ' ' :: '=' :: ' ' ::
        (Json.compactChars (Json.strings field.2) ++ ['\n']) := by
  simp [fieldLine, Json.compact]

theorem ne_of_isBareKeyChar (c d : Char) (hc : isBareKeyChar c = true)
    (hd : isBareKeyChar d = false) : c ≠ d := by
  rintro rfl
  simp [hc] at hd

theorem skipSpaces_bare (c : Char) (s : List Char) (hc : isBareKeyChar c = true) :
    skipSpaces (c :: s) = c :: s := by
  have hspace : isSpace c = false := by
    simp [isSpace, ne_of_isBareKeyChar c ' ' hc rfl, ne_of_isBareKeyChar c '\t' hc rfl]
  simp [skipSpaces, hspace]

theorem BareKey.exists_cons {key : String} (h : BareKey key) :
    ∃ c rest, key.toList = c :: rest ∧ isBareKeyChar c = true := by
  obtain ⟨c, rest, hkey⟩ := List.exists_cons_of_ne_nil h.nonempty
  exact ⟨c, rest, hkey, h.bare c (by simp [hkey])⟩

theorem readKeyPart_bare (key : String) (hkey : BareKey key) (s : List Char) :
    readKeyPart (key.toList ++ ' ' :: s) = some (key, ' ' :: s) := by
  have hspace : isBareKeyChar ' ' = false := rfl
  have hword : (key.toList ++ ' ' :: s).span isBareKeyChar = (key.toList, ' ' :: s) := by
    rw [List.span_eq_takeWhile_dropWhile, List.takeWhile_append_of_pos hkey.bare,
      List.dropWhile_append_of_pos hkey.bare]
    simp [hspace]
  obtain ⟨c, rest, hchars, hc⟩ := hkey.exists_cons
  have hquote := ne_of_isBareKeyChar c '"' hc rfl
  have happostrophe := ne_of_isBareKeyChar c '\x27' hc rfl
  unfold readKeyPart
  split
  · next heq => simp [hchars, hquote] at heq
  · next heq => simp [hchars, happostrophe] at heq
  · dsimp only
    rw [hword]
    simp [hkey.nonempty]

theorem readKey_bare (key : String) (hkey : BareKey key) (s : List Char) :
    readKey (key.toList ++ ' ' :: '=' :: s) = some (⟨[], key⟩, '=' :: s) := by
  have hstart : skipSpaces (key.toList ++ ' ' :: '=' :: s) = key.toList ++ ' ' :: '=' :: s := by
    obtain ⟨c, rest, hchars, hc⟩ := hkey.exists_cons
    rw [hchars, List.cons_append, skipSpaces_bare c _ hc]
  have hend : skipSpaces (' ' :: '=' :: s) = '=' :: s := rfl
  have hparts (count : Nat) : readKeyParts (count + 1) (key.toList ++ ' ' :: '=' :: s) =
      some ([key], '=' :: s) := by
    simp only [readKeyParts, hstart, readKeyPart_bare key hkey, hend]
    rfl
  rw [readKey, nestingLimit, hparts 78]
  rfl

/-- The pair of a field, up to the end of its line. -/
theorem readPair_field (key : String) (items : List String) (written : List Char)
    (hkey : BareKey key) (hwritten : ReadsStrings items written) (depth : Nat) (s : List Char) :
    readPair (readValue (depth + 1)) (key.toList ++ ' ' :: '=' :: ' ' :: (written ++ s)) =
      some ((⟨[], key⟩, strings items), skipSpaces s) := by
  have hspace : skipSpaces (' ' :: (written ++ s)) = written ++ s := by
    obtain ⟨more, rfl⟩ := List.head?_eq_some_iff.mp hwritten.starts
    rfl
  simp only [readPair, readKey_bare key hkey, hspace, hwritten.reads]

def fieldPair (field : String × List String) : Line := .pair ⟨[], field.1⟩ (strings field.2)

/-- The line of a field, however its list is written. -/
theorem readLines_field (field : String × List String) (written : List Char)
    (hkey : BareKey field.1) (hwritten : ReadsStrings field.2 written) (fuel : Nat)
    (s : List Char) :
    readLines (fuel + 1) (field.1.toList ++ ' ' :: '=' :: ' ' :: (written ++ '\n' :: s)) =
      (readLines fuel s).map (fieldPair field :: ·) := by
  obtain ⟨c, rest, hchars, hc⟩ := hkey.exists_cons
  obtain ⟨more, hmore⟩ : ∃ more,
      field.1.toList ++ ' ' :: '=' :: ' ' :: (written ++ '\n' :: s) = c :: more := by
    rw [hchars]
    exact ⟨_, rfl⟩
  have hline : readLine (c :: more) = some (fieldPair field, '\n' :: s) := by
    have hbracket := ne_of_isBareKeyChar c '[' hc rfl
    unfold readLine
    split
    · next heq => exact absurd (List.cons.inj heq).1 hbracket
    · next heq => exact absurd (List.cons.inj heq).1 hbracket
    · rw [← hmore, nestingLimit, readPair_field field.1 field.2 written hkey hwritten 78]
      rfl
  have hend : lineEnd ('\n' :: s) = some s := rfl
  -- The line is neither blank nor a comment.
  have hsaying : ¬ (c = '#' ∨ c = '\n' ∨ c = '\r') := by
    rintro (rfl | rfl | rfl) <;> simp [isBareKeyChar, isDigit] at hc
  rw [hmore]
  simp only [readLines, skipSpaces_bare c more hc, if_neg hsaying, hline, hend, Option.bind_some]

theorem readLines_fieldLine (field : String × List String) (hkey : BareKey field.1)
    (hplain : Plain field.2) (fuel : Nat) (s : List Char) :
    readLines (fuel + 1) ((fieldLine field).toList ++ s) =
      (readLines fuel s).map (fieldPair field :: ·) := by
  have hwritten := readsStrings_compactChars field.2 hplain
  rw [← readLines_field field _ hkey hwritten fuel s]
  simp [toList_fieldLine]

/-- Lines that are read one by one are read together. -/
theorem readLines_each (line : String × List String → List Char)
    (fields : List (String × List String))
    (h : ∀ field ∈ fields, ∀ fuel s, readLines (fuel + 1) (line field ++ s) =
      (readLines fuel s).map (fieldPair field :: ·))
    (fuel : Nat) (hfuel : fields.length < fuel) :
    readLines fuel (fields.flatMap line) = some (fields.map fieldPair) := by
  induction fields generalizing fuel with
  | nil =>
    obtain ⟨fuel, rfl⟩ := Nat.exists_eq_add_one.mpr hfuel
    rfl
  | cons field rest ih =>
    obtain ⟨fuel, rfl⟩ := Nat.exists_eq_add_one.mpr (Nat.zero_lt_of_lt hfuel)
    rw [List.length_cons, Nat.add_lt_add_iff_right] at hfuel
    have hrest := ih (fun other hother => h other (List.mem_cons_of_mem field hother)) fuel hfuel
    rw [List.flatMap_cons, h field List.mem_cons_self, hrest]
    rfl

/-! Tables -/

theorem Entries.insert_new (entries : Entries) (key : String) (value : Toml)
    (h : key ∉ entries.map Prod.fst) :
    entries.insert ⟨[], key⟩ value = some (entries ++ [(key, .value value)]) := by
  have hany : (entries.any fun entry => entry.1 == key) = false := by
    rw [List.any_eq_false]
    intro entry hentry heq
    exact h (List.mem_map.mpr ⟨entry, hentry, beq_iff_eq.mp heq⟩)
  have hget : entries.get? key = none := by
    rw [Entries.get?, Option.map_eq_none_iff, List.find?_eq_none]
    simpa using hany
  simp [insert, changeAt, insertHere, hget, put, hany]

/-- Fields with new keys are added to the current table in their order. -/
theorem foldlM_add_fields (fields : List (String × List String)) (draft : Draft)
    (hnodup : (draft.current.map Prod.fst ++ fields.map Prod.fst).Nodup) :
    (fields.map fieldPair).foldlM Draft.add draft =
      some { draft with current :=
        draft.current ++ fields.map fun field => (field.1, .value (strings field.2)) } := by
  -- The keys in the table and those still to come stay different from each other.
  induction fields generalizing draft with
  | nil => simp
  | cons field rest ih =>
    have hsplit : draft.current.map Prod.fst ++ (field :: rest).map Prod.fst =
        (draft.current ++ [(field.1, Item.value (strings field.2))]).map Prod.fst ++
          rest.map Prod.fst := by simp
    have hnew : field.1 ∉ draft.current.map Prod.fst := by
      intro hmem
      have hdisjoint := (List.nodup_append.mp hnodup).2.2
      exact hdisjoint field.1 hmem field.1 (by simp) rfl
    have hadd : draft.add (fieldPair field) = some { draft with current :=
        draft.current ++ [(field.1, .value (strings field.2))] } := by
      simp only [fieldPair, Draft.add, Entries.insert_new _ _ _ hnew, Option.map_some]
    have hrest := ih { draft with current :=
      draft.current ++ [(field.1, .value (strings field.2))] } (hsplit ▸ hnodup)
    rw [List.map_cons, List.foldlM_cons, hadd, Option.bind_eq_bind, Option.bind_some, hrest]
    simp

theorem entriesOfLines_fields (fields : List (String × List String))
    (hnodup : (fields.map Prod.fst).Nodup) :
    entriesOfLines (fields.map fieldPair) =
      some (fields.map fun field => (field.1, .value (strings field.2))) := by
  rw [entriesOfLines, foldlM_add_fields fields Draft.empty (by simpa [Draft.empty] using hnodup)]
  simp [Draft.empty, Draft.close]

theorem entriesValue_fields (fields : List (String × List String)) :
    entriesValue (fields.map fun field => (field.1, .value (strings field.2))) =
      fields.map fun field => (field.1, strings field.2) := by
  induction fields with
  | nil => rfl
  | cons field rest ih => rw [List.map_cons, entriesValue, ih, Item.toValue, List.map_cons]

theorem unmark_strings (items : List String) : unmark (strings items) = some (strings items) := by
  have hitems : unmarkItems (items.map Toml.string) = some (items.map Toml.string) := by
    induction items with
    | nil => rfl
    | cons item rest ih => simp only [List.map_cons, unmarkItems, unmark, ih]
  rw [strings, unmark, hitems, Option.map_some]

theorem unmarkEntries_fields (fields : List (String × List String)) :
    unmarkEntries (fields.map fun field => (field.1, strings field.2)) =
      some (fields.map fun field => (field.1, strings field.2)) := by
  induction fields with
  | nil => rfl
  | cons field rest ih => simp only [List.map_cons, unmarkEntries, unmark_strings, ih]

/-- The mark of moments is no bare key. -/
theorem unmark_fields (fields : List (String × List String))
    (hkeys : ∀ field ∈ fields, BareKey field.1) :
    unmark (.table (fields.map fun field => (field.1, strings field.2))) =
      some (.table (fields.map fun field => (field.1, strings field.2))) := by
  cases fields with
  | nil => rfl
  | cons field rest =>
    have hmark : field.1 ≠ momentMark := by
      intro heq
      have hdollar := (hkeys field List.mem_cons_self).bare '$' (by rw [heq]; decide)
      exact absurd hdollar (by decide)
    simp only [List.map_cons, unmark, if_neg hmark, unmark_strings, unmarkEntries_fields]

/-- Nor does a bare key start with a byte order mark. -/
theorem dropMark_fields (fields : List (String × List String))
    (hkeys : ∀ field ∈ fields, BareKey field.1) :
    dropMark (fields.flatMap fun field => (fieldLine field).toList) =
      fields.flatMap fun field => (fieldLine field).toList := by
  cases fields with
  | nil => rfl
  | cons field rest =>
    obtain ⟨c, more, hchars, hc⟩ := (hkeys field List.mem_cons_self).exists_cons
    have hmark := ne_of_isBareKeyChar c '\ufeff' hc rfl
    rw [List.flatMap_cons, toList_fieldLine, hchars]
    unfold dropMark
    split
    · next heq => exact absurd (List.cons.inj heq).1 hmark
    · rfl

/-- A document whose lines are the fields is the table of the fields. -/
theorem parse_of_readLines (fields : List (String × List String))
    (hkeys : ∀ field ∈ fields, BareKey field.1) (hnodup : (fields.map Prod.fst).Nodup)
    (text : List Char) (hmark : dropMark text = text)
    (hlines : readLines (text.length + 1) text = some (fields.map fieldPair)) :
    parse text = some (.table (fields.map fun field => (field.1, strings field.2))) := by
  rw [parse, hmark]
  simp only [hlines, Option.bind_some, entriesOfLines_fields fields hnodup, entriesValue_fields,
    unmark_fields fields hkeys]

/-- A document with a line for each field is the table of the fields. -/
theorem parse_fields (fields : List (String × List String))
    (hkeys : ∀ field ∈ fields, BareKey field.1) (hnodup : (fields.map Prod.fst).Nodup)
    (hplain : ∀ field ∈ fields, Plain field.2) :
    parse (String.join (fields.map fieldLine)).toList =
      some (.table (fields.map fun field => (field.1, strings field.2))) := by
  have htext : (String.join (fields.map fieldLine)).toList =
      fields.flatMap fun field => (fieldLine field).toList := by
    rw [String.toList_join, List.flatMap_map]
  have hlength := length_le_flatMap (fun field => (fieldLine field).toList) fields
    fun field _ => by simp [toList_fieldLine]
  rw [htext]
  apply parse_of_readLines fields hkeys hnodup _ (dropMark_fields fields hkeys)
  apply readLines_each _ fields _ _ (Nat.lt_succ_of_le hlength)
  intro field hfield
  exact readLines_fieldLine field (hkeys field hfield) (hplain field hfield)

end Rubric.Toml
