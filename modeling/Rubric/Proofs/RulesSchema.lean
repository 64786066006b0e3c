import Mathlib.Data.List.Forall2
import Rubric.Proofs.LastMembers
import Rubric.Proofs.RulesInJson

/-!
The JSON values that are rules. A document is an object with a member for each field, or a list
with the fields in their order. A field that is absent or null imposes nothing, and any other is a
list, of strings or of names of variants. Where a key is repeated its last value counts. What a
document gives is said here as a relation between the value and the rules, and decoding succeeds
exactly on the values in it.
-/
namespace Rubric

open Schema

theorem bind_eq_ok_iff {ε α β : Type} (x : Except ε α) (f : α → Except ε β) (b : β) :
    x >>= f = .ok b ↔ ∃ a, x = .ok a ∧ f a = .ok b := by
  cases x with
  | error e => simp [bind, Except.bind]
  | ok a => simp [bind, Except.bind]

namespace Schema

theorem decodeEach_eq_ok_iff {α β ε : Type} (decode : α → Except ε β) (R : β → α → Prop)
    (h : ∀ item value, decode item = .ok value ↔ R value item) (items : List α)
    (values : List β) : decodeEach decode items = .ok values ↔ List.Forall₂ R values items := by
  induction items generalizing values with
  | nil => simp [decodeEach, eq_comm]
  | cons item items ih =>
    rw [decodeEach, List.forall₂_cons_right_iff]
    cases hitem : decode item with
    | error e =>
      have hnone (value : β) : ¬ R value item := by
        rw [← h, hitem]
        simp
      simp [hnone]
    | ok value =>
      have hvalue (other : β) : R other item ↔ value = other := by
        rw [← h, hitem, Except.ok.injEq]
      cases hitems : decodeEach decode items with
      | error e =>
        have hnone (others : List β) : ¬ List.Forall₂ R others items := by
          rw [← ih, hitems]
          simp
        simp [hnone]
      | ok found =>
        have hfound (others : List β) : List.Forall₂ R others items ↔ found = others := by
          rw [← ih, hitems, Except.ok.injEq]
        simp [hvalue, hfound, eq_comm]

theorem Names.decode_eq_ok_iff {α : Type} (variants : Names α) (text : String) (x : α) :
    variants.decode text = .ok x ↔ variants.ofName? text = some x := by
  unfold Names.decode
  cases variants.ofName? text <;> simp

end Schema

theorem DeclarationKind.decode_eq_ok_iff (text : String) (kind : DeclarationKind) :
    names.decode text = .ok kind ↔ text = kind.keyword := by
  rw [Names.decode_eq_ok_iff]
  exact ofKeyword?_eq_some_iff text kind

theorem Construct.decode_eq_ok_iff (text : String) (construct : Construct) :
    names.decode text = .ok construct ↔ text = construct.name := by
  rw [Names.decode_eq_ok_iff]
  exact ofName?_eq_some_iff text construct

namespace Rules

theorem stringFromJson_eq_ok_iff (value : Json) (text : String) :
    stringFromJson value = .ok text ↔ value = .string text := by
  cases value <;> simp [stringFromJson]

/-- A variant is written by its name, or as an object with no other key, which is null. -/
inductive NamesVariant {α : Type} (name : α → String) (x : α) : Json → Prop
  | string : NamesVariant name x (.string (name x))
  | object (overridden : List (String × Json)) (h : ∀ member ∈ overridden, member.1 = name x) :
      NamesVariant name x (.object (overridden ++ [(name x, .null)]))

theorem variantFromJson_object_eq_ok_iff {α : Type} (variants : Names α)
    (members : List (String × Json)) (x : α) :
    variantFromJson variants (.object members) = .ok x ↔
      ∃ text, Json.lastMembers members = [(text, .null)] ∧ variants.decode text = .ok x := by
  rw [variantFromJson]
  split
  · next text value hlast =>
    cases hdecode : variants.decode text with
    | error e => simp [hlast, hdecode]
    | ok found => cases value <;> simp [hlast, hdecode]
  · next hlast =>
    constructor
    · simp
    · intro h
      obtain ⟨text, hsingle, -⟩ := h
      exact absurd hsingle (hlast text .null)

theorem variantFromJson_eq_ok_iff {α : Type} (variants : Names α) (name : α → String)
    (h : ∀ text x, variants.decode text = .ok x ↔ text = name x) (value : Json) (x : α) :
    variantFromJson variants value = .ok x ↔ NamesVariant name x value := by
  constructor
  · intro hvariant
    cases value with
    | string text =>
      obtain rfl := (h text x).mp hvariant
      exact .string
    | object members =>
      obtain ⟨text, hlast, hdecode⟩ := (variantFromJson_object_eq_ok_iff _ _ _).mp hvariant
      obtain rfl := (h text x).mp hdecode
      obtain ⟨overridden, rfl, hkeys⟩ := (Json.lastMembers_eq_singleton_iff _ _).mp hlast
      exact .object overridden hkeys
    | _ => simp [variantFromJson] at hvariant
  · intro hnames
    cases hnames with
    | string => exact (h _ x).mpr rfl
    | object overridden hkeys =>
      rw [variantFromJson_object_eq_ok_iff]
      exact ⟨name x, (Json.lastMembers_eq_singleton_iff _ _).mpr ⟨overridden, rfl, hkeys⟩,
        (h _ x).mpr rfl⟩

/-! What documents give -/

inductive FieldGives {α : Type} (item : α → Json → Prop) : Option Json → Option (List α) → Prop
  | absent : FieldGives item none none
  | null : FieldGives item (some .null) none
  | list (values : List Json) (items : List α) (h : List.Forall₂ item items values) :
      FieldGives item (some (.array values)) (some items)

theorem fieldFromJson_eq_ok_iff {α : Type} (decode : Json → Except Mismatch α)
    (item : α → Json → Prop) (h : ∀ value x, decode value = .ok x ↔ item x value)
    (found : Option Json) (field : Option (List α)) :
    fieldFromJson decode found = .ok field ↔ FieldGives item found field := by
  have hlist (values : List Json) :
      fieldFromJson decode (some (.array values)) = (decodeEach decode values).map some := rfl
  constructor
  · intro hfield
    cases found with
    | none =>
      rw [← Except.ok.inj hfield]
      exact .absent
    | some value =>
      cases value with
      | null =>
        rw [← Except.ok.inj hfield]
        exact .null
      | array values =>
        rw [hlist] at hfield
        cases hitems : decodeEach decode values with
        | error e => simp [hitems, Except.map] at hfield
        | ok items =>
          obtain rfl : some items = field := by simpa [hitems, Except.map] using hfield
          exact .list values items ((decodeEach_eq_ok_iff decode item h values items).mp hitems)
      | _ => simp [fieldFromJson, listFromJson, Except.map] at hfield
  · intro hgives
    cases hgives with
    | absent => rfl
    | null => rfl
    | list values items hitems =>
      rw [hlist, (decodeEach_eq_ok_iff decode item h values items).mpr hitems]
      rfl

/-- What a document has for each field. -/
structure FieldValues where
  expectedFunctions : Option Json
  validDeclarations : Option Json
  allowedImports : Option Json
  disallow : Option Json

/-- The values of the fields in a document, by their keys or by their places. -/
inductive HasValues : Json → FieldValues → Prop
  | object (members : List (String × Json)) (values : FieldValues)
      (hexpected : Json.Holds members "expectedFunctions" values.expectedFunctions)
      (hdeclarations : Json.Holds members "validDeclarations" values.validDeclarations)
      (himports : Json.Holds members "allowedImports" values.allowedImports)
      (hconstructs : Json.Holds members "disallow" values.disallow) :
      HasValues (.object members) values
  | list (items : List Json) (h : items.length ≤ 4) :
      HasValues (.array items) ⟨items[0]?, items[1]?, items[2]?, items[3]?⟩

/-- Rules that list what the values of the fields list. -/
structure FieldValues.Give (values : FieldValues) (rules : Rules) : Prop where
  expectedFunctions : FieldGives (fun text value => value = .string text)
    values.expectedFunctions rules.expectedFunctions
  validDeclarations : FieldGives (NamesVariant DeclarationKind.keyword)
    values.validDeclarations rules.validDeclarations
  allowedImports : FieldGives (fun text value => value = .string text)
    values.allowedImports rules.allowedImports
  disallow : FieldGives (NamesVariant Construct.name) values.disallow rules.disallow

def Gives (value : Json) (rules : Rules) : Prop :=
  ∃ values, HasValues value values ∧ values.Give rules

theorem FieldValues.give_iff (values : FieldValues) (rules : Rules) :
    values.Give rules ↔
      fieldFromJson stringFromJson values.expectedFunctions = .ok rules.expectedFunctions ∧
      fieldFromJson (variantFromJson DeclarationKind.names) values.validDeclarations =
        .ok rules.validDeclarations ∧
      fieldFromJson stringFromJson values.allowedImports = .ok rules.allowedImports ∧
      fieldFromJson (variantFromJson Construct.names) values.disallow = .ok rules.disallow := by
  have hdeclarations := variantFromJson_eq_ok_iff DeclarationKind.names DeclarationKind.keyword
    DeclarationKind.decode_eq_ok_iff
  have hconstructs := variantFromJson_eq_ok_iff Construct.names Construct.name
    Construct.decode_eq_ok_iff
  rw [fieldFromJson_eq_ok_iff _ _ stringFromJson_eq_ok_iff,
    fieldFromJson_eq_ok_iff _ _ hdeclarations,
    fieldFromJson_eq_ok_iff _ _ stringFromJson_eq_ok_iff,
    fieldFromJson_eq_ok_iff _ _ hconstructs]
  constructor
  · intro h
    exact ⟨h.expectedFunctions, h.validDeclarations, h.allowedImports, h.disallow⟩
  · intro h
    exact ⟨h.1, h.2.1, h.2.2.1, h.2.2.2⟩

def valuesOf (members : List (String × Json)) : FieldValues where
  expectedFunctions := Json.lastMember? members "expectedFunctions"
  validDeclarations := Json.lastMember? members "validDeclarations"
  allowedImports := Json.lastMember? members "allowedImports"
  disallow := Json.lastMember? members "disallow"

theorem hasValues_object_iff (members : List (String × Json)) (values : FieldValues) :
    HasValues (.object members) values ↔ values = valuesOf members := by
  constructor
  · intro h
    cases h with
    | object _ _ hexpected hdeclarations himports hconstructs =>
      rw [← Json.lastMember?_eq_iff_holds] at hexpected hdeclarations himports hconstructs
      rw [valuesOf, hexpected, hdeclarations, himports, hconstructs]
  · intro h
    rw [h]
    exact .object members _ (Json.holds_lastMember? _ _) (Json.holds_lastMember? _ _)
      (Json.holds_lastMember? _ _) (Json.holds_lastMember? _ _)

theorem fromMembers_eq_ok_iff (members : List (String × Json)) (rules : Rules) :
    fromMembers members = .ok rules ↔ (valuesOf members).Give rules := by
  rw [FieldValues.give_iff, fromMembers]
  simp only [bind_eq_ok_iff]
  constructor
  · intro h
    obtain ⟨imports, himports, constructs, hconstructs, expected, hexpected, declarations,
      hdeclarations, hrules⟩ := h
    obtain rfl := Except.ok.inj hrules
    exact ⟨hexpected, hdeclarations, himports, hconstructs⟩
  · intro h
    obtain ⟨hexpected, hdeclarations, himports, hconstructs⟩ := h
    exact ⟨_, himports, _, hconstructs, _, hexpected, _, hdeclarations, rfl⟩

theorem fromItems_eq_ok_iff (items : List Json) (rules : Rules) :
    fromItems items = .ok rules ↔
      items.length ≤ 4 ∧
        (⟨items[0]?, items[1]?, items[2]?, items[3]?⟩ : FieldValues).Give rules := by
  rw [FieldValues.give_iff, fromItems]
  simp only [bind_eq_ok_iff]
  constructor
  · intro h
    obtain ⟨expected, hexpected, declarations, hdeclarations, imports, himports, constructs,
      hconstructs, hrules⟩ := h
    split at hrules
    · next hlength =>
      obtain rfl := Except.ok.inj hrules
      exact ⟨hlength, hexpected, hdeclarations, himports, hconstructs⟩
    · exact nomatch hrules
  · intro h
    obtain ⟨hlength, hexpected, hdeclarations, himports, hconstructs⟩ := h
    exact ⟨_, hexpected, _, hdeclarations, _, himports, _, hconstructs, if_pos hlength⟩

theorem fromJson_eq_ok_iff (value : Json) (rules : Rules) :
    fromJson value = .ok rules ↔ Gives value rules := by
  constructor
  · intro h
    cases value with
    | object members =>
      exact ⟨_, (hasValues_object_iff members _).mpr rfl, (fromMembers_eq_ok_iff _ _).mp h⟩
    | array items =>
      obtain ⟨hlength, hgive⟩ := (fromItems_eq_ok_iff items rules).mp h
      exact ⟨_, .list items hlength, hgive⟩
    | _ => simp [fromJson] at h
  · intro h
    obtain ⟨values, hvalues, hgive⟩ := h
    cases value with
    | object members =>
      obtain rfl := (hasValues_object_iff members values).mp hvalues
      exact (fromMembers_eq_ok_iff _ _).mpr hgive
    | array items =>
      cases hvalues with
      | list _ hlength => exact (fromItems_eq_ok_iff items rules).mpr ⟨hlength, hgive⟩
    | _ => cases hvalues

/-! What documents qualify -/

inductive FieldFits (fits : Json → Prop) : Option Json → Prop
  | absent : FieldFits fits none
  | null : FieldFits fits (some .null)
  | list (values : List Json) (h : ∀ value ∈ values, fits value) :
      FieldFits fits (some (.array values))

theorem exists_forall₂_iff {α β : Type} (R : α → β → Prop) (values : List β) :
    (∃ items, List.Forall₂ R items values) ↔ ∀ value ∈ values, ∃ x, R x value := by
  induction values with
  | nil => simp
  | cons value values ih =>
    rw [List.forall_mem_cons, ← ih]
    constructor
    · intro h
      obtain ⟨items, hitems⟩ := h
      obtain ⟨x, rest, hx, hrest, -⟩ := List.forall₂_cons_right_iff.mp hitems
      exact ⟨⟨x, hx⟩, rest, hrest⟩
    · intro h
      obtain ⟨⟨x, hx⟩, rest, hrest⟩ := h
      exact ⟨x :: rest, .cons hx hrest⟩

theorem exists_fieldGives_iff {α : Type} (item : α → Json → Prop) (found : Option Json) :
    (∃ field, FieldGives item found field) ↔ FieldFits (fun value => ∃ x, item x value) found := by
  constructor
  · intro h
    obtain ⟨field, hfield⟩ := h
    cases hfield with
    | absent => exact .absent
    | null => exact .null
    | list values items hitems => exact .list values ((exists_forall₂_iff _ _).mp ⟨items, hitems⟩)
  · intro h
    cases h with
    | absent => exact ⟨none, .absent⟩
    | null => exact ⟨none, .null⟩
    | list values hvalues =>
      obtain ⟨items, hitems⟩ := (exists_forall₂_iff _ _).mpr hvalues
      exact ⟨some items, .list values items hitems⟩

/-- Each field is absent, null or a list of what the field lists. -/
structure FieldValues.Fit (values : FieldValues) : Prop where
  expectedFunctions : FieldFits (fun value => ∃ text, value = .string text)
    values.expectedFunctions
  validDeclarations : FieldFits
    (fun value => ∃ kind, NamesVariant DeclarationKind.keyword kind value) values.validDeclarations
  allowedImports : FieldFits (fun value => ∃ text, value = .string text) values.allowedImports
  disallow : FieldFits (fun value => ∃ construct, NamesVariant Construct.name construct value)
    values.disallow

def Qualifies (value : Json) : Prop := ∃ values, HasValues value values ∧ values.Fit

theorem FieldValues.exists_give_iff (values : FieldValues) :
    (∃ rules, values.Give rules) ↔ values.Fit := by
  constructor
  · intro h
    obtain ⟨rules, hgive⟩ := h
    exact {
      expectedFunctions := (exists_fieldGives_iff _ _).mp ⟨_, hgive.expectedFunctions⟩
      validDeclarations := (exists_fieldGives_iff _ _).mp ⟨_, hgive.validDeclarations⟩
      allowedImports := (exists_fieldGives_iff _ _).mp ⟨_, hgive.allowedImports⟩
      disallow := (exists_fieldGives_iff _ _).mp ⟨_, hgive.disallow⟩ }
  · intro h
    obtain ⟨expected, hexpected⟩ := (exists_fieldGives_iff _ _).mpr h.expectedFunctions
    obtain ⟨declarations, hdeclarations⟩ := (exists_fieldGives_iff _ _).mpr h.validDeclarations
    obtain ⟨imports, himports⟩ := (exists_fieldGives_iff _ _).mpr h.allowedImports
    obtain ⟨constructs, hconstructs⟩ := (exists_fieldGives_iff _ _).mpr h.disallow
    exact ⟨⟨expected, declarations, imports, constructs⟩,
      ⟨hexpected, hdeclarations, himports, hconstructs⟩⟩

theorem exists_gives_iff (value : Json) : (∃ rules, Gives value rules) ↔ Qualifies value := by
  unfold Gives Qualifies
  rw [exists_comm]
  apply exists_congr
  intro values
  rw [exists_and_left, values.exists_give_iff]

/-! Documents as texts -/

theorem ofJsonText_of_parse_ok (text : String) (value : Json)
    (h : Json.parse text.toList = .ok value) :
    ofJsonText text = (fromJson value).mapError fun mismatch => .schema mismatch.message := by
  rw [ofJsonText, h]
  cases hvalue : fromJson value <;> simp [hvalue, Except.mapError]

theorem ofJsonText_eq_ok_iff (text : String) (value : Json)
    (h : Json.parse text.toList = .ok value) (rules : Rules) :
    ofJsonText text = .ok rules ↔ Gives value rules := by
  rw [← fromJson_eq_ok_iff, ofJsonText_of_parse_ok text value h]
  cases fromJson value <;> simp [Except.mapError]

theorem ofJsonText_eq_schema (text : String) (value : Json)
    (h : Json.parse text.toList = .ok value) (hvalue : ¬ Qualifies value) :
    ∃ message, ofJsonText text = .error (.schema message) := by
  rw [ofJsonText_of_parse_ok text value h]
  cases hread : fromJson value with
  | error mismatch => exact ⟨mismatch.message, rfl⟩
  | ok rules =>
    have hgives := (fromJson_eq_ok_iff value rules).mp hread
    exact absurd ((exists_gives_iff value).mp ⟨rules, hgives⟩) hvalue

theorem ofJsonText_eq_malformed (text : String) (fault : Json.Fault)
    (h : Json.parse text.toList = .error fault) :
    ofJsonText text = .error (.malformed (fault.describe text.toList)) := by
  rw [ofJsonText, h]

/-- Objects with the same values in all fields are decoded alike, faults included. -/
theorem fromMembers_congr (members others : List (String × Json))
    (h : valuesOf members = valuesOf others) : fromMembers members = fromMembers others := by
  obtain ⟨hexpected, hdeclarations, himports, hconstructs⟩ := FieldValues.mk.inj h
  rw [fromMembers, fromMembers, hexpected, hdeclarations, himports, hconstructs]

def fieldKeys : List String :=
  ["expectedFunctions", "validDeclarations", "allowedImports", "disallow"]

/-- Only what objects have under the keys of the fields matters. -/
theorem valuesOf_congr (members others : List (String × Json))
    (h : ∀ key ∈ fieldKeys, Json.lastMember? members key = Json.lastMember? others key) :
    valuesOf members = valuesOf others := by
  simp only [fieldKeys, List.forall_mem_cons] at h
  obtain ⟨hexpected, hdeclarations, himports, hconstructs, -⟩ := h
  rw [valuesOf, valuesOf, hexpected, hdeclarations, himports, hconstructs]

def fieldMembers (members : List (String × Json)) : List (String × Json) :=
  members.filter fun member => fieldKeys.contains member.1

theorem valuesOf_fieldMembers (members : List (String × Json)) :
    valuesOf (fieldMembers members) = valuesOf members := by
  apply valuesOf_congr
  intro key hkey
  exact Json.lastMember?_filter members (fun key => fieldKeys.contains key) key
    (List.contains_iff_mem.mpr hkey)

theorem ofJsonText_eq_of_fieldMembers (text other : String) (members others : List (String × Json))
    (htext : Json.parse text.toList = .ok (.object members))
    (hother : Json.parse other.toList = .ok (.object others))
    (h : fieldMembers members = fieldMembers others) : ofJsonText text = ofJsonText other := by
  have hvalues : valuesOf members = valuesOf others := by
    rw [← valuesOf_fieldMembers members, h, valuesOf_fieldMembers]
  rw [ofJsonText_of_parse_ok text _ htext, ofJsonText_of_parse_ok other _ hother, fromJson,
    fromJson, fromMembers_congr members others hvalues]

/-- A text that is JSON is read as rules exactly when its value has the shape of rules. Then the
rules list what the fields list, and members that are no fields do not matter. A value of another
shape is reported as such, and a text that is not JSON as that, whatever it begins with. -/
theorem json_read_exactly (text : String) :
    (∀ value, Json.parse text.toList = .ok value →
      ((∃ rules, ofJsonText text = .ok rules) ↔ Qualifies value) ∧
      (∀ rules, ofJsonText text = .ok rules ↔ Gives value rules) ∧
      (¬ Qualifies value → ∃ message, ofJsonText text = .error (.schema message)) ∧
      ∀ members others other, value = .object members →
        Json.parse other.toList = .ok (.object others) →
        fieldMembers members = fieldMembers others → ofJsonText text = ofJsonText other) ∧
    ∀ fault, Json.parse text.toList = .error fault →
      ofJsonText text = .error (.malformed (fault.describe text.toList)) := by
  constructor
  · intro value hvalue
    have hgives := ofJsonText_eq_ok_iff text value hvalue
    refine ⟨?_, hgives, ofJsonText_eq_schema text value hvalue, ?_⟩
    · rw [← exists_gives_iff]
      exact exists_congr hgives
    · intro members others other hmembers hother hfields
      rw [hmembers] at hvalue
      exact ofJsonText_eq_of_fieldMembers text other members others hvalue hother hfields
  · intro fault hfault
    exact ofJsonText_eq_malformed text fault hfault

/-- A variant named twice, in either way, an overridden value of the wrong type, and a member
that is no field; and a document with a wrong field and something after its end. -/
theorem json_read_exactly_repeated_keys :
    let document : Json := .object [("disallow", .array [.string "loops",
      .object [("loops", .array []), ("loops", .null)]]), ("x", .bool true)]
    let wrong : Json := .object [("disallow", .bool true)]
    Json.parse document.compact.toList = .ok document ∧
    ofJsonText document.compact = .ok { disallow := some [.loops, .loops] } ∧
    ofJsonText wrong.compact =
      .error (.schema "invalid type: boolean `true`, expected a sequence") ∧
    ofJsonText (wrong.compact ++ "x") =
      .error (.malformed "trailing characters at line 1 column 18") := by
  intro document wrong
  have hdocument : Json.parse document.compact.toList = .ok document := by
    apply Json.parse_compact
    have hnamed : Json.Writable 125 (.object [("loops", .array []), ("loops", .null)]) :=
      .object 124 _ (List.forall_mem_cons.mpr
        ⟨.array 123 _ nofun, List.forall_mem_singleton.mpr (.null 124)⟩)
    have hlist : Json.Writable 126 (.array [.string "loops",
        .object [("loops", .array []), ("loops", .null)]]) :=
      .array 125 _ (List.forall_mem_cons.mpr ⟨.string 125 _, List.forall_mem_singleton.mpr hnamed⟩)
    exact .object 126 _ (List.forall_mem_cons.mpr
      ⟨hlist, List.forall_mem_singleton.mpr (.bool 126 true)⟩)
  have hwrong : Json.Writable Json.depthLimit wrong :=
    .object 126 _ (List.forall_mem_singleton.mpr (.bool 126 true))
  have hfault : Json.parse (wrong.compact ++ "x").toList =
      .error (.at .trailingCharacters ['x']) := by
    have htext : (wrong.compact ++ "x").toList = Json.compactChars wrong ++ ['x'] := by
      simp [Json.compact]
    rw [htext, Json.parse, (Json.takes_compact Json.depthLimit wrong hwrong).reads]
    rfl
  refine ⟨hdocument, ?_, ?_, ?_⟩
  · rw [((json_read_exactly _).1 _ hdocument).2.1]
    refine ⟨valuesOf _, (hasValues_object_iff _ _).mpr rfl, .absent, .absent, .absent, ?_⟩
    have hoverridden : ∀ member ∈ [("loops", Json.array [])], member.1 = Construct.loops.name := by
      simp [Construct.name]
    exact .list _ _ (.cons .string (.cons (.object _ hoverridden) .nil))
  · rw [ofJsonText_of_parse_ok _ _ (Json.parse_compact wrong hwrong)]
    rfl
  · rw [(json_read_exactly _).2 _ hfault]
    congr 2
    decide +kernel

end Rules

end Rubric
