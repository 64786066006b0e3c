import Rubric.Proofs.JsonLayouts
import Rubric.Rules.Starter

/-!
Rules survive being written as JSON. A document has a member for each field that is there, keyed
by the field's name, and every item stands in it by its name. Which fields are there and what they
list can be read off the document again, in either layout, so different rules have different
texts.
-/
namespace Rubric

open Schema

theorem Schema.decodeEach_map {α β ε : Type} (decode : α → Except ε β) (encode : β → α)
    (h : ∀ x, decode (encode x) = .ok x) (items : List β) :
    decodeEach decode (items.map encode) = .ok items := by
  induction items with
  | nil => rfl
  | cons item rest ih => simp only [List.map_cons, decodeEach, h item, ih]

theorem DeclarationKind.decode_keyword (kind : DeclarationKind) :
    names.decode kind.keyword = .ok kind := by
  cases kind <;> rfl

theorem Construct.decode_name (construct : Construct) :
    names.decode construct.name = .ok construct := by
  cases construct <;> rfl

/-- Looking a key up in a list whose entries under that key are known. -/
theorem find?_key_of_mem_iff {α : Type} (entries : List (String × α)) (key : String)
    (found : Option α) (h : ∀ value, (key, value) ∈ entries ↔ found = some value) :
    (entries.find? fun entry => entry.1 == key).map Prod.snd = found := by
  cases hfind : entries.find? fun entry => entry.1 == key with
  | some entry =>
    have hkey : entry.1 = key := by simpa using List.find?_some hfind
    have hmem := List.mem_of_find?_eq_some hfind
    rw [Option.map_some, ← (h entry.2).mp (hkey ▸ hmem)]
  | none =>
    cases found with
    | none => rfl
    | some value =>
      have hmem := (h value).mpr rfl
      have hnone := List.find?_eq_none.mp hfind _ hmem
      simp at hnone

theorem find?_key_map {α β : Type} (encode : α → β) (entries : List (String × α)) (key : String)
    (found : Option α) (h : ∀ value, (key, value) ∈ entries ↔ found = some value) :
    ((entries.map fun entry => (entry.1, encode entry.2)).find? fun entry => entry.1 == key).map
      Prod.snd = found.map encode := by
  rw [← find?_key_of_mem_iff entries key found h, List.find?_map, Option.map_map, Option.map_map]
  rfl

namespace Rules

def fields (rules : Rules) : List (String × List String) :=
  let field (key : String) (items : Option (List String)) : List (String × List String) :=
    (items.map fun items => (key, items)).toList
  field "expectedFunctions" rules.expectedFunctions ++
    field "validDeclarations"
      (rules.validDeclarations.map fun kinds => kinds.map DeclarationKind.keyword) ++
    field "allowedImports" rules.allowedImports ++
    field "disallow" (rules.disallow.map fun constructs => constructs.map Construct.name)

theorem toJson_eq (rules : Rules) :
    rules.toJson =
      .object (rules.fields.map fun field => (field.1, Json.strings field.2)) := by
  have hmember (key : String) (items : Option (List String)) :
      memberOf key items = ((items.map fun items => (key, items)).toList).map
        fun field => (field.1, Json.strings field.2) := by
    cases items <;> rfl
  simp only [toJson, fields, hmember, List.map_append]

theorem mem_fields (rules : Rules) (key : String) (items : List String) :
    (key, items) ∈ rules.fields ↔
      (key = "expectedFunctions" ∧ rules.expectedFunctions = some items) ∨
      (key = "validDeclarations" ∧
        rules.validDeclarations.map (fun kinds => kinds.map DeclarationKind.keyword) =
          some items) ∨
      (key = "allowedImports" ∧ rules.allowedImports = some items) ∨
      (key = "disallow" ∧
        rules.disallow.map (fun constructs => constructs.map Construct.name) = some items) := by
  have hfield (name : String) (found : Option (List String)) :
      (key, items) ∈ (found.map fun items => (name, items)).toList ↔
        key = name ∧ found = some items := by
    cases found <;> simp [eq_comm]
  simp only [fields, List.mem_append, hfield, or_assoc]

theorem mem_fields_expectedFunctions (rules : Rules) (items : List String) :
    ("expectedFunctions", items) ∈ rules.fields ↔ rules.expectedFunctions = some items := by
  simp [mem_fields]

theorem mem_fields_validDeclarations (rules : Rules) (items : List String) :
    ("validDeclarations", items) ∈ rules.fields ↔
      (rules.validDeclarations.map fun kinds => kinds.map DeclarationKind.keyword) =
        some items := by
  simp [mem_fields]

theorem mem_fields_allowedImports (rules : Rules) (items : List String) :
    ("allowedImports", items) ∈ rules.fields ↔ rules.allowedImports = some items := by
  simp [mem_fields]

theorem mem_fields_disallow (rules : Rules) (items : List String) :
    ("disallow", items) ∈ rules.fields ↔
      (rules.disallow.map fun constructs => constructs.map Construct.name) = some items := by
  simp [mem_fields]

theorem fieldFromJson_strings {α : Type} (decode : Json → Except Mismatch α) (name : α → String)
    (h : ∀ x, decode (.string (name x)) = .ok x) (field : Option (List α)) :
    fieldFromJson decode ((field.map fun items => items.map name).map Json.strings) =
      .ok field := by
  cases field with
  | none => rfl
  | some items =>
    have hitems := decodeEach_map decode (fun x => Json.string (name x)) h items
    simp only [Option.map_some, Json.strings, List.map_map, fieldFromJson, listFromJson]
    rw [← Function.comp_def] at hitems
    rw [hitems]
    rfl

/-- The member of a field that is there or not. -/
theorem lastMember?_fields (rules : Rules) (key : String) (found : Option (List String))
    (h : ∀ items, (key, items) ∈ rules.fields ↔ found = some items) :
    Json.lastMember? (rules.fields.map fun field => (field.1, Json.strings field.2)) key =
      found.map Json.strings := by
  -- The last member of a key is looked for, but a document has only one.
  rw [Json.lastMember?, ← List.map_reverse]
  apply find?_key_map
  intro items
  rw [List.mem_reverse]
  exact h items

theorem fromJson_toJson (rules : Rules) : fromJson rules.toJson = .ok rules := by
  have hexpected := fieldFromJson_strings stringFromJson id (fun _ => rfl) rules.expectedFunctions
  have hdeclarations := fieldFromJson_strings (variantFromJson DeclarationKind.names)
    DeclarationKind.keyword DeclarationKind.decode_keyword rules.validDeclarations
  have himports := fieldFromJson_strings stringFromJson id (fun _ => rfl) rules.allowedImports
  have hdisallow := fieldFromJson_strings (variantFromJson Construct.names) Construct.name
    Construct.decode_name rules.disallow
  simp only [List.map_id, Option.map_id_fun', id_eq] at hexpected himports
  rw [toJson_eq, fromJson, fromMembers,
    lastMember?_fields rules "allowedImports" _ rules.mem_fields_allowedImports,
    lastMember?_fields rules "disallow" _ rules.mem_fields_disallow,
    lastMember?_fields rules "expectedFunctions" _ rules.mem_fields_expectedFunctions,
    lastMember?_fields rules "validDeclarations" _ rules.mem_fields_validDeclarations,
    himports, hdisallow, hexpected, hdeclarations]
  rfl

theorem writable_toJson (depth : Nat) (rules : Rules) :
    Json.Writable (depth + 2) rules.toJson := by
  rw [toJson_eq]
  apply Json.Writable.object
  intro member hmember
  obtain ⟨field, -, rfl⟩ := List.mem_map.mp hmember
  exact Json.writable_strings depth field.2

/-- Any text that is read as the value of rules is read as the rules. -/
theorem ofJsonText_of_parse (rules : Rules) (text : String)
    (h : Json.parse text.toList = .ok rules.toJson) : ofJsonText text = .ok rules := by
  simp only [ofJsonText, h, fromJson_toJson]

theorem ofJsonText_compact (rules : Rules) : ofJsonText rules.toJson.compact = .ok rules :=
  ofJsonText_of_parse rules _ (Json.parse_compact _ (writable_toJson 125 rules))

theorem ofJsonText_render (rules : Rules) : ofJsonText (Format.json.render rules) = .ok rules :=
  ofJsonText_of_parse rules _ (Json.parse_pretty_newline _ (writable_toJson 125 rules))

/-- What can be read back has a text of its own. -/
theorem injective_of_ofJsonText (write : Rules → String)
    (h : ∀ rules, ofJsonText (write rules) = .ok rules) : Function.Injective write := by
  intro left right heq
  have hread := h left
  rw [heq, h right] at hread
  exact (Except.ok.inj hread).symm

/-- Rules written as JSON, on one line or as a whole document, are read back as they were. So
different rules have different texts, and a field that is absent is told from an empty one. -/
theorem json_round_trip :
    (∀ rules : Rules, ofJsonText rules.toJson.compact = .ok rules ∧
      ofJsonText (Format.json.render rules) = .ok rules) ∧
    Function.Injective (fun rules : Rules => rules.toJson.compact) ∧
    Function.Injective Format.json.render ∧
    ∀ rules : Rules,
      { rules with expectedFunctions := none }.toJson.compact ≠
        { rules with expectedFunctions := some [] }.toJson.compact ∧
      { rules with validDeclarations := none }.toJson.compact ≠
        { rules with validDeclarations := some [] }.toJson.compact ∧
      { rules with allowedImports := none }.toJson.compact ≠
        { rules with allowedImports := some [] }.toJson.compact ∧
      { rules with disallow := none }.toJson.compact ≠
        { rules with disallow := some [] }.toJson.compact := by
  have hinjective := injective_of_ofJsonText _ ofJsonText_compact
  refine ⟨fun rules => ⟨ofJsonText_compact rules, ofJsonText_render rules⟩, hinjective,
    injective_of_ofJsonText _ ofJsonText_render, ?_⟩
  intro rules
  refine ⟨?_, ?_, ?_, ?_⟩
  · intro heq
    simpa using congrArg expectedFunctions (hinjective heq)
  · intro heq
    simpa using congrArg validDeclarations (hinjective heq)
  · intro heq
    simpa using congrArg allowedImports (hinjective heq)
  · intro heq
    simpa using congrArg disallow (hinjective heq)

end Rules

end Rubric
