import Rubric.Proofs.RulesInJson
import Rubric.Proofs.TomlFields

/-!
Rules in both formats. The keys of the fields are bare and different, so the lists of a JSON
document, each on a line of its own after its key, make a TOML document with the same fields. It
decodes to the same rules, in whatever order the lines stand.
-/
namespace Rubric.Rules

open Schema Toml

def Avoids (rules : Rules) (c : Char) : Prop :=
  ∀ text ∈ rules.expectedFunctions.getD [] ++ rules.allowedImports.getD [], c ∉ text.toList

theorem plain_of_mem_fields (rules : Rules) (havoids : rules.Avoids '\x7f')
    (field : String × List String) (hfield : field ∈ rules.fields) : Plain field.2 := by
  obtain ⟨key, items⟩ := field
  rcases (mem_fields rules key items).mp hfield with ⟨-, h⟩ | ⟨-, h⟩ | ⟨-, h⟩ | ⟨-, h⟩
  · intro item hitem
    exact havoids item (by simp [h, hitem])
  · obtain ⟨kinds, -, rfl⟩ := Option.map_eq_some_iff.mp h
    intro item hitem
    obtain ⟨kind, -, rfl⟩ := List.mem_map.mp hitem
    cases kind <;> decide
  · intro item hitem
    exact havoids item (by simp [h, hitem])
  · obtain ⟨constructs, -, rfl⟩ := Option.map_eq_some_iff.mp h
    intro item hitem
    obtain ⟨construct, -, rfl⟩ := List.mem_map.mp hitem
    cases construct <;> decide

theorem bareKey_of_mem_fields (rules : Rules) (field : String × List String)
    (hfield : field ∈ rules.fields) : BareKey field.1 := by
  obtain ⟨key, items⟩ := field
  show BareKey key
  rcases (mem_fields rules key items).mp hfield with ⟨rfl, -⟩ | ⟨rfl, -⟩ | ⟨rfl, -⟩ | ⟨rfl, -⟩ <;>
    exact ⟨by decide, List.all_eq_true.mp (by decide)⟩

theorem nodup_fields (rules : Rules) : (rules.fields.map Prod.fst).Nodup := by
  have hfield (key : String) (items : Option (List String)) :
      ((items.map fun items => (key, items)).toList.map Prod.fst).Sublist [key] := by
    cases items <;> simp
  have hkeys : (rules.fields.map Prod.fst).Sublist
      ["expectedFunctions", "validDeclarations", "allowedImports", "disallow"] := by
    simp only [fields, List.map_append]
    exact (((hfield _ _).append (hfield _ _)).append (hfield _ _)).append (hfield _ _)
  exact hkeys.nodup (by decide)

theorem fieldFromToml_strings {α : Type} (decode : Toml → Except Mismatch α) (name : α → String)
    (h : ∀ x, decode (.string (name x)) = .ok x) (entries : List (String × Toml)) (key : String)
    (field : Option (List α))
    (hfield : ((entries.find? fun entry => entry.1 == key).map Prod.snd) =
      (field.map fun items => items.map name).map strings) :
    fieldFromToml decode entries key = .ok field := by
  unfold fieldFromToml
  cases field with
  | none =>
    rw [Option.map_none, Option.map_none, Option.map_eq_none_iff] at hfield
    rw [hfield]
  | some items =>
    have hitems := decodeEach_map decode (fun x => Toml.string (name x)) h items
    obtain ⟨⟨found, value⟩, hfind, hvalue⟩ := Option.map_eq_some_iff.mp hfield
    dsimp only at hvalue
    rw [hfind, hvalue]
    simp only [strings, List.map_map, listFromToml, Function.comp_def, hitems]

/-- The table of the fields, in whatever order, decodes to the rules. -/
theorem fromToml_fields (rules : Rules) (order : List (String × List String))
    (horder : order.Perm rules.fields) :
    fromToml (.table (order.map fun field => (field.1, strings field.2))) = .ok rules := by
  have hfind (key : String) (found : Option (List String))
      (h : ∀ items, (key, items) ∈ rules.fields ↔ found = some items) :=
    find?_key_map strings order key found fun items => horder.mem_iff.trans (h items)
  have hid (field : Option (List String)) : (field.map fun items => items.map id) = field := by
    simp
  have hexpected := fieldFromToml_strings stringFromToml id (fun _ => rfl) _ "expectedFunctions"
    rules.expectedFunctions (by rw [hid]; exact hfind _ _ rules.mem_fields_expectedFunctions)
  have hdeclarations := fieldFromToml_strings (variantFromToml DeclarationKind.names)
    DeclarationKind.keyword DeclarationKind.decode_keyword _ "validDeclarations"
    rules.validDeclarations (hfind _ _ rules.mem_fields_validDeclarations)
  have himports := fieldFromToml_strings stringFromToml id (fun _ => rfl) _ "allowedImports"
    rules.allowedImports (by rw [hid]; exact hfind _ _ rules.mem_fields_allowedImports)
  have hdisallow := fieldFromToml_strings (variantFromToml Construct.names) Construct.name
    Construct.decode_name _ "disallow" rules.disallow (hfind _ _ rules.mem_fields_disallow)
  rw [fromToml, fromEntries, himports, hdisallow, hexpected, hdeclarations]
  rfl

theorem ofTomlText_fields (rules : Rules) (havoids : rules.Avoids '\x7f')
    (order : List (String × List String)) (horder : order.Perm rules.fields) :
    ofTomlText (String.join (order.map fieldLine)) = .ok rules := by
  have hparse := parse_fields order
    (fun field h => rules.bareKey_of_mem_fields field (horder.mem_iff.mp h))
    ((horder.map Prod.fst).nodup_iff.mpr rules.nodup_fields)
    (fun field h => rules.plain_of_mem_fields havoids field (horder.mem_iff.mp h))
  simp only [ofTomlText, hparse, fromToml_fields rules order horder]

/-- Rules without the one character in question are the same in both formats: as a TOML document
with a line for each field, in any order, and as a JSON document. -/
theorem toml_agrees_with_json (rules : Rules) (havoids : rules.Avoids '\x7f')
    (order : List (String × List String)) (horder : order.Perm rules.fields) :
    ofTomlText (String.join (order.map fieldLine)) = .ok rules ∧
      ofJsonText rules.toJson.compact = .ok rules :=
  ⟨ofTomlText_fields rules havoids order horder, ofJsonText_compact rules⟩

/-- An absent field, an empty one, and strings with quotes, line breaks and controls. -/
theorem toml_agrees_with_json_awkward :
    let rules : Rules :=
      { expectedFunctions := some ["", "a\"b\\", "a\"b\\"]
        allowedImports := some ["\x00\x1f\r\n\t\x08\x0c", "π.\u2028"]
        disallow := some [] }
    rules.Avoids '\x7f' ∧ rules.fields.map Prod.fst =
        ["expectedFunctions", "allowedImports", "disallow"] ∧
      ofTomlText (String.join (rules.fields.reverse.map fieldLine)) = .ok rules ∧
      ofJsonText rules.toJson.compact = .ok rules := by
  intro rules
  have havoids : rules.Avoids '\x7f' := by
    unfold Avoids
    decide
  have hboth := toml_agrees_with_json rules havoids rules.fields.reverse
    (List.reverse_perm rules.fields)
  exact ⟨havoids, rfl, hboth.1, hboth.2⟩

end Rubric.Rules
