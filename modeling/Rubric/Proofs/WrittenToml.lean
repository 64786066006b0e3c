import Rubric.Proofs.RulesInToml
import Rubric.Rules.Starter

/-!
Rules survive being written as TOML. A field's list is written on one line if it has one item or
none, and with an indented line for each item otherwise. Strings are escaped as TOML wants them, so
no character needs an exception, and the comment at the top of a document says nothing.
-/
namespace Rubric

open Text

namespace Toml

/-- What TOML does not let stand for itself has a small code. -/
theorem holds_isPlain (c : Char) : Holds isPlain c where
  self := id
  code hplain := by
    have hle : ¬ '\x7f' < c := by
      intro hlt
      simp [isPlain, hlt] at hplain
    have hnat : c.toNat ≤ 127 := Nat.le_of_not_lt hle
    omega

def itemLine (item : String) : List Char :=
  ' ' :: ' ' :: ' ' :: ' ' :: (literalChars isPlain item ++ [',', '\n'])

def tallList (items : List String) : List Char :=
  '[' :: '\n' :: (items.flatMap itemLine ++ [']'])

/-- Blanks in front of an item are skipped. -/
theorem readItems_skip (readItem : List Char → Take Toml) (fuel : Nat) (s rest : List Char)
    (h : skipTrivia false s = '"' :: rest) :
    readItems readItem (fuel + 1) s = readItems readItem (fuel + 1) ('"' :: rest) := by
  have hquote : skipTrivia false ('"' :: rest) = '"' :: rest := rfl
  simp only [readItems, h, hquote]

/-- The lines of the items, from the line break before the first one. -/
theorem readItems_tall (depth : Nat) (items : List String) (rest : List Char) (fuel : Nat)
    (hfuel : items.length < fuel) :
    readItems (readValue depth) fuel ('\n' :: (items.flatMap itemLine ++ ']' :: rest)) =
      some (items.map .string, rest) := by
  induction items generalizing fuel with
  | nil =>
    obtain ⟨fuel, rfl⟩ := Nat.exists_eq_add_one.mpr hfuel
    rfl
  | cons item others ih =>
    obtain ⟨fuel, rfl⟩ := Nat.exists_eq_add_one.mpr (Nat.zero_lt_of_lt hfuel)
    rw [List.length_cons, Nat.add_lt_add_iff_right] at hfuel
    have hitem := readValue_literalChars depth isPlain item (fun c _ => holds_isPlain c)
      (',' :: '\n' :: (others.flatMap itemLine ++ ']' :: rest)) (by simp)
    rw [literalChars_append] at hitem
    have hmore := readItems_more (readValue depth) fuel _ _ rest _ _ hitem (ih fuel hfuel)
    rw [List.map_cons, ← hmore]
    apply readItems_skip
    simp only [List.flatMap_cons, itemLine, List.append_assoc, List.cons_append, List.nil_append,
      literalChars_append]
    rfl

theorem readsStrings_tallList (items : List String) : ReadsStrings items (tallList items) := by
  refine ⟨rfl, fun depth rest => ?_⟩
  have hlength := length_le_flatMap itemLine items fun item _ => by simp [itemLine]
  have hread := readItems_tall depth items rest
    (('\n' :: (items.flatMap itemLine ++ ']' :: rest)).length + 1)
    (by simp only [List.length_append, List.length_cons]; omega)
  rw [tallList, List.cons_append, List.cons_append, List.append_assoc, List.singleton_append,
    readValue_list, hread]
  rfl

theorem readsStrings_single (item : String) :
    ReadsStrings [item] ('[' :: (literalChars isPlain item ++ [']'])) := by
  refine ⟨rfl, fun depth rest => ?_⟩
  have hitem := readValue_literalChars depth isPlain item (fun c _ => holds_isPlain c)
    (']' :: rest) (by simp)
  rw [literalChars_append] at hitem
  have hread := readItems_last (readValue depth)
    ('"' :: (item.toList.flatMap (escapeChar isPlain) ++ '"' :: ']' :: rest)).length _ rest _ hitem
  rw [List.cons_append, List.append_assoc, List.singleton_append, readValue_list,
    literalChars_append, hread]
  rfl

theorem readsStrings_empty : ReadsStrings [] ['[', ']'] := ⟨rfl, fun _ _ => rfl⟩

/-- A comment says nothing. -/
theorem readLines_comment (comment : List Char) (h : ∀ c ∈ comment, isPlain c = true) (fuel : Nat)
    (s : List Char) :
    readLines (fuel + 1) ('#' :: (comment ++ '\n' :: s)) = readLines fuel s := by
  have hspaces (s : List Char) : skipSpaces ('#' :: s) = '#' :: s := rfl
  have hnewline : isPlain '\n' = false := rfl
  have hend : lineEnd ('#' :: (comment ++ '\n' :: s)) = some s := by
    rw [lineEnd, hspaces, skipComment, List.dropWhile_append_of_pos h,
      List.dropWhile_cons_of_neg (by simp [hnewline])]
    rfl
  simp only [readLines, hspaces, true_or, if_true, hend, Option.bind_some]

theorem readLines_blank (fuel : Nat) (s : List Char) :
    readLines (fuel + 1) ('\n' :: s) = readLines fuel s := rfl

end Toml

namespace Rules

open Toml

/-- A field's line holds its list. -/
theorem exists_toList_lineOf (key : String) (items : List String) :
    ∃ written, ReadsStrings items written ∧
      (lineOf key (some items)).toList =
        key.toList ++ ' ' :: '=' :: ' ' :: (written ++ ['\n']) := by
  match items with
  | [] => exact ⟨_, readsStrings_empty, by simp [lineOf]⟩
  | [item] => exact ⟨_, readsStrings_single item, by simp [lineOf, literal]⟩
  | first :: second :: others =>
    refine ⟨_, readsStrings_tallList _, ?_⟩
    have hitem : itemLine = fun item => ("    " ++ literal item ++ ",\n").toList := by
      funext item
      simp [itemLine, literal]
    simp [lineOf, tallList, hitem, String.toList_join, List.flatMap_map]

theorem toToml_eq (rules : Rules) :
    rules.toToml = String.join (rules.fields.map fun field => lineOf field.1 (some field.2)) := by
  have hline (key : String) (items : Option (List String)) :
      lineOf key items = String.join ((items.map fun items => (key, items)).toList.map
        fun field => lineOf field.1 (some field.2)) := by
    cases items <;> simp [lineOf, String.join]
  rw [toToml, hline "expectedFunctions", hline "validDeclarations", hline "allowedImports",
    hline "disallow"]
  simp only [fields, List.map_append, String.join_append]

/-- The comment at the top of a document, after its sign. -/
def heading : List Char := " rule-enforcer rules".toList

theorem toList_render (rules : Rules) :
    (Format.toml.render rules).toList = '#' :: (heading ++ '\n' :: '\n' ::
      rules.fields.flatMap fun field => (lineOf field.1 (some field.2)).toList) := by
  have hheading : "# rule-enforcer rules\n\n".toList = '#' :: (heading ++ ['\n', '\n']) := by
    decide
  have hrender : Format.toml.render rules = "# rule-enforcer rules\n\n" ++ rules.toToml := rfl
  rw [hrender, toToml_eq, String.toList_append, String.toList_join, List.flatMap_map, hheading]
  simp only [List.cons_append, List.append_assoc, List.nil_append]

theorem readLines_render (rules : Rules) :
    readLines ((Format.toml.render rules).toList.length + 1) (Format.toml.render rules).toList =
      some (rules.fields.map fieldPair) := by
  have hplain : ∀ c ∈ heading, isPlain c = true := List.all_eq_true.mp (by decide)
  have hlength := length_le_flatMap (fun field => (lineOf field.1 (some field.2)).toList)
    rules.fields fun field _ => by
      obtain ⟨written, -, hchars⟩ := exists_toList_lineOf field.1 field.2
      simp [hchars]
  rw [toList_render, readLines_comment heading hplain, List.length_cons, List.length_append,
    List.length_cons, ← Nat.add_assoc, readLines_blank]
  apply readLines_each
  · intro field hfield fuel s
    obtain ⟨written, hwritten, hchars⟩ := exists_toList_lineOf field.1 field.2
    rw [← readLines_field field written (rules.bareKey_of_mem_fields field hfield) hwritten]
    simp [hchars]
  · rw [List.length_cons]
    omega

/-- A whole document is read back as the rules it was written for. -/
theorem ofTomlText_render (rules : Rules) : ofTomlText (Format.toml.render rules) = .ok rules := by
  have hmark : dropMark (Format.toml.render rules).toList = (Format.toml.render rules).toList := by
    rw [toList_render]
    rfl
  have hparse := parse_of_readLines rules.fields rules.bareKey_of_mem_fields rules.nodup_fields
    _ hmark rules.readLines_render
  simp only [ofTomlText, hparse, fromToml_fields rules rules.fields (List.Perm.refl _)]

end Rules

end Rubric
