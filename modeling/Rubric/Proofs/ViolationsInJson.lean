import Mathlib.Data.List.Forall2
import Rubric.Command.Report
import Rubric.Proofs.JsonLayouts
import Rubric.Proofs.JsonReads
import Rubric.Proofs.RulesInJson

/-!
Violations survive being written as JSON. Reading a violation goes through the members of an
object as reading any object does, only that it looks at the tag on the way. So a violation is
read from every text of an object that holds its tag once and its fields, in particular from what
is written of it, alone or in a list of findings.
-/
namespace Rubric.Violation

open Schema

/-! Reading the members of a tagged object -/

/-- A string that was read is read as a tag. -/
theorem readTag_of_readValue (depth : Nat) (s rest : List Char) (tag : Tag)
    (h : Json.readValue depth s = .ok (.string tag.name, rest)) :
    readTag s = .ok (tag, rest) := by
  obtain ⟨t, hs, hread⟩ := Json.readFrom_of_readValue depth s rest _ h
  have hname : Tag.names.decode tag.name = .ok tag := by cases tag <;> rfl
  have hscalar : scalar .tag s = .ok (.string tag.name, rest) := by
    unfold scalar
    rw [hs]
    show ofRead (Json.readValue 0 ('"' :: t)) = _
    rw [Json.readValue_quote, hread]
    rfl
  simp only [readTag, hscalar, hname]

theorem readMembers_member (fuel : Nat) (first : Bool) (tag : Option Tag)
    (found : List (String × Json)) (s start after : List Char) (member : String × Json)
    (hnext : Json.Brackets.object.next first s = .ok (.item start))
    (hmember : Json.readMember (Json.readValue innerDepth) start = .ok (member, after))
    (hname : member.1 ≠ "_tag") :
    readMembers (fuel + 1) first tag found s =
      readMembers fuel false tag (found ++ [member]) after := by
  obtain ⟨t, u, hkey, hcolon, hvalue⟩ := Json.readMember_eq_ok _ _ _ _ _ hmember
  simp only [readMembers, hnext, hkey, hcolon, hvalue, hname, false_and, if_false]

theorem readMembers_tag (fuel : Nat) (first : Bool) (tag : Tag) (found : List (String × Json))
    (s start after : List Char)
    (hnext : Json.Brackets.object.next first s = .ok (.item start))
    (hmember : Json.readMember (Json.readValue innerDepth) start =
      .ok (("_tag", .string tag.name), after)) :
    readMembers (fuel + 1) first none found s =
      readMembers fuel false (some tag) found after := by
  obtain ⟨t, u, hkey, hcolon, hvalue⟩ := Json.readMember_eq_ok _ _ _ _ _ hmember
  have htag := readTag_of_readValue innerDepth u after tag hvalue
  simp only [readMembers, hnext, hkey, hcolon, htag, Option.isSome_none, Bool.false_eq_true,
    and_false, if_false, if_true]

/-- Members that are not the tag are kept in their order, whether the tag is known or not. -/
theorem readMembers_of_items (members : List (String × Json))
    (hmembers : ∀ member ∈ members, member.1 ≠ "_tag") (fuel : Nat) (first : Bool)
    (tag : Option Tag) (found : List (String × Json)) (s rest : List Char)
    (h : Json.Brackets.object.items (Json.readMember (Json.readValue innerDepth)) fuel first s =
      .ok (members, rest)) :
    readMembers fuel first tag found s = .ok ((tag, found ++ members), rest) := by
  induction members generalizing fuel first found s with
  | nil =>
    obtain ⟨less, rfl, hnext⟩ := Json.Brackets.items_eq_ok_nil _ _ _ _ _ _ h
    simp only [readMembers, hnext, List.append_nil]
  | cons member others ih =>
    obtain ⟨less, start, after, rfl, hnext, hmember, hrest⟩ :=
      Json.Brackets.items_eq_ok_cons _ _ _ _ _ _ _ _ h
    rw [readMembers_member less first tag found s start after member hnext hmember
        (hmembers member List.mem_cons_self),
      ih (fun other hother => hmembers other (List.mem_cons_of_mem member hother)) less false
        (found ++ [member]) after hrest, List.append_assoc, List.singleton_append]

/-- The tag is found wherever it stands among the members. -/
theorem readMembers_of_tagged (before after : List (String × Json)) (tag : Tag)
    (hbefore : ∀ member ∈ before, member.1 ≠ "_tag")
    (hafter : ∀ member ∈ after, member.1 ≠ "_tag") (fuel : Nat) (first : Bool)
    (found : List (String × Json)) (s rest : List Char)
    (h : Json.Brackets.object.items (Json.readMember (Json.readValue innerDepth)) fuel first s =
      .ok (before ++ ("_tag", .string tag.name) :: after, rest)) :
    readMembers fuel first none found s =
      .ok ((some tag, found ++ (before ++ after)), rest) := by
  -- Up to the tag no tag is known; what follows it is read with the tag in hand.
  induction before generalizing fuel first found s with
  | nil =>
    obtain ⟨less, start, next, rfl, hnext, hmember, hrest⟩ :=
      Json.Brackets.items_eq_ok_cons _ _ _ _ _ _ _ _ h
    rw [readMembers_tag less first tag found s start next hnext hmember]
    exact readMembers_of_items after hafter less false (some tag) found next rest hrest
  | cons member others ih =>
    obtain ⟨less, start, next, rfl, hnext, hmember, hrest⟩ :=
      Json.Brackets.items_eq_ok_cons _ _ _ _ _ _ _ _ h
    rw [readMembers_member less first none found s start next member hnext hmember
        (hbefore member List.mem_cons_self),
      ih (fun other hother => hbefore other (List.mem_cons_of_mem member hother)) less false
        (found ++ [member]) next hrest, List.append_assoc, List.singleton_append,
      List.cons_append]

/-- A violation is read from any text of an object that has its tag once and whose other members
decode to it. -/
theorem parse_of_tagged (text : List Char) (before after : List (String × Json)) (tag : Tag)
    (violation : Violation) (hbefore : ∀ member ∈ before, member.1 ≠ "_tag")
    (hafter : ∀ member ∈ after, member.1 ≠ "_tag")
    (hdecode : (Content.members (before ++ after)).decode tag = .ok violation)
    (h : Json.parse text =
      .ok (.object (before ++ ("_tag", .string tag.name) :: after))) :
    parse text = .ok violation := by
  obtain ⟨rest, hread, hrest⟩ := Json.parse_eq_ok text _ h
  obtain ⟨inner, t, hdepth, hstart, hitems⟩ := Json.readFrom_of_readValue _ _ _ _ hread
  obtain rfl : inner = innerDepth := Nat.succ.inj hdepth.symm
  have hmembers := readMembers_of_tagged before after tag hbefore hafter _ true [] t rest hitems
  have htagged : readTagged text =
      .ok ((tag, .members (before ++ after)), rest) := by
    simp only [readTagged, hstart, readObject, hmembers, List.nil_append]
  simp only [parse, htagged, hdecode, Json.finish, hrest]

/-! Writing violations -/

theorem decode_fields (violation : Violation) :
    (Content.members violation.fields).decode violation.tag = .ok violation := by
  cases violation with
  | missingFunctions missing =>
    have hmissing : Rules.listFromJson Rules.stringFromJson (Json.strings missing) =
        .ok missing := decodeEach_map Rules.stringFromJson Json.string (fun _ => rfl) missing
    simp [Content.decode, Content.fields, fields, tag, Tag.fieldNames, fieldsFromMembers,
      fieldFromJson, hmissing, Except.map, arrange, ofFields?]
  | declaration kind code => cases kind <;> rfl
  | reassignment code => rfl
  | loop code => rfl
  | ifStatement code => rfl
  | importRefused module code => rfl
  | console code => rfl
  | helperFunction code => rfl

/-- Fields are written under the names that the tag gives them. -/
theorem map_fst_fields (violation : Violation) :
    violation.fields.map Prod.fst = violation.tag.fieldNames := by
  cases violation <;> rfl

theorem fst_ne_tag_of_mem_fields (violation : Violation) :
    ∀ member ∈ violation.fields, member.1 ≠ "_tag" := by
  have hnames : "_tag" ∉ violation.tag.fieldNames := by
    cases violation.tag <;> decide
  intro member hmember heq
  rw [← map_fst_fields] at hnames
  exact hnames (List.mem_map.mpr ⟨member, hmember, heq⟩)

/-- A field holds a string or a list of strings. -/
theorem snd_of_mem_fields (violation : Violation) :
    ∀ member ∈ violation.fields,
      (∃ text, member.2 = .string text) ∨ ∃ items, member.2 = Json.strings items := by
  cases violation <;> simp [fields]

theorem writable_toJson (depth : Nat) (violation : Violation) :
    Json.Writable (depth + 2) violation.toJson := by
  apply Json.Writable.object
  intro member hmember
  rcases List.mem_cons.mp hmember with rfl | hfield
  · exact .string (depth + 1) violation.tag.name
  · rcases snd_of_mem_fields violation member hfield with ⟨text, htext⟩ | ⟨items, hitems⟩
    · rw [htext]
      exact .string (depth + 1) text
    · rw [hitems]
      exact Json.writable_strings depth items

/-- A violation is read from every text of its value. -/
theorem parse_of_toJson (violation : Violation) (text : List Char)
    (h : Json.parse text = .ok violation.toJson) : parse text = .ok violation :=
  parse_of_tagged text [] violation.fields violation.tag violation nofun
    (fst_ne_tag_of_mem_fields violation) (decode_fields violation) h

/-- A value that stands for a violation: it has a text, and whatever text it has, the violation is
read from it. -/
def Denotes (value : Json) (violation : Violation) : Prop :=
  (∃ text, Json.parse text = .ok value) ∧
    ∀ text, Json.parse text = .ok value → parse text = .ok violation

theorem denotes_toJson (violation : Violation) : Denotes violation.toJson violation :=
  ⟨⟨_, Json.parse_compact _ (writable_toJson 125 violation)⟩, parse_of_toJson violation⟩

theorem parse_report (findings : List Finding) :
    Json.parse (Report.json findings).toList =
      .ok (.array (findings.map fun finding => finding.violation.toJson)) := by
  apply Json.parse_pretty_newline
  apply Json.Writable.array 126
  intro item hitem
  obtain ⟨finding, -, rfl⟩ := List.mem_map.mp hitem
  exact writable_toJson 124 finding.violation

/-- A violation written as JSON is an object that starts with its tag, and is read back as it was.
What is printed of findings is a list whose elements stand for their violations, in order. -/
theorem json_output_round_trip :
    (∀ violation : Violation,
      parse violation.toJson.compact.toList = .ok violation ∧
      Json.parse violation.toJson.compact.toList =
        .ok (.object (("_tag", .string violation.tag.name) :: violation.fields))) ∧
    ∀ findings : List Finding, ∃ items,
      Json.parse (Report.json findings).toList = .ok (.array items) ∧
        List.Forall₂ (fun item finding => Denotes item finding.violation) items findings := by
  constructor
  · intro violation
    have hvalue := Json.parse_compact _ (writable_toJson 125 violation)
    exact ⟨parse_of_toJson violation _ hvalue, hvalue⟩
  · intro findings
    refine ⟨_, parse_report findings, ?_⟩
    rw [List.forall₂_map_left_iff, List.forall₂_same]
    intro finding _
    exact denotes_toJson finding.violation

end Rubric.Violation
