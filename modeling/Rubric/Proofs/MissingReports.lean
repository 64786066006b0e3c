import Rubric.Proofs.FindingTags
import Rubric.Proofs.TaggedReads

/-!
Reports of missing functions. Decoding one asks for a list of strings under its name, once, among
any other members, or for such a list alone after the tag. With what the reader has gone through
this gives the exact condition on the value of a text. Reports that come from a check list at
least one function, those that are read list what their text lists, be it nothing.
-/
namespace Rubric.Violation

open Schema

/-! Decoding reports of missing functions -/

/-- Members that are no fields are passed over. -/
theorem fieldsFromMembers_filter (wanted : List String) (found : List (String × Field))
    (members : List (String × Json)) :
    fieldsFromMembers wanted found (members.filter fun member => member.1 ∈ wanted) =
      fieldsFromMembers wanted found members := by
  induction members generalizing found with
  | nil => rfl
  | cons member others ih =>
    by_cases hwanted : member.1 ∈ wanted
    · rw [List.filter_cons_of_pos (by simpa using hwanted)]
      simp only [fieldsFromMembers, ih]
    · rw [List.filter_cons_of_neg (by simpa using hwanted), ih]
      simp [fieldsFromMembers, hwanted]

theorem decodeEach_string_eq_ok (items : List Json) (texts : List String)
    (h : decodeEach Rules.stringFromJson items = .ok texts) : items = texts.map .string := by
  induction items generalizing texts with
  | nil =>
    obtain rfl := Except.ok.inj h
    rfl
  | cons item rest ih =>
    rw [decodeEach] at h
    split at h
    · simp at h
    · next text htext =>
      split at h
      · simp at h
      · next others hothers =>
        obtain rfl := Except.ok.inj h
        have hitem : item = .string text := by
          unfold Rules.stringFromJson at htext
          split at htext
          · rw [Except.ok.inj htext]
          · simp at htext
        rw [List.map_cons, hitem, ih others hothers]

theorem fieldFromJson_missing_iff (value : Json) (missing : List String) :
    fieldFromJson "missing" value = .ok (.names missing) ↔ value = Json.strings missing := by
  have hfield : fieldFromJson "missing" value =
      (Rules.listFromJson Rules.stringFromJson value).map .names := rfl
  constructor
  · intro h
    rw [hfield] at h
    cases hread : Rules.listFromJson Rules.stringFromJson value with
    | error e => simp [hread, Except.map] at h
    | ok texts =>
      rw [hread] at h
      obtain rfl := Field.names.inj (Except.ok.inj h)
      unfold Rules.listFromJson at hread
      split at hread
      · next items => rw [decodeEach_string_eq_ok items texts hread, Json.strings]
      · simp at hread
  · rintro rfl
    have hread : Rules.listFromJson Rules.stringFromJson (Json.strings missing) = .ok missing :=
      decodeEach_map Rules.stringFromJson Json.string (fun _ => rfl) missing
    rw [hfield, hread]
    rfl

def Content.Lists (missing : List String) : Content → Prop
  | members list =>
      list.filter (fun member => member.1 = "missing") = [("missing", Json.strings missing)]
  | items list => list = [Json.strings missing]

theorem Content.fields_members_iff (list : List (String × Json)) (missing : List String) :
    (members list).fields .missingExpectedFunction = .ok [.names missing] ↔
      (members list).Lists missing := by
  have hkept : ∀ member ∈ list.filter (fun member => member.1 = "missing"),
      member.1 = "missing" := by
    intro member hmember
    simpa using (List.mem_filter.mp hmember).2
  have hread : fieldsFromMembers ["missing"] [] list =
      fieldsFromMembers ["missing"] [] (list.filter fun member => member.1 = "missing") := by
    rw [← fieldsFromMembers_filter]
    simp
  unfold fields Lists
  simp only [Tag.fieldNames, hread]
  generalize list.filter (fun member => member.1 = "missing") = kept at hkept
  cases kept with
  | nil => simp [fieldsFromMembers, arrange]
  | cons first others =>
    obtain ⟨name, value⟩ := first
    obtain rfl : name = "missing" := hkept _ List.mem_cons_self
    cases others with
    | nil =>
      simp only [List.cons.injEq, Prod.mk.injEq, true_and, and_true, ← fieldFromJson_missing_iff]
      cases hfield : fieldFromJson "missing" value with
      | error e => simp [fieldsFromMembers, hfield]
      | ok field => simp [fieldsFromMembers, hfield, arrange, Except.map]
    | cons second others =>
      -- A second list is refused once the first has been decoded.
      have hsecond := hkept second (List.mem_cons_of_mem _ List.mem_cons_self)
      cases hfield : fieldFromJson "missing" value with
      | error e => simp [fieldsFromMembers, hfield]
      | ok field => simp [fieldsFromMembers, hfield, hsecond]

theorem Content.fields_items_iff (list : List Json) (missing : List String) :
    (items list).fields .missingExpectedFunction = .ok [.names missing] ↔
      (items list).Lists missing := by
  unfold fields Lists
  simp only [Tag.fieldNames]
  cases list with
  | nil => simp [fieldsFromItems]
  | cons item others =>
    rw [List.cons.injEq, ← fieldFromJson_missing_iff]
    cases hfield : fieldFromJson "missing" item with
    | error e => simp [fieldsFromItems, hfield]
    | ok field => cases others <;> simp [fieldsFromItems, hfield, Except.map]

theorem ofFields?_eq_missingFunctions_iff (tag : Tag) (fields : List Field)
    (missing : List String) :
    ofFields? tag fields = some (.missingFunctions missing) ↔
      tag = .missingExpectedFunction ∧ fields = [.names missing] := by
  constructor
  · intro h
    unfold ofFields? at h
    split at h <;> simp_all
  · rintro ⟨rfl, rfl⟩
    rfl

theorem Content.decode_eq_missingFunctions_iff (tag : Tag) (content : Content)
    (missing : List String) :
    content.decode tag = .ok (.missingFunctions missing) ↔
      tag = .missingExpectedFunction ∧ content.Lists missing := by
  have hfields : content.fields .missingExpectedFunction = .ok [.names missing] ↔
      content.Lists missing := by
    cases content with
    | members list => exact fields_members_iff list missing
    | items list => exact fields_items_iff list missing
  constructor
  · intro h
    unfold decode at h
    split at h
    · simp at h
    · next found hfound =>
      split at h
      · next violation hviolation =>
        obtain rfl := Except.ok.inj h
        obtain ⟨rfl, rfl⟩ := (ofFields?_eq_missingFunctions_iff _ _ _).mp hviolation
        exact ⟨rfl, hfields.mp hfound⟩
      · simp at h
  · rintro ⟨rfl, hlists⟩
    simp only [decode, hfields.mpr hlists, ofFields?]

/-- Values that report missing functions: an object that has the tag and the list once each, among
any other members, or a list of the two. -/
def ReportsMissing (missing : List String) : Json → Prop
  | .object members =>
      members.filter (fun member => member.1 = "_tag") =
          [("_tag", .string Tag.missingExpectedFunction.name)] ∧
        members.filter (fun member => member.1 = "missing") = [("missing", Json.strings missing)]
  | .array items => items = [.string Tag.missingExpectedFunction.name, Json.strings missing]
  | _ => False

/-- What was taken apart on the way is a value of the text. -/
theorem reportsMissing_of_readTagged (text rest : List Char) (content : Content)
    (missing : List String) (hlists : content.Lists missing)
    (h : readTagged text = .ok ((.missingExpectedFunction, content), rest)) :
    ∃ value, Json.readValue Json.depthLimit text = .ok (value, rest) ∧
      ReportsMissing missing value := by
  unfold readTagged at h
  split at h
  · next s hs =>
    obtain ⟨members, hread, htag, rfl⟩ := readObject_eq_ok s rest _ content h
    rw [← hs, Json.readValue_skipBlanks] at hread
    have hboth : (members.filter fun member => member.1 ≠ "_tag").filter
        (fun member => member.1 = "missing") =
          members.filter fun member => member.1 = "missing" := by
      rw [List.filter_filter]
      apply List.filter_congr
      intro member _
      by_cases hmember : member.1 = "missing" <;> simp [hmember]
    exact ⟨.object members, hread, htag, hboth.symm.trans hlists⟩
  · next s hs =>
    obtain ⟨-, -, items, -, -, -, rfl⟩ := readItems_eq_ok s rest _ content h
    obtain rfl : items = [Json.strings missing] := hlists
    have hread := (readItems_eq_ok_iff s rest _ _).mp h
    rw [← hs, Json.readValue_skipBlanks] at hread
    exact ⟨_, hread, rfl⟩
  · split at h <;> simp at h

theorem parse_of_reportsMissing (text : List Char) (value : Json) (missing : List String)
    (h : Json.parse text = .ok value) (hvalue : ReportsMissing missing value) :
    parse text = .ok (.missingFunctions missing) := by
  cases value with
  | object members =>
    obtain ⟨htag, hmissing⟩ := hvalue
    obtain ⟨before, after, rfl, hbefore, -, hafter⟩ := List.filter_eq_cons_iff.mp htag
    rw [List.filter_eq_nil_iff] at hafter
    rw [List.filter_append, List.filter_cons_of_neg (by simp), ← List.filter_append] at hmissing
    exact parse_of_tagged text before after .missingExpectedFunction _ (by simpa using hbefore)
      (by simpa using hafter) ((Content.decode_eq_missingFunctions_iff _ _ _).mpr ⟨rfl, hmissing⟩)
      h
  | array items =>
    obtain rfl : items = _ := hvalue
    obtain ⟨rest, hread, hrest⟩ := Json.parse_eq_ok text _ h
    obtain ⟨inner, s, -, hs, -⟩ := Json.readFrom_of_readValue _ _ _ _ hread
    rw [← Json.readValue_skipBlanks, hs] at hread
    have hitems := (readItems_eq_ok_iff s rest _ _).mpr hread
    have hdecode : (Content.items [Json.strings missing]).decode .missingExpectedFunction =
        .ok (.missingFunctions missing) :=
      (Content.decode_eq_missingFunctions_iff _ _ _).mpr ⟨rfl, rfl⟩
    refine (parse_eq_ok_iff text _).mpr ⟨_, _, rest, ?_, hdecode, hrest⟩
    simp only [readTagged, hs, hitems]
  | _ => exact hvalue.elim

/-- A report of missing functions is read from the texts of the values that report them, and from
no other. -/
theorem parse_eq_missingFunctions_iff (text : List Char) (missing : List String) :
    parse text = .ok (.missingFunctions missing) ↔
      ∃ value, Json.parse text = .ok value ∧ ReportsMissing missing value := by
  constructor
  · intro h
    obtain ⟨tag, content, rest, htagged, hdecode, hrest⟩ := (parse_eq_ok_iff text _).mp h
    obtain ⟨rfl, hlists⟩ := (Content.decode_eq_missingFunctions_iff tag content missing).mp hdecode
    obtain ⟨value, hread, hvalue⟩ :=
      reportsMissing_of_readTagged text rest content missing hlists htagged
    refine ⟨value, ?_, hvalue⟩
    simp only [Json.parse, hread, Json.finish, hrest]
  · rintro ⟨value, hread, hvalue⟩
    exact parse_of_reportsMissing text value missing hread hvalue

/-! Reports of a check -/

theorem missing_ne_nil_of_mem_expectedFunctions (submission : Submission) (rules : Rules)
    (finding : Finding) (missing : List String)
    (h : finding ∈ Check.expectedFunctions submission rules)
    (hviolation : finding.violation = .missingFunctions missing) : missing ≠ [] := by
  unfold Check.expectedFunctions at h
  split at h
  · simp at h
  · obtain ⟨found, hfound, rfl⟩ := List.mem_map.mp h
    rw [Option.mem_toList] at hfound
    unfold missingFunctions? at hfound
    split at hfound
    · simp at hfound
    · next hsome =>
      obtain rfl := Option.some.inj hfound
      obtain rfl := missingFunctions.inj hviolation
      simpa using hsome

theorem missing_ne_nil_of_mem_check (engine : Engine) (submission : Submission) (rules : Rules)
    (finding : Finding) (missing : List String) (h : finding ∈ engine.check submission rules)
    (hviolation : finding.violation = .missingFunctions missing) : missing ≠ [] := by
  have htag : finding.violation.tag = Detector.expectedFunctions.tag := by
    rw [hviolation]
    rfl
  have hfound := (Engine.mem_check_and_tag submission rules engine .expectedFunctions finding).mp
    ⟨h, htag⟩
  exact missing_ne_nil_of_mem_expectedFunctions submission rules finding missing hfound.2
    hviolation

/-- A report of missing functions that an engine gives lists at least one. One that is read lists
what its text lists, so it lists at least one unless the text reports an empty list. -/
theorem missing_functions_as_listed (engine : Engine) (submission : Submission) (rules : Rules)
    (text : List Char) (missing : List String) :
    (∀ finding ∈ engine.check submission rules,
      finding.violation = .missingFunctions missing → missing ≠ []) ∧
    (parse text = .ok (.missingFunctions missing) ↔
      ∃ value, Json.parse text = .ok value ∧ ReportsMissing missing value) ∧
    (parse text = .ok (.missingFunctions missing) →
      (missing ≠ [] ↔ ∀ value, Json.parse text = .ok value → ¬ ReportsMissing [] value)) := by
  refine ⟨?_, parse_eq_missingFunctions_iff text missing, ?_⟩
  · intro finding hfinding
    exact missing_ne_nil_of_mem_check engine submission rules finding missing hfinding
  · intro hparse
    constructor
    · intro hne value hread hnone
      have hempty := parse_of_reportsMissing text value [] hread hnone
      rw [hparse] at hempty
      exact hne (missingFunctions.inj (Except.ok.inj hempty))
    · rintro hnone rfl
      obtain ⟨value, hread, hvalue⟩ := (parse_eq_missingFunctions_iff text []).mp hparse
      exact hnone value hread hvalue

/-- A function is missing from an empty submission, and a report of it is read from a list whose
first item is the tag. -/
theorem missing_functions_as_listed_in_items :
    let submission := Submission.ofParse ""
      ⟨.node ⟨"program", true, false, none, ⟨0, 0⟩⟩ [], false⟩
    let rules : Rules := { expectedFunctions := some ["f"] }
    let text := "[\"MissingExpectedFunction\", [\"f\"]]".toList
    Finding.wholeFile (.missingFunctions ["f"]) ∈ Engine.standard.check submission rules ∧
      parse text = .ok (.missingFunctions ["f"]) ∧ ["f"] ≠ ([] : List String) ∧
      (∃ value, Json.parse text = .ok value ∧ ReportsMissing ["f"] value) ∧
      ∀ value, Json.parse text = .ok value → ¬ ReportsMissing [] value := by
  intro submission rules text
  have hfinding : Finding.wholeFile (.missingFunctions ["f"]) ∈
      Engine.standard.check submission rules := by decide +kernel
  have hparse : parse text = .ok (.missingFunctions ["f"]) := by decide +kernel
  obtain ⟨hchecked, hvalue, hlisted⟩ :=
    missing_functions_as_listed Engine.standard submission rules text ["f"]
  have hne := hchecked _ hfinding rfl
  exact ⟨hfinding, hparse, hne, hvalue.mp hparse, (hlisted hparse).mp hne⟩

/-- A text may report that nothing is missing. -/
theorem empty_report_is_read :
    parse "\x7b\"_tag\":\"MissingExpectedFunction\",\"missing\":[]\x7d".toList =
      .ok (.missingFunctions []) := by
  decide +kernel

end Rubric.Violation
