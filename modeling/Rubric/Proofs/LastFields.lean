import Rubric.Proofs.RenderedObjects
import Rubric.Proofs.RulesSchema

/-!
What an author can change in a rules document without effect. Only the last member for each field
counts, so earlier ones can be left out, members that are no fields can be left out, and the rest
can be written in any order: the rules that are read are the same, and so is the fault that is
reported when there are several.
-/
namespace Rubric

namespace Rules

/-- What is kept of a document's members, in any order: the last one for each field. -/
def KeepsLast (members kept : List (String × Json)) : Prop :=
  ∀ member, member ∈ kept ↔
    member.1 ∈ fieldKeys ∧ LastWith (fun other => other.1 = member.1) members member

theorem keepsLast_iff (members kept : List (String × Json)) :
    KeepsLast members kept ↔ ∀ key value, (key, value) ∈ kept ↔
      key ∈ fieldKeys ∧ Json.lastMember? members key = some value := by
  simp only [Json.lastMember?_eq_some_iff]
  constructor
  · intro h key value
    exact h (key, value)
  · intro h member
    exact h member.1 member.2

namespace KeepsLast

variable {members kept : List (String × Json)}

theorem subset (h : KeepsLast members kept) : kept ⊆ members := by
  intro member hmember
  obtain ⟨-, before, after, hmembers, -⟩ := (h member).mp hmember
  rw [hmembers]
  exact List.mem_append_right before List.mem_cons_self

theorem lastMember?_eq (h : KeepsLast members kept) (key : String) (hkey : key ∈ fieldKeys) :
    Json.lastMember? kept key = Json.lastMember? members key := by
  apply find?_key_of_mem_iff
  intro value
  rw [List.mem_reverse, (keepsLast_iff members kept).mp h]
  exact and_iff_right hkey

theorem valuesOf_eq (h : KeepsLast members kept) : valuesOf kept = valuesOf members :=
  valuesOf_congr kept members h.lastMember?_eq

end KeepsLast

/-- A document is read as one in which each field's last member is all that is left, written
anyhow and in any order, whether rules are read or a fault is reported. -/
theorem json_read_by_last_fields (members kept : List (String × Json)) (text other : String)
    (htext : Json.Renders members text.toList)
    (hparse : ∃ value, Json.parse text.toList = .ok value) (hkept : KeepsLast members kept)
    (hother : Json.Renders kept other.toList) : ofJsonText text = ofJsonText other := by
  obtain ⟨value, hvalue⟩ := hparse
  obtain rfl := Json.eq_object_of_renders members _ value htext hvalue
  obtain ⟨-, hnests⟩ := (Json.parse_eq_object_iff members _).mp hvalue
  have hothers := (Json.parse_eq_object_iff kept _).mpr ⟨hother, hnests.of_subset hkept.subset⟩
  rw [ofJsonText_of_parse_ok text _ hvalue, ofJsonText_of_parse_ok other _ hothers, fromJson,
    fromJson, fromMembers_congr members kept hkept.valuesOf_eq.symm]

/-- Two fields are wrong, one of them after a right value of its own. The same one is reported in
whichever order they stand. -/
theorem json_read_by_last_fields_two_faults :
    let document : List (String × Json) :=
      [("disallow", .array []), ("x", .null), ("allowedImports", .bool true),
        ("disallow", .bool false)]
    let kept : List (String × Json) := [("disallow", .bool false), ("allowedImports", .bool true)]
    Json.Renders document (Json.object document).compact.toList ∧ KeepsLast document kept ∧
    Json.Renders kept ((Json.object kept).pretty ++ "\n").toList ∧
    ofJsonText (Json.object document).compact = ofJsonText ((Json.object kept).pretty ++ "\n") ∧
    ofJsonText (Json.object document).compact =
      .error (.schema "invalid type: boolean `true`, expected a sequence") := by
  intro document kept
  have htext : Json.parse (Json.object document).compact.toList = .ok (.object document) := by
    apply Json.parse_compact
    apply Json.Writable.object 126
    simp only [document, List.forall_mem_cons, List.not_mem_nil, IsEmpty.forall_iff]
    exact ⟨.array 125 [] nofun, .null 126, .bool 126 true, .bool 126 false, by simp⟩
  have hother : Json.parse ((Json.object kept).pretty ++ "\n").toList = .ok (.object kept) := by
    apply Json.parse_pretty_newline
    apply Json.Writable.object 126
    simp only [kept, List.forall_mem_cons, List.not_mem_nil, IsEmpty.forall_iff]
    exact ⟨.bool 126 false, .bool 126 true, by simp⟩
  have hkept : KeepsLast document kept := by
    rw [keepsLast_iff]
    intro key value
    by_cases hkey : key ∈ fieldKeys
    · simp only [fieldKeys, List.mem_cons, List.not_mem_nil, or_false] at hkey
      rcases hkey with rfl | rfl | rfl | rfl <;>
        simp [document, kept, fieldKeys, Json.lastMember?, eq_comm]
    · have himports : key ≠ "allowedImports" := fun heq => hkey (by rw [heq]; decide)
      have hconstructs : key ≠ "disallow" := fun heq => hkey (by rw [heq]; decide)
      simp [kept, hkey, himports, hconstructs]
  refine ⟨Json.renders_of_parse _ _ htext, hkept, Json.renders_of_parse _ _ hother, ?_, ?_⟩
  · exact json_read_by_last_fields document kept _ _ (Json.renders_of_parse _ _ htext) ⟨_, htext⟩
      hkept (Json.renders_of_parse _ _ hother)
  · rw [ofJsonText_of_parse_ok _ _ htext]
    rfl

end Rules

end Rubric
