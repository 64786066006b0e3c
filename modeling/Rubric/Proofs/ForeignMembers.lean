import Mathlib.Data.List.Forall2
import Mathlib.Data.List.Nodup
import Mathlib.Data.List.Perm.Basic
import Rubric.Proofs.MissingReports
import Rubric.Proofs.RenderedObjects

/-!
What may change in the text of a violation without effect. Its fields are read by their names, so
the members of the object may stand in any order, and members that are neither the tag nor a field
may stand anywhere between them. The object is one of the brackets around their values, so a value
that nests as deep as a text may can be read by itself and not as a member. The tag and the fields
of the violation stand once each: a second one is refused, wherever it stands and whatever it
holds.
-/
namespace Rubric

open Schema

namespace Json

/-! Members that stand once -/

def HoldsOnce (members : List (String × Json)) (name : String) (value : Json) : Prop :=
  members.filter (fun member => member.1 = name) = [(name, value)]

namespace HoldsOnce

variable {members extra others : List (String × Json)} {name : String} {value other : Json}

theorem eq_of_mem (h : HoldsOnce members name value) (member : String × Json)
    (hmember : member ∈ members) (hname : member.1 = name) : member = (name, value) := by
  have hkept : member ∈ members.filter fun member => member.1 = name :=
    List.mem_filter.mpr ⟨hmember, by simpa using hname⟩
  rw [h] at hkept
  exact List.mem_singleton.mp hkept

/-- Among other members, wherever these stand, it is still the only one if none has its name. -/
theorem among_iff (h : HoldsOnce members name value) (hothers : others.Perm (members ++ extra)) :
    HoldsOnce others name other ↔ other = value ∧ ∀ member ∈ extra, member.1 ≠ name := by
  have hfilter := hothers.filter fun member => member.1 = name
  rw [List.filter_append, h, List.singleton_append] at hfilter
  constructor
  · intro hother
    rw [hother, List.singleton_perm] at hfilter
    obtain ⟨hfirst, hnone⟩ := List.cons.inj hfilter
    rw [eq_comm, List.filter_eq_nil_iff] at hnone
    exact ⟨(Prod.mk.inj hfirst).2, by simpa using hnone⟩
  · intro hforeign
    obtain ⟨rfl, hextra⟩ := hforeign
    have hnone : extra.filter (fun member => member.1 = name) = [] :=
      List.filter_eq_nil_iff.mpr (by simpa using hextra)
    rw [hnone] at hfilter
    exact hfilter.eq_singleton

/-- Members that do not matter to a name can be left out. -/
theorem filter_iff (kept : String → Bool) (hname : kept name = true) :
    HoldsOnce (members.filter fun member => kept member.1) name value ↔
      HoldsOnce members name value := by
  have hboth : (members.filter fun member => kept member.1).filter (fun member => member.1 = name) =
      members.filter fun member => member.1 = name := by
    rw [List.filter_filter]
    apply List.filter_congr
    intro member _
    by_cases hmember : member.1 = name <;> simp [hmember, hname]
  rw [HoldsOnce, hboth, HoldsOnce]

end HoldsOnce

/-- Names that are held once each are all different. -/
theorem nodup_of_holdsOnce (members : List (String × Json))
    (h : ∀ member ∈ members, ∃ value, HoldsOnce members member.1 value) :
    (members.map Prod.fst).Nodup := by
  rw [List.nodup_iff_count_eq_one]
  intro name hname
  obtain ⟨member, hmember, rfl⟩ := List.mem_map.mp hname
  obtain ⟨value, hvalue⟩ := h member hmember
  have hlength : (members.filter fun other => other.1 = member.1).length = 1 := by
    rw [hvalue, List.length_singleton]
  rw [List.count_eq_countP, List.countP_map, List.countP_eq_length_filter, ← hlength]
  rfl

/-! Members of an object that is accepted -/

theorem WritesMembers.exists_of_mem {members : List (String × Json)} {text : List Char}
    (h : WritesMembers members text) (member : String × Json) (hmember : member ∈ members) :
    ∃ own, WritesMember member own := by
  induction h with
  | none => simp at hmember
  | last other text hother =>
    obtain rfl := List.mem_singleton.mp hmember
    exact ⟨text, hother⟩
  | more other second members text rest hother _ ih =>
    rcases List.mem_cons.mp hmember with heq | hlater
    · subst heq
      exact ⟨text, hother⟩
    · exact ih hlater

/-- A member of an object that is accepted makes up an object by itself. -/
theorem exists_parse_singleton (members : List (String × Json)) (text : List Char)
    (h : parse text = .ok (.object members)) (member : String × Json) (hmember : member ∈ members) :
    ∃ alone, parse alone = .ok (.object [member]) := by
  obtain ⟨hrenders, hnests⟩ := (parse_eq_object_iff members text).mp h
  obtain ⟨-, inner, -, -, -, hinner, -⟩ := hrenders
  obtain ⟨own, hown⟩ := hinner.exists_of_mem member hmember
  have hsingle : Renders [member] ('\x7b' :: (own ++ ['\x7d'])) :=
    ⟨[], own, [], by simp [AllBlank], by simp [AllBlank], .last member own hown, rfl⟩
  exact ⟨_, (parse_eq_object_iff _ _).mpr ⟨hsingle, hnests.of_subset (by simpa using hmember)⟩⟩

theorem nestsWithin_of_singletons (members extra : List (String × Json)) (depth : Nat)
    (h : NestsWithin depth (.object members))
    (hextra : ∀ member ∈ extra, NestsWithin depth (.object [member])) :
    NestsWithin depth (.object (members ++ extra)) := by
  cases h with
  | object depth _ hmembers =>
    apply NestsWithin.object
    intro member hmember
    rcases List.mem_append.mp hmember with hmember | hmember
    · exact hmembers member hmember
    · cases hextra member hmember with
      | object _ _ hsingle => exact hsingle member List.mem_cons_self

/-- An object is accepted with members added to it, wherever they stand, if each of them could be
the only member of one. -/
theorem parse_among_iff (members extra others : List (String × Json)) (text other : List Char)
    (h : parse text = .ok (.object members)) (hothers : others.Perm (members ++ extra))
    (hother : Renders others other) :
    parse other = .ok (.object others) ↔
      ∀ member ∈ extra, ∃ alone, parse alone = .ok (.object [member]) := by
  constructor
  · intro hparse member hmember
    have hmem : member ∈ others := hothers.mem_iff.mpr (List.mem_append_right members hmember)
    exact exists_parse_singleton others other hparse member hmem
  · intro hextra
    have hmembers := ((parse_eq_object_iff members text).mp h).2
    have hall := nestsWithin_of_singletons members extra depthLimit hmembers (by
      intro member hmember
      obtain ⟨alone, halone⟩ := hextra member hmember
      exact ((parse_eq_object_iff _ _).mp halone).2)
    exact (parse_eq_object_iff others other).mpr ⟨hother, hall.of_subset hothers.subset⟩

/-! Arrays inside each other -/

/-- So many arrays inside each other, around an empty one. -/
def nestedArray : Nat → Json
  | 0 => .array []
  | depth + 1 => .array [nestedArray depth]

theorem writable_nestedArray (depth : Nat) : Writable (depth + 1) (nestedArray depth) := by
  induction depth with
  | zero => exact .array 0 [] (List.forall_mem_nil _)
  | succ depth ih =>
    refine .array (depth + 1) _ ?_
    intro item hitem
    rw [List.mem_singleton.mp hitem]
    exact ih

theorem lt_of_nestsWithin_nestedArray (limit depth : Nat)
    (h : NestsWithin limit (nestedArray depth)) : depth < limit := by
  induction depth generalizing limit with
  | zero =>
    cases h with
    | array inner _ _ => omega
  | succ depth ih =>
    cases h with
    | array inner _ hitems =>
      have hinner := ih inner (hitems _ List.mem_cons_self)
      omega

end Json

namespace Violation

/-! Decoding fields -/

def ReadsField (member : String × Json) (entry : String × Field) : Prop :=
  entry.1 = member.1 ∧ fieldFromJson member.1 member.2 = .ok entry.2

theorem map_fst_of_readsField {list : List (String × Json)} {read : List (String × Field)}
    (h : List.Forall₂ ReadsField list read) : read.map Prod.fst = list.map Prod.fst := by
  induction h with
  | nil => rfl
  | cons hmember _ ih => rw [List.map_cons, List.map_cons, hmember.1, ih]

/-- What one step can do with a field: read it under a name that has not been found yet. -/
theorem fieldsFromMembers_cons_eq_ok_iff (wanted : List String)
    (found result : List (String × Field)) (member : String × Json) (list : List (String × Json))
    (hwanted : member.1 ∈ wanted) :
    fieldsFromMembers wanted found (member :: list) = .ok result ↔
      member.1 ∉ found.map Prod.fst ∧ ∃ field, fieldFromJson member.1 member.2 = .ok field ∧
        fieldsFromMembers wanted (found ++ [(member.1, field)]) list = .ok result := by
  obtain ⟨name, value⟩ := member
  have hcontains : wanted.contains name = true := by simpa using hwanted
  have hany : (found.any fun field => field.1 == name) = true ↔ name ∈ found.map Prod.fst := by
    simp
  simp only [fieldsFromMembers, hcontains, hany, if_true]
  by_cases hrepeated : name ∈ found.map Prod.fst
  · rw [if_pos hrepeated]
    constructor
    · intro h
      simp at h
    · intro h
      exact absurd hrepeated h.1
  · rw [if_neg hrepeated]
    cases fieldFromJson name value with
    | error e => simp
    | ok field => simp only [Except.ok.injEq, exists_eq_left', and_iff_right hrepeated]

/-- Fields are read one by one, and no two of them have one name. -/
theorem fieldsFromMembers_eq_ok_iff (wanted : List String) (list : List (String × Json))
    (hlist : ∀ member ∈ list, member.1 ∈ wanted) (found result : List (String × Field))
    (hfound : (found.map Prod.fst).Nodup) :
    fieldsFromMembers wanted found list = .ok result ↔
      ∃ read, result = found ++ read ∧ List.Forall₂ ReadsField list read ∧
        (result.map Prod.fst).Nodup := by
  induction list generalizing found with
  | nil =>
    constructor
    · intro h
      obtain rfl := Except.ok.inj h
      exact ⟨[], by simp, .nil, hfound⟩
    · intro h
      obtain ⟨read, rfl, hread, -⟩ := h
      cases hread
      simp [fieldsFromMembers]
  | cons member list ih =>
    rw [List.forall_mem_cons] at hlist
    have hnext (field : Field) (hnew : member.1 ∉ found.map Prod.fst) :
        ((found ++ [(member.1, field)]).map Prod.fst).Nodup := by
      rw [List.map_append]
      exact hfound.append (List.nodup_singleton member.1) (List.disjoint_singleton.mpr hnew)
    rw [fieldsFromMembers_cons_eq_ok_iff wanted found result member list hlist.1]
    constructor
    · intro h
      obtain ⟨hnew, field, hfield, hrest⟩ := h
      obtain ⟨read, rfl, hread, hnodup⟩ := (ih hlist.2 _ (hnext field hnew)).mp hrest
      exact ⟨(member.1, field) :: read, by simp, .cons ⟨rfl, hfield⟩ hread, hnodup⟩
    · intro h
      obtain ⟨read, rfl, hread, hnodup⟩ := h
      have hnew : member.1 ∉ found.map Prod.fst := by
        rw [List.map_append, map_fst_of_readsField hread] at hnodup
        intro hrepeated
        exact (List.nodup_append.mp hnodup).2.2 _ hrepeated _ List.mem_cons_self rfl
      cases hread with
      | @cons _ entry _ read hentry hrest =>
        obtain ⟨name, field⟩ := entry
        obtain ⟨hname, hfield⟩ := hentry
        subst hname
        exact ⟨hnew, field, hfield, (ih hlist.2 _ (hnext field hnew)).mpr
          ⟨read, by simp, hrest, hnodup⟩⟩

theorem arrange_eq_ok_iff (found : List (String × Field)) (names : List String)
    (fields : List Field) :
    arrange found names = .ok fields ↔
      List.Forall₂ (fun name field => found.lookup name = some field) names fields := by
  induction names generalizing fields with
  | nil => simp [arrange, eq_comm]
  | cons name names ih =>
    rw [arrange, List.forall₂_cons_left_iff]
    cases hlookup : found.lookup name with
    | none => simp
    | some field =>
      have hrest : (arrange found names).map (field :: ·) = .ok fields ↔
          ∃ others, arrange found names = .ok others ∧ field :: others = fields := by
        cases arrange found names <;> simp [Except.map]
      simp [hrest, ih, eq_comm]

/-- A name finds the field of the one member that has it. -/
theorem lookup_of_readsField {list : List (String × Json)} {read : List (String × Field)}
    (h : List.Forall₂ ReadsField list read) (hnodup : (list.map Prod.fst).Nodup) (name : String)
    (field : Field) :
    read.lookup name = some field ↔
      ∃ value, Json.HoldsOnce list name value ∧ fieldFromJson name value = .ok field := by
  induction h with
  | nil => simp [Json.HoldsOnce]
  | @cons member entry list read hmember _ ih =>
    obtain ⟨_, value⟩ := member
    obtain ⟨key, other⟩ := entry
    obtain ⟨rfl, hother⟩ := hmember
    obtain ⟨hkey, hnodup⟩ := List.nodup_cons.mp hnodup
    unfold Json.HoldsOnce
    by_cases hname : key = name
    · subst hname
      have hnone : list.filter (fun member => member.1 = key) = [] := by
        rw [List.filter_eq_nil_iff]
        intro member hmember
        have hne : member.1 ≠ key := by
          rintro rfl
          exact hkey (List.mem_map.mpr ⟨member, hmember, rfl⟩)
        simpa using hne
      rw [List.lookup_cons_self, List.filter_cons_of_pos (by simp), hnone]
      simp [hother]
    · rw [List.lookup_cons, beq_eq_false_iff_ne.mpr (Ne.symm hname),
        List.filter_cons_of_neg (by simpa using hname)]
      exact ih hnodup

theorem exists_forall₂_readsField (list : List (String × Json))
    (h : ∀ member ∈ list, ∃ field, fieldFromJson member.1 member.2 = .ok field) :
    ∃ read, List.Forall₂ ReadsField list read := by
  induction list with
  | nil => exact ⟨[], .nil⟩
  | cons member list ih =>
    rw [List.forall_mem_cons] at h
    obtain ⟨field, hfield⟩ := h.1
    obtain ⟨read, hread⟩ := ih h.2
    exact ⟨(member.1, field) :: read, .cons ⟨rfl, hfield⟩ hread⟩

def HoldsFields (members : List (String × Json)) (names : List String) (fields : List Field) :
    Prop :=
  List.Forall₂ (fun name field => ∃ value, Json.HoldsOnce members name value ∧
    fieldFromJson name value = .ok field) names fields

theorem HoldsFields.exists_of_mem {members : List (String × Json)} {names : List String}
    {fields : List Field} (h : HoldsFields members names fields) (name : String)
    (hname : name ∈ names) :
    ∃ value field, Json.HoldsOnce members name value ∧ fieldFromJson name value = .ok field := by
  induction h with
  | nil => simp at hname
  | @cons first field _ _ hfirst _ ih =>
    rcases List.mem_cons.mp hname with rfl | hlater
    · obtain ⟨value, hvalue⟩ := hfirst
      exact ⟨value, field, hvalue⟩
    · exact ih hlater

theorem HoldsFields.of_holdsOnce {members others : List (String × Json)} {names : List String}
    {fields : List Field} (h : HoldsFields members names fields)
    (hothers : ∀ name ∈ names, ∀ value, Json.HoldsOnce members name value →
      Json.HoldsOnce others name value) : HoldsFields others names fields := by
  have hnames := (List.forall₂_and_left names fields).mpr ⟨fun _ hname => hname, h⟩
  refine hnames.imp ?_
  intro name field hheld
  obtain ⟨hname, value, hvalue, hfield⟩ := hheld
  exact ⟨value, hothers name hname value hvalue, hfield⟩

/-- Members that are no fields can be left out. -/
theorem HoldsFields.filter_iff {members : List (String × Json)} {names : List String}
    {fields : List Field} (kept : String → Bool) (hkept : ∀ name ∈ names, kept name = true) :
    HoldsFields (members.filter fun member => kept member.1) names fields ↔
      HoldsFields members names fields := by
  constructor
  · intro h
    exact h.of_holdsOnce fun name hname _ => (Json.HoldsOnce.filter_iff kept (hkept name hname)).mp
  · intro h
    exact h.of_holdsOnce fun name hname _ => (Json.HoldsOnce.filter_iff kept (hkept name hname)).mpr

theorem HoldsFields.exists_readsField {list : List (String × Json)} {names : List String}
    {fields : List Field} (h : HoldsFields list names fields)
    (hlist : ∀ member ∈ list, member.1 ∈ names) :
    (∃ read, List.Forall₂ ReadsField list read) ∧ (list.map Prod.fst).Nodup := by
  constructor
  · apply exists_forall₂_readsField
    intro member hmember
    obtain ⟨value, field, hvalue, hfield⟩ := h.exists_of_mem member.1 (hlist member hmember)
    rw [hvalue.eq_of_mem member hmember rfl]
    exact ⟨field, hfield⟩
  · apply Json.nodup_of_holdsOnce
    intro member hmember
    obtain ⟨value, -, hvalue, -⟩ := h.exists_of_mem member.1 (hlist member hmember)
    exact ⟨value, hvalue⟩

theorem Content.fields_members_eq_ok_iff_of_wanted (tag : Tag) (list : List (String × Json))
    (fields : List Field) (hlist : ∀ member ∈ list, member.1 ∈ tag.fieldNames) :
    (members list).fields tag = .ok fields ↔ HoldsFields list tag.fieldNames fields := by
  have hread : ∀ read, fieldsFromMembers tag.fieldNames [] list = .ok read ↔
      List.Forall₂ ReadsField list read ∧ (list.map Prod.fst).Nodup := by
    intro read
    rw [fieldsFromMembers_eq_ok_iff tag.fieldNames list hlist [] read (by simp)]
    constructor
    · intro h
      obtain ⟨_, rfl, hfields, hnodup⟩ := h
      exact ⟨hfields, map_fst_of_readsField hfields ▸ hnodup⟩
    · intro h
      obtain ⟨hfields, hnodup⟩ := h
      exact ⟨read, rfl, hfields, map_fst_of_readsField hfields ▸ hnodup⟩
  constructor
  · intro h
    rw [Content.fields] at h
    split at h
    · simp at h
    · next read hfound =>
      obtain ⟨hfields, hnodup⟩ := (hread read).mp hfound
      exact ((arrange_eq_ok_iff _ _ _).mp h).imp fun name field =>
        (lookup_of_readsField hfields hnodup name field).mp
  · intro h
    obtain ⟨⟨read, hfields⟩, hnodup⟩ := h.exists_readsField hlist
    simp only [Content.fields, (hread read).mpr ⟨hfields, hnodup⟩]
    exact (arrange_eq_ok_iff _ _ _).mpr (h.imp fun name field =>
      (lookup_of_readsField hfields hnodup name field).mpr)

/-- Fields are decoded from members that hold each of them once, in whatever order and among
whatever others. -/
theorem Content.fields_members_eq_ok_iff (tag : Tag) (list : List (String × Json))
    (fields : List Field) :
    (members list).fields tag = .ok fields ↔ HoldsFields list tag.fieldNames fields := by
  have hkept : (members list).fields tag =
      (members (list.filter fun member => member.1 ∈ tag.fieldNames)).fields tag := by
    rw [Content.fields, Content.fields, fieldsFromMembers_filter]
  rw [hkept, fields_members_eq_ok_iff_of_wanted]
  · exact HoldsFields.filter_iff (fun key => key ∈ tag.fieldNames) (by simp)
  · intro member hmember
    simpa using (List.mem_filter.mp hmember).2

theorem Content.decode_eq_ok_iff (tag : Tag) (content : Content) (violation : Violation) :
    content.decode tag = .ok violation ↔
      ∃ fields, content.fields tag = .ok fields ∧ ofFields? tag fields = some violation := by
  unfold decode
  cases content.fields tag with
  | error e => simp
  | ok fields => cases hfields : ofFields? tag fields <;> simp [hfields]

theorem tag_of_ofFields? (tag : Tag) (fields : List Field) (violation : Violation)
    (h : ofFields? tag fields = some violation) : violation.tag = tag := by
  unfold ofFields? at h
  split at h <;> cases h <;> rfl

/-! Reading an object -/

/-- Members that hold a violation: its tag and each of its fields, once. -/
def HeldBy (violation : Violation) (members : List (String × Json)) : Prop :=
  Json.HoldsOnce members "_tag" (.string violation.tag.name) ∧
    ∃ fields, HoldsFields members violation.tag.fieldNames fields ∧
      ofFields? violation.tag fields = some violation

theorem tag_not_mem_fieldNames (tag : Tag) : "_tag" ∉ tag.fieldNames := by
  cases tag <;> decide

/-- The tag stands apart from the fields. -/
theorem decode_untagged_iff (tag : Tag) (members : List (String × Json)) (violation : Violation) :
    (Content.members (members.filter fun member => member.1 ≠ "_tag")).decode tag =
        .ok violation ↔
      ∃ fields, HoldsFields members tag.fieldNames fields ∧
        ofFields? tag fields = some violation := by
  have huntagged : ∀ fields,
      HoldsFields (members.filter fun member => member.1 ≠ "_tag") tag.fieldNames fields ↔
        HoldsFields members tag.fieldNames fields := by
    intro fields
    apply HoldsFields.filter_iff fun key => key ≠ "_tag"
    intro name hname
    have hne : name ≠ "_tag" := by
      rintro rfl
      exact tag_not_mem_fieldNames tag hname
    simpa using hne
  simp only [Content.decode_eq_ok_iff, Content.fields_members_eq_ok_iff, huntagged]

/-- A violation is read from the texts of the objects that hold it. -/
theorem parse_object_eq_ok_iff (members : List (String × Json)) (text : List Char)
    (violation : Violation) (htext : Json.Renders members text) :
    parse text = .ok violation ↔
      Json.parse text = .ok (.object members) ∧ violation.HeldBy members := by
  constructor
  · intro h
    obtain ⟨tag, content, rest, hread, hdecode, hrest⟩ := (parse_eq_ok_iff text violation).mp h
    obtain ⟨s, hs⟩ : ∃ s, Json.skipBlanks text = '\x7b' :: s := by
      obtain ⟨before, inner, after, hbefore, -, -, rfl⟩ := htext
      rw [Json.skipBlanks_append _ _ hbefore, Json.skipBlanks_cons _ _ rfl]
      exact ⟨_, rfl⟩
    simp only [readTagged, hs] at hread
    obtain ⟨found, hvalue, htag, rfl⟩ := readObject_eq_ok s rest tag content hread
    rw [← hs, Json.readValue_skipBlanks] at hvalue
    have hparse : Json.parse text = .ok (.object found) := by
      simp only [Json.parse, hvalue, Json.finish, hrest]
    obtain rfl := Json.object.inj (Json.eq_object_of_renders members text _ htext hparse)
    obtain ⟨fields, hfields, hviolation⟩ := (decode_untagged_iff tag found violation).mp hdecode
    obtain rfl := tag_of_ofFields? tag fields violation hviolation
    exact ⟨hparse, htag, fields, hfields, hviolation⟩
  · intro h
    obtain ⟨hparse, htag, hfields⟩ := h
    have hdecode := (decode_untagged_iff violation.tag members violation).mpr hfields
    obtain ⟨before, after, rfl, hbefore, -, hafter⟩ := List.filter_eq_cons_iff.mp htag
    rw [List.filter_eq_nil_iff] at hafter
    have huntagged : (before ++ ("_tag", .string violation.tag.name) :: after).filter
        (fun member => member.1 ≠ "_tag") = before ++ after := by
      rw [List.filter_append, List.filter_cons_of_neg (by simp), List.filter_eq_self.mpr,
        List.filter_eq_self.mpr]
      · simpa using hafter
      · simpa using hbefore
    rw [huntagged] at hdecode
    exact parse_of_tagged text before after violation.tag violation (by simpa using hbefore)
      (by simpa using hafter) hdecode hparse

/-! Members that are added -/

theorem Tag.name_inj {tag other : Tag} (h : tag.name = other.name) : tag = other := by
  have hname : ∀ tag : Tag, Tag.names.decode tag.name = .ok tag := by
    intro tag
    cases tag <;> rfl
  have htag := hname tag
  rw [h, hname other] at htag
  exact (Except.ok.inj htag).symm

/-- With members added, wherever they stand, members hold what they held before, unless one of
those that were added is named as the tag or as a field. -/
theorem HeldBy.among_iff {violation : Violation} {members extra others : List (String × Json)}
    (h : violation.HeldBy members) (hothers : others.Perm (members ++ extra)) (read : Violation) :
    read.HeldBy others ↔ read = violation ∧
      ∀ member ∈ extra, member.1 ≠ "_tag" ∧ member.1 ∉ violation.tag.fieldNames := by
  obtain ⟨htag, fields, hfields, hviolation⟩ := h
  constructor
  · -- The tag says which fields are looked for, so it is settled before them.
    intro h
    obtain ⟨hreadTag, found, hfound, hread⟩ := h
    obtain ⟨hname, htags⟩ := (htag.among_iff hothers).mp hreadTag
    have hsame : read.tag = violation.tag := Tag.name_inj (Json.string.inj hname)
    rw [hsame] at hfound hread
    have honce : ∀ name ∈ violation.tag.fieldNames, ∀ value, Json.HoldsOnce others name value →
        Json.HoldsOnce members name value ∧ ∀ member ∈ extra, member.1 ≠ name := by
      intro name hname value hvalue
      obtain ⟨own, -, hown, -⟩ := hfields.exists_of_mem name hname
      obtain ⟨rfl, hextra⟩ := (hown.among_iff hothers).mp hvalue
      exact ⟨hown, hextra⟩
    have hmembers := hfound.of_holdsOnce fun name hname value hvalue =>
      (honce name hname value hvalue).1
    have hdecoded := (Content.fields_members_eq_ok_iff violation.tag members found).mpr hmembers
    rw [(Content.fields_members_eq_ok_iff violation.tag members fields).mpr hfields] at hdecoded
    obtain rfl := Except.ok.inj hdecoded
    refine ⟨Option.some.inj (hread.symm.trans hviolation), ?_⟩
    intro member hmember
    refine ⟨htags member hmember, ?_⟩
    intro hname
    obtain ⟨value, -, hvalue, -⟩ := hfound.exists_of_mem member.1 hname
    exact (honce member.1 hname value hvalue).2 member hmember rfl
  · intro h
    obtain ⟨rfl, hextra⟩ := h
    refine ⟨(htag.among_iff hothers).mpr ⟨rfl, fun member hmember => (hextra member hmember).1⟩,
      fields, hfields.of_holdsOnce ?_, hviolation⟩
    intro name hname value hvalue
    refine (hvalue.among_iff hothers).mpr ⟨rfl, ?_⟩
    rintro member hmember rfl
    exact (hextra member hmember).2 hname

/-- An object from which a violation is read gives the same one with its members in any order and
any others among them, as long as these are not named as the tag or as a field of the violation and
each is accepted as the member of an object, that is with one more bracket around its value. With a
second tag or a second member for a field it is refused. -/
theorem read_among_foreign_members (members extra others : List (String × Json))
    (text other : List Char) (violation : Violation) (htext : Json.Renders members text)
    (hread : parse text = .ok violation) (hothers : others.Perm (members ++ extra))
    (hother : Json.Renders others other) :
    ((∀ member ∈ extra, member.1 ≠ "_tag" ∧ member.1 ∉ violation.tag.fieldNames) →
      (parse other = .ok violation ↔
        ∀ member ∈ extra, ∃ alone, Json.parse alone = .ok (.object [member]))) ∧
    ((∃ member ∈ extra, member.1 = "_tag" ∨ member.1 ∈ violation.tag.fieldNames) →
      ∃ error, parse other = .error error) := by
  obtain ⟨hparse, hheld⟩ := (parse_object_eq_ok_iff members text violation htext).mp hread
  have haccepted := Json.parse_among_iff members extra others text other hparse hothers hother
  constructor
  · intro hforeign
    rw [parse_object_eq_ok_iff others other violation hother, haccepted]
    exact and_iff_left ((hheld.among_iff hothers violation).mpr ⟨rfl, hforeign⟩)
  · intro h
    obtain ⟨member, hmember, hname⟩ := h
    cases hresult : parse other with
    | error error => exact ⟨error, rfl⟩
    | ok read =>
      have hboth := (parse_object_eq_ok_iff others other read hother).mp hresult
      obtain ⟨htag, hfield⟩ := ((hheld.among_iff hothers read).mp hboth.2).2 member hmember
      rcases hname with hname | hname
      · exact absurd hname htag
      · exact absurd hname hfield

/-- A refused import is read from the end of its object to the start, between two members that
another kind of violation would read, and not with its code given twice. -/
theorem read_among_foreign_members_reversed :
    let violation := importRefused "m" "c"
    let members := violation.tag.member :: violation.fields
    let first : String × Json := ("missing", .null)
    let last : String × Json := ("missing", .object [("_tag", .null)])
    let mixed := first :: (members.reverse ++ [last])
    let again := members ++ [("code", .string "c")]
    (∃ text, Json.Renders members text ∧ parse text = .ok violation) ∧
      mixed.Perm (members ++ [first, last]) ∧
      (∃ other, Json.Renders mixed other ∧ parse other = .ok violation) ∧
      ∃ other, Json.Renders again other ∧ ∃ error, parse other = .error error := by
  intro violation members first last mixed again
  have hwritable : ∀ member ∈ members ++ [first, last], Json.Writable 126 member.2 := by
    simp only [members, violation, fields, Tag.member, first, last, List.cons_append,
      List.nil_append, List.forall_mem_cons]
    exact ⟨.string 126 _, .string 126 _, .string 126 _, .null 126,
      .object 125 _ (by simpa using .null 125), by simp⟩
  have hparse : ∀ list : List (String × Json), list ⊆ members ++ [first, last] →
      Json.parse (Json.object list).compact.toList = .ok (.object list) := by
    intro list hlist
    exact Json.parse_compact _ (.object 126 list fun member hmember =>
      hwritable member (hlist hmember))
  have hmixed : mixed.Perm (members ++ [first, last]) := by
    have hrest := (members.reverse_perm.append_right [last]).cons first
    exact hrest.trans List.perm_middle.symm
  have hagain : again ⊆ members ++ [first, last] := by
    simp [again, members, violation, fields]
  have htext := Json.renders_of_parse _ _ (hparse members (List.subset_append_left _ _))
  have hread : parse (Json.object members).compact.toList = .ok violation := by decide +kernel
  have hmixedText := Json.renders_of_parse _ _ (hparse mixed hmixed.subset)
  have hagainText := Json.renders_of_parse _ _ (hparse again hagain)
  have hforeign := (read_among_foreign_members members [first, last] mixed _ _ violation htext hread
    hmixed hmixedText).1
  have hsecond := (read_among_foreign_members members [("code", .string "c")] again _ _ violation
    htext hread (List.Perm.refl again) hagainText).2
  refine ⟨⟨_, htext, hread⟩, hmixed, ⟨_, hmixedText, (hforeign ?_).mpr ?_⟩, _, hagainText,
    hsecond ⟨_, List.mem_cons_self, .inr ?_⟩⟩
  · simp [first, last, violation, tag, Tag.fieldNames]
  · intro member hmember
    exact ⟨_, hparse [member] (by simp [hmember])⟩
  · decide

/-- A value of as many brackets as a text may have is accepted alone and refused as a foreign
member, where the object is one bracket more. -/
theorem deep_foreign_member_is_refused :
    let violation := loop "c"
    let members := violation.tag.member :: violation.fields
    let deep : String × Json := ("note", Json.nestedArray 126)
    let others := members ++ [deep]
    let other := (Json.object others).compact.toList
    (∃ text, Json.Renders members text ∧ parse text = .ok violation) ∧
      deep.1 ≠ "_tag" ∧ deep.1 ∉ violation.tag.fieldNames ∧
      Json.parse deep.2.compact.toList = .ok deep.2 ∧
      Json.Renders others other ∧ ∃ error, parse other = .error error := by
  intro violation members deep others other
  have hdeep : Json.Writable Json.depthLimit deep.2 := Json.writable_nestedArray 126
  have hmembers : ∀ member ∈ members, Json.Writable Json.depthLimit member.2 := by
    simp only [members, violation, fields, Tag.member, List.forall_mem_cons]
    exact ⟨.string _ _, .string _ _, List.forall_mem_nil _⟩
  have htext := Json.renders_compact members hmembers
  have hread : parse (Json.object members).compact.toList = .ok violation := by decide +kernel
  have hother : Json.Renders others other := by
    apply Json.renders_compact
    intro member hmember
    rcases List.mem_append.mp hmember with hmember | hmember
    · exact hmembers member hmember
    · rw [List.mem_singleton.mp hmember]
      exact hdeep
  refine ⟨⟨_, htext, hread⟩, by decide, by decide, Json.parse_compact deep.2 hdeep, hother, ?_⟩
  cases hresult : parse other with
  | error error => exact ⟨error, rfl⟩
  | ok read =>
    have hparse := ((parse_object_eq_ok_iff others other read hother).mp hresult).1
    cases ((Json.parse_eq_object_iff others other).mp hparse).2 with
    | object inner _ hnests =>
      have hlt := Json.lt_of_nestsWithin_nestedArray _ _
        (hnests deep (List.mem_append_right members List.mem_cons_self))
      omega

end Violation

end Rubric
