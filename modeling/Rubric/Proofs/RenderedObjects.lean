import Rubric.Proofs.LocalValues

/-!
Texts of objects. The members of an object are written one after the other, with commas between
them and blanks where they may stand: a key is any literal that is read as it, and a value any text
that is read as it. Each such text is read as the members in their order, as long as they do not
nest too deep, and every text that is read as an object is one.
-/
namespace Rubric.Json

inductive WritesMember (member : String × Json) : List Char → Prop
  | mk (before between key value : List Char) (hbefore : AllBlank before)
      (hbetween : AllBlank between) (hkey : readString key = .ok (member.1, []))
      (hvalue : parse value = .ok member.2) :
      WritesMember member (before ++ '"' :: (key ++ (between ++ ':' :: value)))

inductive WritesMembers : List (String × Json) → List Char → Prop
  | none (gap : List Char) (hgap : AllBlank gap) : WritesMembers [] gap
  | last (member : String × Json) (text : List Char) (h : WritesMember member text) :
      WritesMembers [member] text
  | more (member second : String × Json) (members : List (String × Json)) (text rest : List Char)
      (h : WritesMember member text) (hrest : WritesMembers (second :: members) rest) :
      WritesMembers (member :: second :: members) (text ++ ',' :: rest)

def Renders (members : List (String × Json)) (text : List Char) : Prop :=
  ∃ before inner after, AllBlank before ∧ AllBlank after ∧ WritesMembers members inner ∧
    text = before ++ '\x7b' :: (inner ++ '\x7d' :: after)

theorem skipBlanks_eq_nil_iff (s : List Char) : skipBlanks s = [] ↔ AllBlank s := by
  unfold skipBlanks
  rw [List.dropWhile_eq_nil_iff]
  rfl

theorem parse_eq_ok_iff (text : List Char) (value : Json) :
    parse text = .ok value ↔
      ∃ rest, readValue depthLimit text = .ok (value, rest) ∧ AllBlank rest := by
  constructor
  · intro h
    obtain ⟨rest, hread, hrest⟩ := parse_eq_ok text value h
    exact ⟨rest, hread, (skipBlanks_eq_nil_iff rest).mp hrest⟩
  · intro h
    obtain ⟨rest, hread, hrest⟩ := h
    simp only [parse, hread, finish, (skipBlanks_eq_nil_iff rest).mpr hrest]

theorem stopsNumber_of_isBlank (c : Char) (h : isBlank c = true) : StopsNumber c := by
  simp only [isBlank, Bool.or_eq_true, decide_eq_true_eq] at h
  rcases h with ((rfl | rfl) | rfl) | rfl <;>
    exact ⟨rfl, by decide, by decide, by decide⟩

/-- Blanks and then a character that stops a number. -/
theorem standsFor_gap (gap rest other : List Char) (c : Char) (hgap : AllBlank gap)
    (hc : StopsNumber c) : StandsFor (gap ++ c :: rest) other := by
  refine Or.inr ?_
  intro d hd
  cases gap with
  | nil =>
    obtain rfl : c = d := by simpa using hd
    exact hc
  | cons b gap =>
    obtain rfl : b = d := by simpa using hd
    exact stopsNumber_of_isBlank b (hgap b List.mem_cons_self)

theorem standsFor_blanks (gap other : List Char) (hgap : AllBlank gap) : StandsFor gap other := by
  refine Or.inr ?_
  intro c hc
  exact stopsNumber_of_isBlank c (hgap c (List.mem_of_head? hc))

/-- A member's text is read as the member where the text goes on with a comma or a brace. -/
theorem WritesMember.reads {member : String × Json} {text : List Char}
    (h : WritesMember member text) :
    ∃ before body gap, AllBlank before ∧ AllBlank gap ∧ text = before ++ (body ++ gap) ∧
      ∀ c rest, StopsNumber c → Brackets.object.Opens (body ++ (gap ++ c :: rest)) ∧
        readMember (readValue depthLimit) (body ++ (gap ++ c :: rest)) =
          .ok (member, gap ++ c :: rest) := by
  obtain ⟨before, between, key, value, hbefore, hbetween, hkey, hvalue⟩ := h
  obtain ⟨gap, hread, hgap⟩ := (parse_eq_ok_iff value member.2).mp hvalue
  obtain ⟨taken, rfl, htaken⟩ := readsLocally_readValue depthLimit value member.2 gap hread
  refine ⟨before, '"' :: (key ++ (between ++ ':' :: taken)), gap, hbefore, hgap, by simp, ?_⟩
  intro c rest hc
  refine ⟨⟨'"', rfl, rfl, by decide⟩, ?_⟩
  simp only [List.cons_append, List.append_assoc]
  exact readMember_of_readValue _ _ _ _ _ member.1 member.2
    ((readKey_eq_ok_iff _ _ _).mpr ⟨key, hkey, rfl⟩)
    ((readColon_eq_ok_iff _ _).mpr ⟨between, hbetween, rfl⟩)
    (htaken _ (standsFor_gap gap rest gap c hgap hc))

/-- Members are read one by one. What leads to the first of them is nothing, or a comma. -/
theorem WritesMembers.items {members : List (String × Json)} {text : List Char}
    (h : WritesMembers members text) (hne : members ≠ []) (first : Bool) (lead after : List Char)
    (hlead : ∀ gap start, AllBlank gap → Brackets.object.Opens start →
      Brackets.object.next first (lead ++ (gap ++ start)) = .ok (.item start)) :
    Brackets.object.items (readMember (readValue depthLimit)) (members.length + 1) first
      (lead ++ (text ++ '\x7d' :: after)) = .ok (members, after) := by
  have husual : Brackets.object.Usual := Or.inr rfl
  induction h generalizing first lead with
  | none => exact absurd rfl hne
  | last member text hmember =>
    obtain ⟨before, body, gap, hbefore, hgap, rfl, hread⟩ := hmember.reads
    have hbrace : StopsNumber '\x7d' := ⟨rfl, by decide, by decide, by decide⟩
    obtain ⟨hopens, hbody⟩ := hread '\x7d' after hbrace
    have hdone := Brackets.items_done (readMember (readValue depthLimit)) 0 false _ after
      (Brackets.next_done husual false gap after hgap)
    rw [List.append_assoc, List.append_assoc]
    exact Brackets.items_item _ 1 first _ _ _ after member [] (hlead before _ hbefore hopens) hbody
      hdone
  | more member second members text rest hmember hrest ih =>
    obtain ⟨before, body, gap, hbefore, hgap, rfl, hread⟩ := hmember.reads
    have hcomma : StopsNumber ',' := ⟨rfl, by decide, by decide, by decide⟩
    obtain ⟨hopens, hbody⟩ := hread ',' (rest ++ '\x7d' :: after) hcomma
    have hothers := ih (List.cons_ne_nil _ _) false (gap ++ [',']) (by
      intro inner start hinner hstart
      rw [List.append_assoc, List.singleton_append]
      exact Brackets.next_later husual gap inner start hgap hinner hstart)
    rw [List.append_assoc gap, List.singleton_append] at hothers
    simp only [List.append_assoc, List.cons_append]
    exact Brackets.items_item _ _ first _ _ _ after member (second :: members)
      (hlead before _ hbefore hopens) hbody hothers

/-- An object's text is read as its members, with room for one more bracket than a document has. -/
theorem readValue_of_renders (members : List (String × Json)) (text : List Char)
    (h : Renders members text) :
    ∃ rest, AllBlank rest ∧ readValue (depthLimit + 1) text = .ok (.object members, rest) := by
  obtain ⟨before, inner, after, hbefore, hafter, hmembers, rfl⟩ := h
  have husual : Brackets.object.Usual := Or.inr rfl
  have hitems : Brackets.object.items (readMember (readValue depthLimit)) (members.length + 1) true
      (inner ++ '\x7d' :: after) = .ok (members, after) := by
    cases members with
    | nil =>
      cases hmembers with
      | none gap hgap =>
        exact Brackets.items_done _ _ true _ after (Brackets.next_done husual true inner after hgap)
    | cons member members =>
      exact hmembers.items (List.cons_ne_nil _ _) true [] after Brackets.next_first
  refine ⟨after, hafter, ?_⟩
  have hread := Brackets.items_of_items husual _
    (readsLocally_readMember _ (readsLocally_readValue depthLimit)) _ _ _ _ hitems
  rw [readValue_gap _ before _ hbefore, readValue_object, hread]
  rfl

/-- What was read as a member is a text for it, with any blanks around. -/
theorem writesMember_of_readMember (depth : Nat) (start after : List Char) (member : String × Json)
    (h : readMember (readValue depth) start = .ok (member, after))
    (hnests : NestsWithin depthLimit member.2) :
    ∃ body, start = body ++ after ∧ ∀ before gap, AllBlank before → AllBlank gap →
      WritesMember member (before ++ (body ++ gap)) := by
  obtain ⟨t, u, hkey, hcolon, hvalue⟩ := readMember_eq_ok _ _ _ member.1 member.2 h
  obtain ⟨taken, rfl, htaken⟩ := readsLocally_readValue depth u member.2 after hvalue
  obtain ⟨between, hbetween, rfl⟩ := (readColon_eq_ok_iff _ _).mp hcolon
  obtain ⟨key, hread, rfl⟩ := (readKey_eq_ok_iff _ _ _).mp hkey
  refine ⟨'"' :: (key ++ (between ++ ':' :: taken)), by simp, ?_⟩
  intro before gap hbefore hgap
  have hparse : parse (taken ++ gap) = .ok member.2 := by
    rw [parse_eq_ok_iff]
    have hother := htaken gap (standsFor_blanks gap after hgap)
    exact ⟨gap, readValue_of_nestsWithin depth depthLimit _ _ _ hother hnests, hgap⟩
  have htext := WritesMember.mk before between key (taken ++ gap) hbefore hbetween hread hparse
  simpa using htext

/-- What follows a member that was read: the closing brace, or a comma and more members. -/
inductive WritesRest : List (String × Json) → List Char → List Char → Prop
  | done (gap rest : List Char) (hgap : AllBlank gap) : WritesRest [] (gap ++ '\x7d' :: rest) rest
  | more (member : String × Json) (members : List (String × Json)) (gap text rest : List Char)
      (hgap : AllBlank gap) (h : WritesMembers (member :: members) text) :
      WritesRest (member :: members) (gap ++ ',' :: (text ++ '\x7d' :: rest)) rest

/-- A member and what follows it. -/
theorem WritesRest.cons {members : List (String × Json)} {after rest : List Char}
    (h : WritesRest members after rest) (depth : Nat) (before start : List Char)
    (member : String × Json) (hbefore : AllBlank before)
    (hread : readMember (readValue depth) start = .ok (member, after))
    (hnests : NestsWithin depthLimit member.2) :
    ∃ text, WritesMembers (member :: members) text ∧ before ++ start = text ++ '\x7d' :: rest := by
  obtain ⟨body, rfl, hbody⟩ := writesMember_of_readMember depth start after member hread hnests
  cases h with
  | done gap _ hgap =>
    exact ⟨before ++ (body ++ gap), .last member _ (hbody before gap hbefore hgap), by simp⟩
  | more second members gap text _ hgap htext =>
    exact ⟨before ++ (body ++ gap) ++ ',' :: text,
      .more member second members _ text (hbody before gap hbefore hgap) htext, by simp⟩

theorem writesRest_of_items (depth fuel : Nat) (s rest : List Char) (members : List (String × Json))
    (h : Brackets.object.items (readMember (readValue depth)) fuel false s = .ok (members, rest))
    (hnests : ∀ member ∈ members, NestsWithin depthLimit member.2) : WritesRest members s rest := by
  have husual : Brackets.object.Usual := Or.inr rfl
  induction members generalizing fuel s with
  | nil =>
    obtain ⟨-, -, hnext⟩ := Brackets.items_eq_ok_nil _ _ _ _ _ _ h
    cases (Brackets.next_eq_ok_iff husual false s _).mp hnext with
    | done gap _ hgap => exact .done gap rest hgap
  | cons member members ih =>
    obtain ⟨less, start, after, -, hnext, hread, hrest⟩ :=
      Brackets.items_eq_ok_cons _ _ _ _ _ _ _ _ h
    have hafter := ih less after hrest
      fun other hother => hnests other (List.mem_cons_of_mem _ hother)
    cases (Brackets.next_eq_ok_iff husual false s _).mp hnext with
    | first _ _ hfirst => exact nomatch hfirst
    | later before gap _ _ hbefore hgap _ =>
      obtain ⟨text, htext, hstart⟩ :=
        hafter.cons depth gap start member hgap hread (hnests member List.mem_cons_self)
      rw [hstart]
      exact .more member members before text rest hbefore htext

theorem writesMembers_of_items (depth fuel : Nat) (s rest : List Char)
    (members : List (String × Json))
    (h : Brackets.object.items (readMember (readValue depth)) fuel true s = .ok (members, rest))
    (hnests : ∀ member ∈ members, NestsWithin depthLimit member.2) :
    ∃ text, WritesMembers members text ∧ s = text ++ '\x7d' :: rest := by
  have husual : Brackets.object.Usual := Or.inr rfl
  cases members with
  | nil =>
    obtain ⟨-, -, hnext⟩ := Brackets.items_eq_ok_nil _ _ _ _ _ _ h
    cases (Brackets.next_eq_ok_iff husual true s _).mp hnext with
    | done gap _ hgap => exact ⟨gap, .none gap hgap, rfl⟩
  | cons member members =>
    obtain ⟨less, start, after, -, hnext, hread, hrest⟩ :=
      Brackets.items_eq_ok_cons _ _ _ _ _ _ _ _ h
    have hafter := writesRest_of_items depth less after rest members hrest
      fun other hother => hnests other (List.mem_cons_of_mem _ hother)
    cases (Brackets.next_eq_ok_iff husual true s _).mp hnext with
    | first gap _ _ hgap _ =>
      exact hafter.cons depth gap start member hgap hread (hnests member List.mem_cons_self)
    | later _ _ _ hfirst => exact nomatch hfirst

theorem renders_of_parse (members : List (String × Json)) (text : List Char)
    (h : parse text = .ok (.object members)) : Renders members text := by
  obtain ⟨after, hread, hafter⟩ := (parse_eq_ok_iff _ _).mp h
  obtain ⟨before, hbefore, htext⟩ := exists_skipBlanks text
  have hnests := nestsWithin_of_readValue _ _ _ _ hread
  obtain ⟨depth, t, hdepth, ht, hitems⟩ := readFrom_of_readValue _ _ _ _ hread
  cases hnests with
  | object inner _ hinner =>
    obtain ⟨inner, hinner, rfl⟩ := writesMembers_of_items depth _ _ _ _ hitems
      fun member hmember => (hinner member hmember).succ
    exact ⟨before, inner, after, hbefore, hafter, hinner, by rw [htext, ht]⟩

/-- The texts that are read as an object are those for its members, unless they nest too deep. -/
theorem parse_eq_object_iff (members : List (String × Json)) (text : List Char) :
    parse text = .ok (.object members) ↔
      Renders members text ∧ NestsWithin depthLimit (.object members) := by
  constructor
  · intro h
    obtain ⟨rest, hread, -⟩ := (parse_eq_ok_iff _ _).mp h
    exact ⟨renders_of_parse members text h, nestsWithin_of_readValue _ _ _ _ hread⟩
  · intro h
    obtain ⟨hrenders, hnests⟩ := h
    obtain ⟨rest, hrest, hread⟩ := readValue_of_renders members text hrenders
    rw [parse_eq_ok_iff]
    exact ⟨rest, readValue_of_nestsWithin _ depthLimit _ _ _ hread hnests, hrest⟩

/-- A text for the members of an object is read as nothing else. -/
theorem eq_object_of_renders (members : List (String × Json)) (text : List Char) (value : Json)
    (h : Renders members text) (hparse : parse text = .ok value) : value = .object members := by
  obtain ⟨rest, -, hread⟩ := readValue_of_renders members text h
  obtain ⟨last, hvalue, -⟩ := (parse_eq_ok_iff text value).mp hparse
  have hnests := nestsWithin_of_readValue depthLimit text last value hvalue
  have hmore := readValue_of_nestsWithin _ _ _ _ _ hvalue hnests.succ
  rw [hread] at hmore
  exact (Prod.mk.inj (Except.ok.inj hmore)).1.symm

theorem writesMember_compact (member : String × Json) (h : Writable depthLimit member.2) :
    WritesMember member (compactMember member) := by
  have hkey : readString (member.1.toList.flatMap (Text.escapeChar isPlain) ++ ['"']) =
      .ok (member.1, []) := readString_literal member.1 []
  have hvalue : parse (compactChars member.2) = .ok member.2 := by
    simpa [compact] using parse_compact member.2 h
  have htext : compactMember member = [] ++ '"' :: (member.1.toList.flatMap
      (Text.escapeChar isPlain) ++ ['"'] ++ ([] ++ ':' :: compactChars member.2)) := by
    simp [compactMember, literal, Text.literalChars]
  rw [htext]
  exact .mk [] [] _ _ allBlank_nil allBlank_nil hkey hvalue

/-- An object is rendered on one line if each of its values can be read by itself. -/
theorem renders_compact (members : List (String × Json))
    (h : ∀ member ∈ members, Writable depthLimit member.2) :
    Renders members (Json.object members).compact.toList := by
  have hmembers : WritesMembers members (separated [] compactMember members) := by
    induction members with
    | nil => exact .none [] allBlank_nil
    | cons first others ih =>
      rw [List.forall_mem_cons] at h
      have hfirst := writesMember_compact first h.1
      cases others with
      | nil => simpa [separated] using WritesMembers.last first _ hfirst
      | cons second others =>
        rw [separated_cons_cons]
        exact .more first second others _ _ hfirst (ih h.2)
  refine ⟨[], _, [], allBlank_nil, allBlank_nil, hmembers, ?_⟩
  simp [compact, compactChars, compactMembers_eq]

end Rubric.Json
