import Mathlib.Data.List.DropRight
import Mathlib.Data.List.TakeWhile
import Rubric.Proofs.ViolationsInJson

/-!
What the reader of violations has gone through. It takes a value apart while it reads it, and
judges the tag as soon as it is met. Where it succeeds, the text is a JSON text: the members of an
object are those that it has seen, the tag among them once, and a list of a tag and one item is
read as any list of the two. Both readers walk with fuel of their own, so the fuel is shown to be
enough on either side.
-/
namespace Rubric

open Schema

namespace Json

theorem readValue_skipBlanks (depth : Nat) (s : List Char) :
    readValue depth (skipBlanks s) = readValue depth s := by
  have hidempotent : skipBlanks (skipBlanks s) = skipBlanks s :=
    List.dropWhile_idempotent isBlank s
  unfold readValue
  rw [hidempotent]

theorem readValue_of_readString (depth : Nat) (s t rest : List Char) (text : String)
    (hs : skipBlanks s = '"' :: t) (h : readString t = .ok (text, rest)) :
    readValue depth s = .ok (.string text, rest) := by
  rw [← readValue_skipBlanks, hs, readValue_quote, h]
  rfl

theorem readMember_of_readValue (value : List Char → Read Json) (s t u rest : List Char)
    (name : String) (json : Json) (hkey : readKey s = .ok (name, t))
    (hcolon : readColon t = .ok ((), u)) (hvalue : value u = .ok (json, rest)) :
    readMember value s = .ok ((name, json), rest) := by
  simp only [readMember, hkey, hcolon, hvalue]

namespace Brackets

variable {α : Type} (brackets : Brackets) (item : List Char → Read α)

/-- Fuel for one step more than there are items is enough. -/
theorem items_of_length_lt (fuel more : Nat) (first : Bool) (s rest : List Char) (xs : List α)
    (h : brackets.items item fuel first s = .ok (xs, rest)) (hmore : xs.length < more) :
    brackets.items item more first s = .ok (xs, rest) := by
  induction xs generalizing fuel more first s with
  | nil =>
    obtain ⟨more, rfl⟩ := Nat.exists_eq_add_one.mpr hmore
    obtain ⟨-, -, hnext⟩ := items_eq_ok_nil _ _ _ _ _ _ h
    exact items_done item more first s rest hnext
  | cons x xs ih =>
    obtain ⟨more, rfl⟩ := Nat.exists_eq_add_one.mpr (Nat.zero_lt_of_lt hmore)
    obtain ⟨less, start, after, -, hnext, hitem, hrest⟩ := items_eq_ok_cons _ _ _ _ _ _ _ _ h
    exact items_item item more first s start after rest x xs hnext hitem
      (ih less more false after hrest (Nat.lt_of_succ_lt_succ hmore))

theorem items_nil (fuel : Nat) (first : Bool) :
    brackets.items item fuel first [] = .error (.at brackets.unfinished []) := by
  cases fuel <;> rfl

theorem next_first_eq_item (s start : List Char) (h : brackets.next true s = .ok (.item start)) :
    start = skipBlanks s := by
  unfold next at h
  split at h
  · simp at h
  · next c rest hs =>
    split at h
    · simp at h
    · rw [hs]
      simpa using h.symm

end Brackets

end Json

namespace Violation

/-! Reading a tag -/

theorem Tag.name_eq_of_decode (name : String) (tag : Tag)
    (h : Tag.names.decode name = .ok tag) : name = tag.name := by
  unfold Names.decode at h
  split at h
  · next found hfound =>
    obtain rfl := Except.ok.inj h
    have hname : (found.name == name) = true :=
      List.find?_some (p := fun other : Tag => other.name == name) hfound
    exact (beq_iff_eq.mp hname).symm
  · simp at h

theorem scalar_eq_ok (wanted : Wanted) (s rest : List Char) (value : Json)
    (h : scalar wanted s = .ok (value, rest)) : Json.readValue 0 s = .ok (value, rest) := by
  unfold scalar at h
  split at h
  · simp at h
  · simp at h
  · unfold ofRead at h
    split at h
    · next step hread =>
      rw [← Json.readValue_skipBlanks, hread, Except.ok.inj h]
    · simp at h

/-- A tag was read from a string that is its name. -/
theorem readTag_eq_ok (s rest : List Char) (tag : Tag) (h : readTag s = .ok (tag, rest)) :
    ∃ t, Json.skipBlanks s = '"' :: t ∧ Json.readString t = .ok (tag.name, rest) := by
  unfold readTag at h
  split at h
  · simp at h
  · next name after hscalar =>
    split at h
    · next found hfound =>
      obtain ⟨rfl, rfl⟩ := Prod.mk.inj (Except.ok.inj h)
      obtain rfl := Tag.name_eq_of_decode name found hfound
      exact Json.readFrom_of_readValue 0 s after _ (scalar_eq_ok _ _ _ _ hscalar)
    · simp at h
  · simp at h

/-! Reading an object -/

def Tag.member (tag : Tag) : String × Json := ("_tag", .string tag.name)

/-- What one step of the reader can do: stop at the bracket, keep a member, or take the tag. -/
theorem readMembers_step (fuel : Nat) (first : Bool) (tag : Option Tag)
    (found : List (String × Json)) (s rest : List Char)
    (result : Option Tag × List (String × Json))
    (h : readMembers (fuel + 1) first tag found s = .ok (result, rest)) :
    (Json.Brackets.object.next first s = .ok (.done rest) ∧ result = (tag, found)) ∨
    ∃ start member after, Json.Brackets.object.next first s = .ok (.item start) ∧
      Json.readMember (Json.readValue innerDepth) start = .ok (member, after) ∧
      ((member.1 ≠ "_tag" ∧
          readMembers fuel false tag (found ++ [member]) after = .ok (result, rest)) ∨
        ∃ read : Tag, tag = none ∧ member = read.member ∧
          readMembers fuel false (some read) found after = .ok (result, rest)) := by
  rw [readMembers] at h
  split at h
  · simp at h
  · next last hnext =>
    obtain ⟨rfl, rfl⟩ := Prod.mk.inj (Except.ok.inj h)
    exact .inl ⟨hnext, rfl⟩
  · next start hnext =>
    split at h
    · simp at h
    · next name t hkey =>
      split at h
      · simp at h
      · next hrepeated =>
        split at h
        · simp at h
        · next u hcolon =>
          split at h
          · next hname =>
            subst hname
            split at h
            · simp at h
            · next read after hread =>
              obtain ⟨v, hv, hstring⟩ := readTag_eq_ok u after read hread
              have hvalue := Json.readValue_of_readString innerDepth u v after _ hv hstring
              have hnone : tag = none := by simpa using hrepeated
              exact .inr ⟨start, _, after, hnext,
                Json.readMember_of_readValue _ start t u after _ _ hkey hcolon hvalue,
                .inr ⟨read, hnone, rfl, h⟩⟩
          · next hname =>
            split at h
            · simp at h
            · next value after hvalue =>
              exact .inr ⟨start, _, after, hnext,
                Json.readMember_of_readValue _ start t u after _ _ hkey hcolon hvalue,
                .inl ⟨hname, h⟩⟩

/-- The members that were seen are those of the object: the ones named as the tag gave the tag,
and the others were kept in their order. -/
theorem readMembers_eq_ok (fuel : Nat) (first : Bool) (tag known : Option Tag)
    (found members : List (String × Json)) (s rest : List Char)
    (h : readMembers fuel first tag found s = .ok ((known, members), rest)) :
    ∃ all, Json.Brackets.object.items (Json.readMember (Json.readValue innerDepth)) fuel first s =
        .ok (all, rest) ∧
      members = found ++ all.filter (fun member => member.1 ≠ "_tag") ∧
      known.toList.map Tag.member =
        tag.toList.map Tag.member ++ all.filter (fun member => member.1 = "_tag") := by
  induction fuel generalizing first tag found s with
  | zero => simp [readMembers] at h
  | succ fuel ih =>
    rcases readMembers_step fuel first tag found s rest _ h with
      ⟨hnext, hresult⟩ | ⟨start, member, after, hnext, hmember, hmore⟩
    · obtain ⟨rfl, rfl⟩ := Prod.mk.inj hresult
      exact ⟨[], Json.Brackets.items_done _ fuel first s rest hnext, by simp, by simp⟩
    · rcases hmore with ⟨hname, hrest⟩ | ⟨read, rfl, rfl, hrest⟩
      · obtain ⟨all, hitems, hmembers, htags⟩ := ih false tag _ after hrest
        refine ⟨member :: all, Json.Brackets.items_item _ fuel first s start after rest member all
          hnext hmember hitems, ?_, ?_⟩
        · rw [hmembers, List.append_assoc, List.singleton_append,
            List.filter_cons_of_pos (by simpa using hname)]
        · rw [htags, List.filter_cons_of_neg (by simpa using hname)]
      · obtain ⟨all, hitems, hmembers, htags⟩ := ih false (some read) found after hrest
        refine ⟨read.member :: all, Json.Brackets.items_item _ fuel first s start after rest _ all
          hnext hmember hitems, ?_, ?_⟩
        · rw [hmembers, List.filter_cons_of_neg (by simp [Tag.member])]
        · rw [htags, List.filter_cons_of_pos (by simp [Tag.member])]
          rfl

theorem readObject_eq_ok (s rest : List Char) (tag : Tag) (content : Content)
    (h : readObject s = .ok ((tag, content), rest)) :
    ∃ members, Json.readValue Json.depthLimit ('\x7b' :: s) = .ok (.object members, rest) ∧
      members.filter (fun member => member.1 = "_tag") = [tag.member] ∧
      content = .members (members.filter fun member => member.1 ≠ "_tag") := by
  unfold readObject at h
  split at h
  · simp at h
  · next known found last hread =>
    obtain ⟨hresult, rfl⟩ := Prod.mk.inj (Except.ok.inj h)
    obtain ⟨rfl, rfl⟩ := Prod.mk.inj hresult
    obtain ⟨members, hitems, hothers, htags⟩ := readMembers_eq_ok _ _ _ _ _ _ _ _ hread
    refine ⟨members, ?_, htags.symm, ?_⟩
    · show Json.readValue (innerDepth + 1) _ = _
      rw [Json.readValue_object, hitems]
      rfl
    · rw [hothers, List.nil_append]
  · simp at h

/-! Reading a list -/

theorem readItems_eq_ok (s rest : List Char) (tag : Tag) (content : Content)
    (h : readItems s = .ok ((tag, content), rest)) :
    ∃ start after items, Json.Brackets.list.next true s = .ok (.item start) ∧
      readTag start = .ok (tag, after) ∧
      Json.Brackets.list.items (Json.readValue innerDepth) (after.length + 1) false after =
        .ok (items, rest) ∧ content = .items items := by
  unfold readItems at h
  split at h
  · simp at h
  · simp at h
  · next start hnext =>
    split at h
    · simp at h
    · next read after hread =>
      split at h
      · simp at h
      · next items last hitems =>
        obtain ⟨hresult, rfl⟩ := Prod.mk.inj (Except.ok.inj h)
        obtain ⟨rfl, rfl⟩ := Prod.mk.inj hresult
        exact ⟨start, after, items, hnext, hread, hitems, rfl⟩

/-- A list that starts with a tag has room for an item after it: the tag alone has two quotes. -/
theorem one_lt_length_of_readTag (s start after : List Char) (tag : Tag)
    (hnext : Json.Brackets.list.next true s = .ok (.item start))
    (hread : readTag start = .ok (tag, after)) : 1 < s.length := by
  obtain ⟨t, hstart, hstring⟩ := readTag_eq_ok start after tag hread
  have hs : start.length ≤ s.length := by
    rw [Json.Brackets.next_first_eq_item _ s start hnext]
    exact List.length_dropWhile_le _ s
  have hquote : t.length + 1 ≤ start.length := by
    rw [← List.length_cons, ← hstart]
    exact List.length_dropWhile_le _ start
  have ht : t ≠ [] := by
    rintro rfl
    simp [Json.readString, Json.characters, Json.piece, Except.map] at hstring
  have hpos := List.length_pos_iff.mpr ht
  omega

/-- A tag and one item are read as a list of the two is. -/
theorem readItems_eq_ok_iff (s rest : List Char) (tag : Tag) (item : Json) :
    readItems s = .ok ((tag, .items [item]), rest) ↔
      Json.readValue Json.depthLimit ('[' :: s) =
        .ok (.array [.string tag.name, item], rest) := by
  -- The two readers give the item different fuel, and either is enough for one item.
  constructor
  · intro h
    obtain ⟨start, after, items, hnext, hread, hitems, hcontent⟩ := readItems_eq_ok _ _ _ _ h
    obtain rfl := Content.items.inj hcontent
    have hfuel := one_lt_length_of_readTag s start after tag hnext hread
    obtain ⟨t, hstart, hstring⟩ := readTag_eq_ok start after tag hread
    have hall := Json.Brackets.items_item _ s.length true s start after rest _ _ hnext
      (Json.readValue_of_readString innerDepth start t after _ hstart hstring)
      (Json.Brackets.items_of_length_lt _ _ _ _ false after rest _ hitems hfuel)
    show Json.readValue (innerDepth + 1) _ = _
    rw [Json.readValue_list, hall]
    rfl
  · intro h
    obtain ⟨inner, t, hdepth, hs, hitems⟩ := Json.readFrom_of_readValue _ _ _ _ h
    obtain rfl : inner = innerDepth := Nat.succ.inj hdepth.symm
    obtain rfl : s = t := (List.cons.inj hs).2
    obtain ⟨less, start, after, -, hnext, hstring, hrest⟩ :=
      Json.Brackets.items_eq_ok_cons _ _ _ _ _ _ _ _ hitems
    have hread := readTag_of_readValue innerDepth start after tag hstring
    have hfuel : [item].length < after.length + 1 := by
      cases after with
      | nil => simp [Json.Brackets.items_nil] at hrest
      | cons c more => simp
    have hmore := Json.Brackets.items_of_length_lt _ _ _ _ false after rest _ hrest hfuel
    simp only [readItems, hnext, hread, hmore]

/-! Reading a whole text -/

theorem parse_eq_ok_iff (text : List Char) (violation : Violation) :
    parse text = .ok violation ↔
      ∃ tag content rest, readTagged text = .ok ((tag, content), rest) ∧
        content.decode tag = .ok violation ∧ Json.skipBlanks rest = [] := by
  constructor
  · intro h
    unfold parse at h
    split at h
    · simp at h
    · next tag content rest hread =>
      split at h
      · simp at h
      · next found hdecode =>
        split at h
        · simp at h
        · next last hfinish =>
          obtain rfl := Except.ok.inj h
          obtain ⟨hrest, rfl⟩ := Json.finish_eq_ok _ _ _ hfinish
          exact ⟨tag, content, rest, hread, hdecode, hrest⟩
  · rintro ⟨tag, content, rest, hread, hdecode, hrest⟩
    simp only [parse, hread, hdecode, Json.finish, hrest]

end Violation

end Rubric
