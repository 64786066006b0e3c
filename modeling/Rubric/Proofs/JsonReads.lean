import Rubric.Json.Reader

/-!
What a successful read of JSON has gone through. A value that was read tells by its form which
character it began with and which reader took the rest, bracketed items were read one by one, and
a member was read as a key, a colon and a value.
-/
namespace Rubric.Json

open Text

variable {α β : Type}

/-- A value made from what was read leaves what the reader left. -/
theorem map_eq_ok {make : α → β} {result : Read α} {value : β} {rest : List Char}
    (h : (result.map fun step => (make step.1, step.2)) = .ok (value, rest)) :
    ∃ x, result = .ok (x, rest) ∧ make x = value := by
  cases result with
  | error fault => simp [Except.map] at h
  | ok step =>
    obtain ⟨hvalue, rfl⟩ := Prod.mk.inj (Except.ok.inj h)
    exact ⟨step.1, rfl, hvalue⟩

theorem readWord_eq_ok_iff (value found : α) (word s rest : List Char) :
    readWord value word s = .ok (found, rest) ↔ found = value ∧ s = word ++ rest := by
  induction word generalizing s with
  | nil =>
    rw [readWord]
    simp [eq_comm]
  | cons c cs ih =>
    cases s with
    | nil => simp [readWord]
    | cons d s =>
      rw [readWord]
      by_cases hd : c = d
      · rw [if_pos hd, ih, List.cons_append, List.cons.injEq, hd]
        simp
      · rw [if_neg hd, List.cons_append, List.cons.injEq]
        simp [Ne.symm hd]

def words : List (List Char × Json) :=
  [(['n', 'u', 'l', 'l'], .null), (['t', 'r', 'u', 'e'], .bool true),
    (['f', 'a', 'l', 's', 'e'], .bool false)]

theorem mem_words_iff (word : List Char) (value : Json) :
    (word, value) ∈ words ↔ (word = ['n', 'u', 'l', 'l'] ∧ value = .null) ∨
      (word = ['t', 'r', 'u', 'e'] ∧ value = .bool true) ∨
      (word = ['f', 'a', 'l', 's', 'e'] ∧ value = .bool false) := by
  simp [words]

inductive ReadsAs (depth : Nat) : List Char → Json → List Char → Prop
  | string (s rest : List Char) (text : String) (h : readString s = .ok (text, rest)) :
      ReadsAs depth ('"' :: s) (.string text) rest
  | list (inner : Nat) (s rest : List Char) (items : List Json) (hdepth : depth = inner + 1)
      (h : Brackets.list.items (readValue inner) (s.length + 1) true s = .ok (items, rest)) :
      ReadsAs depth ('[' :: s) (.array items) rest
  | object (inner : Nat) (s rest : List Char) (members : List (String × Json))
      (hdepth : depth = inner + 1)
      (h : Brackets.object.items (readMember (readValue inner)) (s.length + 1) true s =
        .ok (members, rest)) :
      ReadsAs depth ('\x7b' :: s) (.object members) rest
  | word (word : List Char) (value : Json) (rest : List Char) (h : (word, value) ∈ words) :
      ReadsAs depth (word ++ rest) value rest
  | negative (s rest : List Char) (number : Number) (h : readNumber true s = .ok (number, rest)) :
      ReadsAs depth ('-' :: s) (.number number) rest
  | number (c : Char) (s rest : List Char) (number : Number) (hc : isDigit c = true)
      (h : readNumber false (c :: s) = .ok (number, rest)) :
      ReadsAs depth (c :: s) (.number number) rest

theorem readsAs_of_readValue (depth : Nat) (s rest : List Char) (value : Json)
    (h : readValue depth s = .ok (value, rest)) : ReadsAs depth (skipBlanks s) value rest := by
  unfold readValue at h
  split at h
  · simp at h
  next c t hs =>
  rw [hs]
  -- The cases come in the order in which the reader tries the first character.
  split at h
  · next hc =>
    obtain ⟨text, hread, rfl⟩ := map_eq_ok h
    rw [hc]
    exact .string t rest text hread
  split at h
  · next hc =>
    split at h
    · simp at h
    next inner =>
    obtain ⟨items, hread, rfl⟩ := map_eq_ok h
    rw [hc]
    exact .list inner t rest items rfl hread
  split at h
  · next hc =>
    split at h
    · simp at h
    next inner =>
    obtain ⟨members, hread, rfl⟩ := map_eq_ok h
    rw [hc]
    exact .object inner t rest members rfl hread
  split at h
  · next hc =>
    obtain ⟨rfl, rfl⟩ := (readWord_eq_ok_iff _ _ _ _ _).mp h
    rw [hc]
    exact .word ['n', 'u', 'l', 'l'] .null rest (by simp [words])
  split at h
  · next hc =>
    obtain ⟨rfl, rfl⟩ := (readWord_eq_ok_iff _ _ _ _ _).mp h
    rw [hc]
    exact .word ['t', 'r', 'u', 'e'] (.bool true) rest (by simp [words])
  split at h
  · next hc =>
    obtain ⟨rfl, rfl⟩ := (readWord_eq_ok_iff _ _ _ _ _).mp h
    rw [hc]
    exact .word ['f', 'a', 'l', 's', 'e'] (.bool false) rest (by simp [words])
  split at h
  · next hc =>
    obtain ⟨number, hread, rfl⟩ := map_eq_ok h
    rw [hc]
    exact .negative t rest number hread
  split at h
  · next hc =>
    obtain ⟨number, hread, rfl⟩ := map_eq_ok h
    exact .number c t rest number hc hread
  · simp at h

/-- How a value was read from a text: what it began with, and what the reader of its form took. -/
def ReadFrom (depth : Nat) (s rest : List Char) : Json → Prop
  | .string text => ∃ t, skipBlanks s = '"' :: t ∧ readString t = .ok (text, rest)
  | .array items => ∃ inner t, depth = inner + 1 ∧ skipBlanks s = '[' :: t ∧
      Brackets.list.items (readValue inner) (t.length + 1) true t = .ok (items, rest)
  | .object members => ∃ inner t, depth = inner + 1 ∧ skipBlanks s = '\x7b' :: t ∧
      Brackets.object.items (readMember (readValue inner)) (t.length + 1) true t =
        .ok (members, rest)
  | _ => True

theorem readFrom_of_readValue (depth : Nat) (s rest : List Char) (value : Json)
    (h : readValue depth s = .ok (value, rest)) : ReadFrom depth s rest value := by
  have hread := readsAs_of_readValue depth s rest value h
  generalize hs : skipBlanks s = t at hread
  cases hread with
  | string t _ text h => exact ⟨t, hs, h⟩
  | list inner t _ items hdepth h => exact ⟨inner, t, hdepth, hs, h⟩
  | object inner t _ members hdepth h => exact ⟨inner, t, hdepth, hs, h⟩
  | word word _ _ h =>
    rcases (mem_words_iff word value).mp h with ⟨-, rfl⟩ | ⟨-, rfl⟩ | ⟨-, rfl⟩ <;> trivial
  | negative => trivial
  | number => trivial

/-- No items were read when the bracket closed at once. -/
theorem Brackets.items_eq_ok_nil (brackets : Brackets) (item : List Char → Read α) (fuel : Nat)
    (first : Bool) (s rest : List Char) (h : brackets.items item fuel first s = .ok ([], rest)) :
    ∃ less, fuel = less + 1 ∧ brackets.next first s = .ok (.done rest) := by
  cases fuel with
  | zero => simp [items] at h
  | succ less =>
    rw [items] at h
    split at h
    · simp at h
    · next after hnext =>
      rw [← (Prod.mk.inj (Except.ok.inj h)).2]
      exact ⟨less, rfl, hnext⟩
    · split at h
      · simp at h
      · split at h <;> simp at h

/-- One item was read, and the others after it. -/
theorem Brackets.items_eq_ok_cons (brackets : Brackets) (item : List Char → Read α) (fuel : Nat)
    (first : Bool) (s rest : List Char) (x : α) (xs : List α)
    (h : brackets.items item fuel first s = .ok (x :: xs, rest)) :
    ∃ less start after, fuel = less + 1 ∧ brackets.next first s = .ok (.item start) ∧
      item start = .ok (x, after) ∧ brackets.items item less false after = .ok (xs, rest) := by
  cases fuel with
  | zero => simp [items] at h
  | succ less =>
    rw [items] at h
    split at h
    · simp at h
    · simp at h
    · next start hnext =>
      split at h
      · simp at h
      · next y after hitem =>
        split at h
        · simp at h
        · next ys last hrest =>
          obtain ⟨hitems, rfl⟩ := Prod.mk.inj (Except.ok.inj h)
          obtain ⟨rfl, rfl⟩ := List.cons.inj hitems
          exact ⟨less, start, after, rfl, hnext, hitem, hrest⟩

theorem readMember_eq_ok (value : List Char → Read Json) (s rest : List Char) (name : String)
    (json : Json) (h : readMember value s = .ok ((name, json), rest)) :
    ∃ t u, readKey s = .ok (name, t) ∧ readColon t = .ok ((), u) ∧ value u = .ok (json, rest) := by
  unfold readMember at h
  split at h
  · simp at h
  · next key t hkey =>
    split at h
    · simp at h
    · next u hcolon =>
      split at h
      · simp at h
      · next found last hvalue =>
        obtain ⟨hmember, rfl⟩ := Prod.mk.inj (Except.ok.inj h)
        obtain ⟨rfl, rfl⟩ := Prod.mk.inj hmember
        exact ⟨t, u, hkey, hcolon, hvalue⟩

/-- A text is read to its end, blanks apart. -/
theorem finish_eq_ok (result found : α) (s : List Char) (h : finish result s = .ok found) :
    skipBlanks s = [] ∧ result = found := by
  unfold finish at h
  split at h
  · next hnone => exact ⟨hnone, Except.ok.inj h⟩
  · simp at h

theorem parse_eq_ok (text : List Char) (value : Json) (h : parse text = .ok value) :
    ∃ rest, readValue depthLimit text = .ok (value, rest) ∧ skipBlanks rest = [] := by
  unfold parse at h
  split at h
  · simp at h
  · next found rest hread =>
    obtain ⟨hrest, rfl⟩ := finish_eq_ok _ _ _ h
    exact ⟨rest, hread, hrest⟩

end Rubric.Json
