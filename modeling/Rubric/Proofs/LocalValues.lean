import Rubric.Proofs.LocalReads
import Rubric.Proofs.TaggedReads

/-!
What a reader of JSON values takes does not depend on what comes after it. Brackets tell where they
end, so a list or an object may be followed by anything, and a value is followed as the last of
its parts is. How a value was read is said once, by the character it began with; the budget for
brackets matters to the values inside them only, so any budget that the value fits reads the same.
-/
namespace Rubric.Json

open Text

variable {α : Type}

theorem isBlank_of_skipBlanks (s rest : List Char) (c : Char) (h : skipBlanks s = c :: rest) :
    isBlank c = false := by
  have hnot := List.head?_dropWhile_not isBlank s
  rw [← skipBlanks, h] at hnot
  exact hnot

namespace Brackets

variable {brackets : Brackets}

theorem Opens.congr {start other : List Char} (h : brackets.Opens start)
    (hhead : other.head? = start.head?) : brackets.Opens other := by
  obtain ⟨c, hc, hblank, hclose⟩ := h
  exact ⟨c, hhead.trans hc, hblank, hclose⟩

inductive NextAt (brackets : Brackets) (first : Bool) : List Char → Next → Prop
  | done (gap rest : List Char) (hgap : AllBlank gap) :
      NextAt brackets first (gap ++ brackets.close :: rest) (.done rest)
  | first (gap start : List Char) (hfirst : first = true) (hgap : AllBlank gap)
      (hstart : brackets.Opens start) : NextAt brackets first (gap ++ start) (.item start)
  | later (before gap start : List Char) (hfirst : first = false) (hbefore : AllBlank before)
      (hgap : AllBlank gap) (hstart : brackets.Opens start) :
      NextAt brackets first (before ++ ',' :: (gap ++ start)) (.item start)

theorem next_eq_ok_iff (husual : brackets.Usual) (first : Bool) (s : List Char) (found : Next) :
    brackets.next first s = .ok found ↔ brackets.NextAt first s found := by
  constructor
  · intro h
    obtain ⟨gap, hgap, hs⟩ := exists_skipBlanks s
    unfold next at h
    split at h
    · simp at h
    next c more hskip =>
    have hblank := isBlank_of_skipBlanks s more c hskip
    rw [hs, hskip]
    split at h
    · next hclose =>
      rw [← Except.ok.inj h, hclose]
      exact .done gap more hgap
    next hclose =>
    split at h
    · next hfirst =>
      rw [← Except.ok.inj h]
      exact .first gap _ hfirst hgap ⟨c, rfl, hblank, hclose⟩
    next hfirst =>
    split at h
    · next hcomma =>
      split at h
      · simp at h
      next d after hafter =>
      obtain ⟨inner, hinner, hmore⟩ := exists_skipBlanks more
      split at h
      · simp at h
      next hend =>
      rw [← Except.ok.inj h, hcomma, hmore, hafter]
      exact .later gap inner _ (by simpa using hfirst) hgap hinner
        ⟨d, rfl, isBlank_of_skipBlanks more after d hafter, hend⟩
    · simp at h
  · intro h
    cases h with
    | done gap rest hgap => exact next_done husual first gap rest hgap
    | first gap start hfirst hgap hstart =>
      rw [hfirst]
      exact next_first gap start hgap hstart
    | later before gap start hfirst hbefore hgap hstart =>
      rw [hfirst]
      exact next_later husual before gap start hbefore hgap hstart

/-- Bracketed items are taken whatever follows the closing bracket. There are no more of them than
characters, since each after the first has a comma. -/
theorem items_eq_ok (husual : brackets.Usual) (item : List Char → Read α)
    (hitem : ReadsLocally item) (fuel : Nat) (first : Bool) (s rest : List Char) (xs : List α)
    (h : brackets.items item fuel first s = .ok (xs, rest)) :
    ∃ taken, s = taken ++ rest ∧ xs.length + (if first then 0 else 1) ≤ taken.length ∧
      taken ≠ [] ∧ ∀ other, brackets.items item fuel first (taken ++ other) = .ok (xs, other) := by
  induction xs generalizing fuel first s with
  | nil =>
    obtain ⟨less, rfl, hnext⟩ := items_eq_ok_nil _ _ _ _ _ _ h
    cases (next_eq_ok_iff husual first s _).mp hnext with
    | done gap _ hgap =>
      refine ⟨gap ++ [brackets.close], by simp, ?_, by simp, ?_⟩
      · rw [List.length_append, List.length_singleton, List.length_nil]
        split <;> omega
      · intro other
        rw [List.append_assoc, List.singleton_append]
        exact items_done item less first _ other (next_done husual first gap other hgap)
  | cons x xs ih =>
    obtain ⟨less, start, after, rfl, hnext, hx, hrest⟩ := items_eq_ok_cons _ _ _ _ _ _ _ _ h
    obtain ⟨tail, rfl, hlength, htail, hothers⟩ := ih less false after hrest
    obtain ⟨head, rfl, hhead⟩ := hitem start x _ hx
    -- Something of the list is left after the item, so the item is followed as it was.
    have hsame (other : List Char) : (tail ++ other).head? = (tail ++ rest).head? := by
      obtain ⟨c, more, rfl⟩ := List.exists_cons_of_ne_nil htail
      rfl
    have hopens (other : List Char) (hstart : brackets.Opens (head ++ (tail ++ rest))) :
        brackets.Opens (head ++ (tail ++ other)) := by
      apply hstart.congr
      cases head with
      | nil => exact hsame other
      | cons c head => rfl
    cases (next_eq_ok_iff husual first s _).mp hnext with
    | first gap _ hfirst hgap hstart =>
      refine ⟨gap ++ (head ++ tail), by simp only [List.append_assoc], ?_, by simp [htail], ?_⟩
      · simp only [List.length_append, List.length_cons, hfirst, if_true, Bool.false_eq_true,
          if_false] at hlength ⊢
        omega
      · intro other
        rw [List.append_assoc, List.append_assoc, hfirst]
        exact items_item item less true _ _ _ other x xs
          (next_first gap _ hgap (hopens other hstart)) (hhead _ (Or.inl (hsame other)))
          (hothers other)
    | later before gap _ hfirst hbefore hgap hstart =>
      refine ⟨before ++ ',' :: (gap ++ (head ++ tail)), by simp, ?_, by simp, ?_⟩
      · simp only [List.length_append, List.length_cons, hfirst, Bool.false_eq_true,
          if_false] at hlength ⊢
        omega
      · intro other
        rw [List.append_assoc, List.cons_append, List.append_assoc, List.append_assoc, hfirst]
        exact items_item item less false _ _ _ other x xs
          (next_later husual before gap _ hbefore hgap (hopens other hstart))
          (hhead _ (Or.inl (hsame other))) (hothers other)

/-- The length of the text is fuel enough. -/
theorem items_of_items (husual : brackets.Usual) (item : List Char → Read α)
    (hitem : ReadsLocally item) (fuel : Nat) (s rest : List Char) (xs : List α)
    (h : brackets.items item fuel true s = .ok (xs, rest)) :
    brackets.items item (s.length + 1) true s = .ok (xs, rest) := by
  obtain ⟨taken, rfl, hlength, -, -⟩ := items_eq_ok husual item hitem _ _ _ _ _ h
  apply items_of_length_lt _ _ _ _ _ _ _ _ h
  rw [List.length_append]
  simp only [if_true] at hlength
  omega

theorem selfDelimiting_items (husual : brackets.Usual) (item : List Char → Read α)
    (hitem : ReadsLocally item) :
    SelfDelimiting fun s => brackets.items item (s.length + 1) true s := by
  intro s xs rest h
  obtain ⟨taken, rfl, -, -, htaken⟩ := items_eq_ok husual item hitem _ _ _ _ _ h
  refine ⟨taken, rfl, ?_⟩
  intro other
  exact items_of_items husual item hitem _ _ other xs (htaken other)

end Brackets

theorem readsLocally_readMember (value : List Char → Read Json) (h : ReadsLocally value) :
    ReadsLocally (readMember value) := by
  intro s member rest hread
  obtain ⟨name, json⟩ := member
  obtain ⟨t, u, hkey, hcolon, hvalue⟩ := readMember_eq_ok value s rest name json hread
  obtain ⟨third, rfl, hthird⟩ := h u json rest hvalue
  obtain ⟨second, rfl, hsecond⟩ := selfDelimiting_readColon t () _ hcolon
  obtain ⟨first, rfl, hfirst⟩ := selfDelimiting_readKey s name _ hkey
  refine ⟨first ++ (second ++ third), by simp only [List.append_assoc], ?_⟩
  intro other hother
  rw [List.append_assoc, List.append_assoc]
  exact readMember_of_readValue value _ _ _ other name json (hfirst _) (hsecond _)
    (hthird other hother)

/-! Values -/

theorem readValue_of_readsAs (depth : Nat) (s rest : List Char) (value : Json)
    (h : ReadsAs depth s value rest) : readValue depth s = .ok (value, rest) := by
  cases h with
  | string s _ text h =>
    rw [readValue_quote, h]
    rfl
  | list inner s _ items hdepth h =>
    rw [hdepth, readValue_list, h]
    rfl
  | object inner s _ members hdepth h =>
    rw [hdepth, readValue_object, h]
    rfl
  | word word _ _ h =>
    unfold readValue
    rcases (mem_words_iff word value).mp h with ⟨rfl, rfl⟩ | ⟨rfl, rfl⟩ | ⟨rfl, rfl⟩ <;> rfl
  | negative s _ number h =>
    unfold readValue
    rw [skipBlanks_cons '-' s rfl]
    simp [h, Except.map]
  | number c s _ number hc h =>
    have hne (d : Char) (hd : isDigit d = false) : c ≠ d := by
      intro heq
      rw [heq, hd] at hc
      exact Bool.false_ne_true hc
    have hblank : isBlank c = false := by
      simp [isBlank, hne ' ' rfl, hne '\n' rfl, hne '\t' rfl, hne '\r' rfl]
    unfold readValue
    rw [skipBlanks_cons c s hblank]
    simp only [if_neg (hne '"' rfl), if_neg (hne '[' rfl), if_neg (hne '\x7b' rfl),
      if_neg (hne 'n' rfl), if_neg (hne 't' rfl), if_neg (hne 'f' rfl), if_neg (hne '-' rfl),
      if_pos hc, h]
    rfl

theorem readValue_eq_ok_iff (depth : Nat) (s rest : List Char) (value : Json) :
    readValue depth s = .ok (value, rest) ↔ ReadsAs depth (skipBlanks s) value rest := by
  constructor
  · exact readsAs_of_readValue depth s rest value
  · intro h
    rw [← readValue_skipBlanks]
    exact readValue_of_readsAs depth _ rest value h

/-- What is taken as a value from its first character on, given that for the values inside it. -/
theorem ReadsAs.locally {depth : Nat} {s rest : List Char} {value : Json}
    (h : ReadsAs depth s value rest)
    (hinner : ∀ inner, depth = inner + 1 → ReadsLocally (readValue inner)) :
    ∃ taken, s = taken ++ rest ∧
      ∀ other, StandsFor other rest → ReadsAs depth (taken ++ other) value other := by
  cases h with
  | string s _ text h =>
    obtain ⟨taken, rfl, htaken⟩ := selfDelimiting_readString s text rest h
    exact ⟨'"' :: taken, rfl, fun other _ => .string _ other text (htaken other)⟩
  | list inner s _ items hdepth h =>
    obtain ⟨taken, rfl, htaken⟩ :=
      Brackets.selfDelimiting_items (Or.inl rfl) _ (hinner inner hdepth) s items rest h
    exact ⟨'[' :: taken, rfl, fun other _ => .list inner _ other items hdepth (htaken other)⟩
  | object inner s _ members hdepth h =>
    obtain ⟨taken, rfl, htaken⟩ := Brackets.selfDelimiting_items (Or.inr rfl) _
      (readsLocally_readMember _ (hinner inner hdepth)) s members rest h
    exact ⟨'\x7b' :: taken, rfl,
      fun other _ => .object inner _ other members hdepth (htaken other)⟩
  | word word _ _ h => exact ⟨word, rfl, fun other _ => .word word value other h⟩
  | negative s _ number h =>
    obtain ⟨taken, rfl, htaken⟩ := readsLocally_readNumber true s number rest h
    exact ⟨'-' :: taken, rfl, fun other hother => .negative _ other number (htaken other hother)⟩
  | number c s _ number hc h =>
    obtain ⟨taken, hs, htaken⟩ := readsLocally_readNumber false (c :: s) number rest h
    cases taken with
    | nil =>
      -- Nothing would be a number then, but an empty text is none.
      have hnone : readNumber false [] = .ok (number, []) := htaken [] (Or.inr nofun)
      exact nomatch hnone
    | cons d taken =>
      obtain ⟨rfl, rfl⟩ := List.cons.inj hs
      exact ⟨c :: taken, rfl,
        fun other hother => .number c _ other number hc (htaken other hother)⟩

theorem readsLocally_readValue (depth : Nat) : ReadsLocally (readValue depth) := by
  induction depth using Nat.strongRecOn with
  | ind depth ih =>
    intro s value rest h
    obtain ⟨gap, hgap, hs⟩ := exists_skipBlanks s
    have hread := (readValue_eq_ok_iff depth s rest value).mp h
    obtain ⟨taken, htaken, hothers⟩ := hread.locally fun inner hinner => ih inner (by omega)
    refine ⟨gap ++ taken, by rw [List.append_assoc, ← htaken, ← hs], ?_⟩
    intro other hother
    rw [List.append_assoc, readValue_gap depth gap _ hgap]
    exact readValue_of_readsAs depth _ other value (hothers other hother)

/-! Nesting -/

/-- Values in which at most so many brackets enclose each other. -/
inductive NestsWithin : Nat → Json → Prop
  | null (depth : Nat) : NestsWithin depth .null
  | bool (depth : Nat) (value : Bool) : NestsWithin depth (.bool value)
  | number (depth : Nat) (value : Number) : NestsWithin depth (.number value)
  | string (depth : Nat) (value : String) : NestsWithin depth (.string value)
  | array (depth : Nat) (items : List Json) (h : ∀ item ∈ items, NestsWithin depth item) :
      NestsWithin (depth + 1) (.array items)
  | object (depth : Nat) (members : List (String × Json))
      (h : ∀ member ∈ members, NestsWithin depth member.2) :
      NestsWithin (depth + 1) (.object members)

theorem NestsWithin.succ {depth : Nat} {value : Json} (h : NestsWithin depth value) :
    NestsWithin (depth + 1) value := by
  induction h with
  | null => exact .null _
  | bool _ value => exact .bool _ value
  | number _ value => exact .number _ value
  | string _ value => exact .string _ value
  | array depth items _ ih => exact .array _ items ih
  | object depth members _ ih => exact .object _ members ih

theorem NestsWithin.of_subset {depth : Nat} {members kept : List (String × Json)}
    (h : NestsWithin depth (.object members)) (hkept : kept ⊆ members) :
    NestsWithin depth (.object kept) := by
  cases h with
  | object inner _ h => exact .object inner kept fun member hmember => h member (hkept hmember)

/-- Every item was read by the reader of items, from somewhere in the text. -/
theorem Brackets.exists_of_mem_items (brackets : Brackets) (item : List Char → Read α) (fuel : Nat)
    (first : Bool) (s rest : List Char) (xs : List α)
    (h : brackets.items item fuel first s = .ok (xs, rest)) (x : α) (hx : x ∈ xs) :
    ∃ start after, item start = .ok (x, after) := by
  induction xs generalizing fuel first s with
  | nil => exact absurd hx List.not_mem_nil
  | cons y xs ih =>
    obtain ⟨less, start, after, -, -, hy, hrest⟩ := items_eq_ok_cons _ _ _ _ _ _ _ _ h
    rcases List.mem_cons.mp hx with rfl | hx
    · exact ⟨start, after, hy⟩
    · exact ih less false after hrest hx

/-- Another reader that takes every item alike takes all of them alike. -/
theorem Brackets.items_congr (brackets : Brackets) (item other : List Char → Read α) (fuel : Nat)
    (first : Bool) (s rest : List Char) (xs : List α)
    (h : brackets.items item fuel first s = .ok (xs, rest))
    (hitem : ∀ x ∈ xs, ∀ start after, item start = .ok (x, after) → other start = .ok (x, after)) :
    brackets.items other fuel first s = .ok (xs, rest) := by
  induction xs generalizing fuel first s with
  | nil =>
    obtain ⟨less, rfl, hnext⟩ := items_eq_ok_nil _ _ _ _ _ _ h
    exact items_done other less first s rest hnext
  | cons x xs ih =>
    obtain ⟨less, start, after, rfl, hnext, hx, hrest⟩ := items_eq_ok_cons _ _ _ _ _ _ _ _ h
    exact items_item other less first s start after rest x xs hnext
      (hitem x List.mem_cons_self start after hx)
      (ih less false after hrest fun y hy => hitem y (List.mem_cons_of_mem x hy))

theorem nestsWithin_of_readValue (depth : Nat) (s rest : List Char) (value : Json)
    (h : readValue depth s = .ok (value, rest)) : NestsWithin depth value := by
  induction depth using Nat.strongRecOn generalizing s rest value with
  | ind depth ih =>
    have hread := (readValue_eq_ok_iff depth s rest value).mp h
    generalize skipBlanks s = t at hread
    cases hread with
    | string => exact .string depth _
    | list inner t _ items hdepth hitems =>
      rw [hdepth]
      apply NestsWithin.array
      intro item hitem
      obtain ⟨start, after, hstart⟩ := Brackets.exists_of_mem_items _ _ _ _ _ _ _ hitems item hitem
      exact ih inner (by omega) start after item hstart
    | object inner t _ members hdepth hmembers =>
      rw [hdepth]
      apply NestsWithin.object
      intro member hmember
      obtain ⟨start, after, hstart⟩ :=
        Brackets.exists_of_mem_items _ _ _ _ _ _ _ hmembers member hmember
      obtain ⟨-, u, -, -, hvalue⟩ := readMember_eq_ok _ _ _ member.1 member.2 hstart
      exact ih inner (by omega) u after member.2 hvalue
    | word word _ _ hword =>
      rcases (mem_words_iff word value).mp hword with ⟨-, rfl⟩ | ⟨-, rfl⟩ | ⟨-, rfl⟩
      · exact .null depth
      · exact .bool depth true
      · exact .bool depth false
    | negative => exact .number depth _
    | number => exact .number depth _

/-- Any budget for brackets that is enough for a value reads it alike. -/
theorem readValue_of_nestsWithin (depth enough : Nat) (s rest : List Char) (value : Json)
    (h : readValue depth s = .ok (value, rest)) (henough : NestsWithin enough value) :
    readValue enough s = .ok (value, rest) := by
  induction depth using Nat.strongRecOn generalizing enough s rest value with
  | ind depth ih =>
    rw [readValue_eq_ok_iff] at h ⊢
    generalize skipBlanks s = t at h ⊢
    cases h with
    | string t _ text h => exact .string t rest text h
    | list inner t _ items hdepth hitems =>
      cases henough with
      | array less _ hless =>
        refine .list less t rest items rfl ?_
        apply Brackets.items_congr _ _ _ _ _ _ _ _ hitems
        intro item hitem start after hstart
        exact ih inner (by omega) less start after item hstart (hless item hitem)
    | object inner t _ members hdepth hmembers =>
      cases henough with
      | object less _ hless =>
        refine .object less t rest members rfl ?_
        apply Brackets.items_congr _ _ _ _ _ _ _ _ hmembers
        intro member hmember start after hstart
        obtain ⟨u, v, hkey, hcolon, hvalue⟩ := readMember_eq_ok _ _ _ member.1 member.2 hstart
        exact readMember_of_readValue _ start u v after _ _ hkey hcolon
          (ih inner (by omega) less v after member.2 hvalue (hless member hmember))
    | word word _ _ hword => exact .word word value rest hword
    | negative t _ number h => exact .negative t rest number h
    | number c t _ number hc h => exact .number c t rest number hc h

end Rubric.Json
