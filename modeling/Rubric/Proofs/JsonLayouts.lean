import Rubric.Json.Printer
import Rubric.Json.Reader
import Rubric.Proofs.EscapedText

/-!
Written JSON is read back. Both layouts put items between brackets with a comma after each but the
last and blanks around them, so one lemma about bracketed items serves lists and objects in either
layout. Values without numbers are read back from both, as long as they nest no deeper than the
reader allows.
-/
namespace Rubric.Json

open Text

def AllBlank (s : List Char) : Prop := ∀ c ∈ s, isBlank c = true

theorem allBlank_nil : AllBlank [] := nofun

theorem allBlank_newline (level : Nat) : AllBlank (newline level) := by
  intro c hc
  rcases List.mem_cons.mp hc with rfl | hc
  · rfl
  · rw [(List.mem_replicate.mp hc).2]
    rfl

theorem skipBlanks_append (gap s : List Char) (h : AllBlank gap) :
    skipBlanks (gap ++ s) = skipBlanks s :=
  List.dropWhile_append_of_pos h

theorem skipBlanks_cons (c : Char) (s : List Char) (h : isBlank c = false) :
    skipBlanks (c :: s) = c :: s := by
  simp [skipBlanks, h]

def StartsItem (text : List Char) : Prop :=
  ∃ c rest, text = c :: rest ∧ isBlank c = false ∧ c ≠ ']' ∧ c ≠ '\x7d'

/-- A reader takes a text as a value, whatever follows. -/
structure Takes {α : Type} (read : List Char → Read α) (text : List Char) (value : α) : Prop where
  starts : StartsItem text
  reads : ∀ rest, read (text ++ rest) = .ok (value, rest)

def separated {α : Type} (gap : List Char) (text : α → List Char) : List α → List Char
  | [] => []
  | first :: others => gap ++ text first ++ others.flatMap fun x => ',' :: (gap ++ text x)

theorem separated_cons_cons {α : Type} (gap : List Char) (text : α → List Char) (first second : α)
    (others : List α) :
    separated gap text (first :: second :: others) =
      gap ++ text first ++ ',' :: separated gap text (second :: others) := by
  simp [separated]

theorem length_le_separated {α : Type} (gap : List Char) (text : α → List Char) (items : List α)
    (h : ∀ x ∈ items, StartsItem (text x)) :
    items.length ≤ (separated gap text items).length := by
  induction items with
  | nil => exact Nat.le_refl 0
  | cons first others ih =>
    obtain ⟨c, rest, htext, -⟩ := h first List.mem_cons_self
    have hothers := ih fun x hx => h x (List.mem_cons_of_mem first hx)
    cases others with
    | nil =>
      simp only [separated, htext, List.length_cons, List.length_append, List.length_nil]
      omega
    | cons second others =>
      rw [separated_cons_cons]
      simp only [List.length_cons, List.length_append] at hothers ⊢
      omega

namespace Brackets

variable {brackets : Brackets} {α : Type}

def Usual (brackets : Brackets) : Prop := brackets.close = ']' ∨ brackets.close = '\x7d'

theorem Usual.ne_close (h : brackets.Usual) (c : Char) (hlist : c ≠ ']') (hobject : c ≠ '\x7d') :
    c ≠ brackets.close := by
  rcases h with h | h <;> rw [h] <;> assumption

theorem Usual.isBlank_close (h : brackets.Usual) : isBlank brackets.close = false := by
  rcases h with h | h <;> rw [h] <;> rfl

def Opens (brackets : Brackets) (start : List Char) : Prop :=
  ∃ c, start.head? = some c ∧ isBlank c = false ∧ c ≠ brackets.close

theorem Usual.opens (h : brackets.Usual) (text rest : List Char) (htext : StartsItem text) :
    brackets.Opens (text ++ rest) := by
  obtain ⟨c, more, rfl, hblank, hlist, hobject⟩ := htext
  exact ⟨c, rfl, hblank, h.ne_close c hlist hobject⟩

theorem next_first (gap start : List Char) (hgap : AllBlank gap) (hstart : brackets.Opens start) :
    brackets.next true (gap ++ start) = .ok (.item start) := by
  obtain ⟨c, hhead, hblank, hclose⟩ := hstart
  obtain ⟨more, rfl⟩ := List.head?_eq_some_iff.mp hhead
  simp only [next, skipBlanks_append gap _ hgap, skipBlanks_cons c _ hblank, if_neg hclose,
    if_true]

theorem next_later (husual : brackets.Usual) (before gap start : List Char)
    (hbefore : AllBlank before) (hgap : AllBlank gap) (hstart : brackets.Opens start) :
    brackets.next false (before ++ ',' :: (gap ++ start)) = .ok (.item start) := by
  obtain ⟨c, hhead, hblank, hclose⟩ := hstart
  obtain ⟨more, rfl⟩ := List.head?_eq_some_iff.mp hhead
  have hcomma := husual.ne_close ',' (by decide) (by decide)
  simp only [next, skipBlanks_append before _ hbefore, skipBlanks_cons ',' _ rfl, if_neg hcomma,
    Bool.false_eq_true, if_false, if_true, skipBlanks_append gap _ hgap,
    skipBlanks_cons c _ hblank, if_neg hclose]

theorem next_done (husual : brackets.Usual) (first : Bool) (gap rest : List Char)
    (hgap : AllBlank gap) :
    brackets.next first (gap ++ brackets.close :: rest) = .ok (.done rest) := by
  simp only [next, skipBlanks_append gap _ hgap, skipBlanks_cons _ _ husual.isBlank_close, if_true]

theorem items_done (item : List Char → Read α) (fuel : Nat) (first : Bool) (s rest : List Char)
    (hnext : brackets.next first s = .ok (.done rest)) :
    brackets.items item (fuel + 1) first s = .ok ([], rest) := by
  simp only [items, hnext]

/-- One item, and those that follow it. -/
theorem items_item (item : List Char → Read α) (fuel : Nat) (first : Bool)
    (s start after rest : List Char) (x : α) (xs : List α)
    (hnext : brackets.next first s = .ok (.item start)) (hitem : item start = .ok (x, after))
    (hrest : brackets.items item fuel false after = .ok (xs, rest)) :
    brackets.items item (fuel + 1) first s = .ok (x :: xs, rest) := by
  simp only [items, hnext, hitem, hrest]

/-- The items after the first, up to the closing bracket. -/
theorem items_later (husual : brackets.Usual) (item : List Char → Read α) (text : α → List Char)
    (gap closing rest : List Char) (hgap : AllBlank gap) (hclosing : AllBlank closing)
    (xs : List α) (hxs : ∀ x ∈ xs, Takes item (text x) x) (fuel : Nat) (hfuel : xs.length < fuel) :
    brackets.items item fuel false
        ((xs.flatMap fun x => ',' :: (gap ++ text x)) ++ (closing ++ brackets.close :: rest)) =
      .ok (xs, rest) := by
  -- Each item takes one unit of fuel, and the closing bracket the last one.
  induction xs generalizing fuel with
  | nil =>
    obtain ⟨fuel, rfl⟩ := Nat.exists_eq_add_one.mpr hfuel
    exact items_done item fuel false _ rest (next_done husual false closing rest hclosing)
  | cons x xs ih =>
    obtain ⟨fuel, rfl⟩ := Nat.exists_eq_add_one.mpr (Nat.zero_lt_of_lt hfuel)
    rw [List.length_cons, Nat.add_lt_add_iff_right] at hfuel
    have hx := hxs x List.mem_cons_self
    have hrest := ih (fun y hy => hxs y (List.mem_cons_of_mem x hy)) fuel hfuel
    rw [List.flatMap_cons, List.cons_append, List.cons_append, List.append_assoc,
      List.append_assoc]
    exact items_item item fuel false _ _ _ rest x xs
      (next_later husual [] gap _ allBlank_nil hgap (husual.opens (text x) _ hx.starts))
      (hx.reads _) hrest

/-- Items as both layouts write them are read back, the length of the text being fuel enough. -/
theorem items_separated (husual : brackets.Usual) (item : List Char → Read α)
    (text : α → List Char) (gap closing rest : List Char) (hgap : AllBlank gap)
    (hclosing : AllBlank closing) (xs : List α) (hxs : ∀ x ∈ xs, Takes item (text x) x)
    (s : List Char) (hs : s = separated gap text xs ++ (closing ++ brackets.close :: rest)) :
    brackets.items item (s.length + 1) true s = .ok (xs, rest) := by
  have hfuel : xs.length ≤ s.length := by
    have hlength := length_le_separated gap text xs fun x hx => (hxs x hx).starts
    rw [hs, List.length_append]
    omega
  cases xs with
  | nil =>
    rw [hs]
    exact items_done item _ true _ rest (next_done husual true closing rest hclosing)
  | cons x xs =>
    have hx := hxs x List.mem_cons_self
    have hrest := items_later husual item text gap closing rest hgap hclosing xs
      (fun y hy => hxs y (List.mem_cons_of_mem x hy)) s.length hfuel
    have hopens := husual.opens (text x) ((xs.flatMap fun y => ',' :: (gap ++ text y)) ++
      (closing ++ brackets.close :: rest)) hx.starts
    have hnext := next_first gap _ hgap hopens
    rw [separated, List.append_assoc, List.append_assoc] at hs
    rw [← hs] at hnext
    exact items_item item s.length true s _ _ rest x xs hnext (hx.reads _) hrest

end Brackets

theorem readValue_gap (depth : Nat) (gap s : List Char) (hgap : AllBlank gap) :
    readValue depth (gap ++ s) = readValue depth s := by
  unfold readValue
  rw [skipBlanks_append gap s hgap]

theorem readValue_quote (depth : Nat) (s : List Char) :
    readValue depth ('"' :: s) =
      (readString s).map fun step => (.string step.1, step.2) := by
  unfold readValue
  rfl

theorem readValue_list (depth : Nat) (s : List Char) :
    readValue (depth + 1) ('[' :: s) =
      (Brackets.list.items (readValue depth) (s.length + 1) true s).map
        fun step => (.array step.1, step.2) := by
  rw [readValue]
  rfl

theorem readValue_object (depth : Nat) (s : List Char) :
    readValue (depth + 1) ('\x7b' :: s) =
      (Brackets.object.items (readMember (readValue depth)) (s.length + 1) true s).map
        fun step => (.object step.1, step.2) := by
  rw [readValue]
  rfl

theorem takes_null (depth : Nat) : Takes (readValue depth) ['n', 'u', 'l', 'l'] .null where
  starts := ⟨_, _, rfl, rfl, by decide, by decide⟩
  reads rest := by
    unfold readValue
    rfl

theorem takes_bool (depth : Nat) (value : Bool) :
    Takes (readValue depth) (compactChars (.bool value)) (.bool value) where
  starts := by
    cases value <;> exact ⟨_, _, rfl, rfl, by decide, by decide⟩
  reads rest := by
    unfold readValue
    cases value <;> rfl

theorem takes_string (depth : Nat) (value : String) :
    Takes (readValue depth) (literal value) (.string value) where
  starts := ⟨_, _, rfl, rfl, by decide, by decide⟩
  reads rest := by
    rw [literal, literalChars_append, readValue_quote, readString_literal]
    rfl

theorem takes_array (depth : Nat) (text : Json → List Char) (gap closing : List Char)
    (hgap : AllBlank gap) (hclosing : AllBlank closing) (items : List Json)
    (hitems : ∀ item ∈ items, Takes (readValue depth) (text item) item) :
    Takes (readValue (depth + 1)) ('[' :: (separated gap text items ++ (closing ++ [']'])))
      (.array items) where
  starts := ⟨_, _, rfl, rfl, by decide, by decide⟩
  reads rest := by
    rw [List.cons_append, readValue_list, List.append_assoc, List.append_assoc,
      Brackets.items_separated (Or.inl rfl) (readValue depth) text gap closing rest hgap hclosing
        items hitems (separated gap text items ++ (closing ++ ([']'] ++ rest))) rfl]
    rfl

/-- A key is read, then the colon, then the value. -/
theorem takes_member (depth : Nat) (key : String) (value : Json) (gap text : List Char)
    (hgap : AllBlank gap) (h : Takes (readValue depth) text value) :
    Takes (readMember (readValue depth)) (literal key ++ ':' :: (gap ++ text)) (key, value) where
  starts := ⟨_, _, rfl, rfl, by decide, by decide⟩
  reads rest := by
    have hcolon (s : List Char) : readColon (':' :: s) = .ok ((), s) := rfl
    rw [List.append_assoc, literal, literalChars_append]
    simp only [readMember, readKey, readString_literal, List.cons_append, hcolon,
      List.append_assoc, readValue_gap depth gap _ hgap, h.reads]

theorem takes_object (depth : Nat) (text : String × Json → List Char) (gap closing : List Char)
    (hgap : AllBlank gap) (hclosing : AllBlank closing) (members : List (String × Json))
    (hmembers : ∀ member ∈ members,
      Takes (readMember (readValue depth)) (text member) member) :
    Takes (readValue (depth + 1))
      ('\x7b' :: (separated gap text members ++ (closing ++ ['\x7d']))) (.object members) where
  starts := ⟨_, _, rfl, rfl, by decide, by decide⟩
  reads rest := by
    rw [List.cons_append, readValue_object, List.append_assoc, List.append_assoc,
      Brackets.items_separated (Or.inr rfl) (readMember (readValue depth)) text gap closing rest
        hgap hclosing members hmembers
        (separated gap text members ++ (closing ++ (['\x7d'] ++ rest))) rfl]
    rfl

/-! The layouts -/

def compactMember (member : String × Json) : List Char :=
  literal member.1 ++ ':' :: compactChars member.2

theorem compactItems_eq (items : List Json) :
    compactItems items = separated [] compactChars items := by
  induction items with
  | nil => rfl
  | cons first others ih =>
    cases others with
    | nil => simp [compactItems, separated]
    | cons second others =>
      rw [compactItems, ih, separated_cons_cons, List.nil_append]

theorem compactMembers_eq (members : List (String × Json)) :
    compactMembers members = separated [] compactMember members := by
  induction members with
  | nil => rfl
  | cons first others ih =>
    cases others with
    | nil => simp [compactMembers, separated, compactMember]
    | cons second others =>
      rw [compactMembers, ih, separated_cons_cons, List.nil_append]
      rfl

def prettyMember (level : Nat) (member : String × Json) : List Char :=
  literal member.1 ++ ':' :: ' ' :: prettyChars level member.2

theorem prettyItems_eq (level : Nat) (items : List Json) :
    prettyItems level items = separated (newline level) (prettyChars level) items := by
  induction items with
  | nil => rfl
  | cons first others ih =>
    cases others with
    | nil => simp [prettyItems, separated]
    | cons second others => rw [prettyItems, ih, separated_cons_cons]

theorem prettyMembers_eq (level : Nat) (members : List (String × Json)) :
    prettyMembers level members = separated (newline level) (prettyMember level) members := by
  induction members with
  | nil => rfl
  | cons first others ih =>
    cases others with
    | nil => simp [prettyMembers, separated, prettyMember]
    | cons second others =>
      rw [prettyMembers, ih, separated_cons_cons, prettyMember, List.append_assoc (newline level)]

/-- Values without numbers in which at most so many brackets enclose each other. -/
inductive Writable : Nat → Json → Prop
  | null (depth : Nat) : Writable depth .null
  | bool (depth : Nat) (value : Bool) : Writable depth (.bool value)
  | string (depth : Nat) (value : String) : Writable depth (.string value)
  | array (depth : Nat) (items : List Json) (h : ∀ item ∈ items, Writable depth item) :
      Writable (depth + 1) (.array items)
  | object (depth : Nat) (members : List (String × Json))
      (h : ∀ member ∈ members, Writable depth member.2) : Writable (depth + 1) (.object members)

theorem writable_strings (depth : Nat) (items : List String) :
    Writable (depth + 1) (strings items) := by
  apply Writable.array
  intro item hitem
  obtain ⟨text, -, rfl⟩ := List.mem_map.mp hitem
  exact .string depth text

theorem takes_compact (depth : Nat) (value : Json) (h : Writable depth value) :
    Takes (readValue depth) (compactChars value) value := by
  induction h with
  | null depth => exact takes_null depth
  | bool depth value => exact takes_bool depth value
  | string depth value => exact takes_string depth value
  | array depth items _ ih =>
    rw [compactChars, compactItems_eq]
    exact takes_array depth compactChars [] [] allBlank_nil allBlank_nil items ih
  | object depth members _ ih =>
    rw [compactChars, compactMembers_eq]
    exact takes_object depth compactMember [] [] allBlank_nil allBlank_nil members
      fun member h => takes_member depth member.1 member.2 [] _ allBlank_nil (ih member h)

theorem takes_pretty (depth : Nat) (value : Json) (h : Writable depth value) (level : Nat) :
    Takes (readValue depth) (prettyChars level value) value := by
  induction h generalizing level with
  | null depth => exact takes_null depth
  | bool depth value =>
    have hsame : prettyChars level (.bool value) = compactChars (.bool value) := by
      cases value <;> rfl
    rw [hsame]
    exact takes_bool depth value
  | string depth value => exact takes_string depth value
  | array depth items _ ih =>
    -- Empty brackets close at once, where others close on a line of their own.
    cases items with
    | nil => exact takes_array depth compactChars [] [] allBlank_nil allBlank_nil [] nofun
    | cons first others =>
      rw [prettyChars, prettyItems_eq, List.cons_append, List.cons_append, List.append_assoc]
      exact takes_array depth (prettyChars (level + 1)) _ _ (allBlank_newline (level + 1))
        (allBlank_newline level) _ fun item h => ih item h (level + 1)
  | object depth members _ ih =>
    cases members with
    | nil => exact takes_object depth compactMember [] [] allBlank_nil allBlank_nil [] nofun
    | cons first others =>
      have hspace : AllBlank [' '] := by simp [AllBlank, isBlank]
      rw [prettyChars, prettyMembers_eq, List.cons_append, List.cons_append, List.append_assoc]
      exact takes_object depth (prettyMember (level + 1)) _ _ (allBlank_newline (level + 1))
        (allBlank_newline level) _ fun member h =>
          takes_member depth member.1 member.2 [' '] _ hspace (ih member h (level + 1))

/-- A whole text may end in blanks. -/
theorem parse_of_takes (text blanks : List Char) (value : Json)
    (h : Takes (readValue depthLimit) text value) (hblanks : AllBlank blanks) :
    parse (text ++ blanks) = .ok value := by
  have hnone : skipBlanks blanks = [] := by
    rw [← List.append_nil blanks, skipBlanks_append blanks [] hblanks]
    rfl
  simp only [parse, h.reads, finish, hnone]

theorem parse_compact (value : Json) (h : Writable depthLimit value) :
    parse value.compact.toList = .ok value := by
  have htext : value.compact.toList = compactChars value ++ [] := by simp [compact]
  rw [htext]
  exact parse_of_takes _ [] value (takes_compact depthLimit value h) allBlank_nil

theorem parse_pretty_newline (value : Json) (h : Writable depthLimit value) :
    parse (value.pretty ++ "\n").toList = .ok value := by
  have htext : (value.pretty ++ "\n").toList = prettyChars 0 value ++ ['\n'] := by simp [pretty]
  rw [htext]
  exact parse_of_takes _ ['\n'] value (takes_pretty depthLimit value h 0)
    (allBlank_newline 0)

end Rubric.Json
