import Mathlib.Data.Prod.Lex
import Rubric.Proofs.TextSlices
import Rubric.Text.Position

/-!
Texts as lines. A text is a list of lines, each ended by a newline, and a rest of a line. Line and
column of a place count the lines before it and the characters of the rest, so they lead back to
the place, and a place further on has a greater line, or the same line and a greater column.
-/
namespace Rubric.Text

/-- A text made of lines, each ended by a newline, and of a rest without one. -/
structure IsLines (text : List Char) (lines : List (List Char)) (rest : List Char) : Prop where
  text_eq : text = lines.flatMap (· ++ ['\n']) ++ rest
  line : ∀ line ∈ lines, '\n' ∉ line
  rest : '\n' ∉ rest

namespace IsLines

variable {text rest : List Char} {lines : List (List Char)}

/-- A newline is a line by itself, and any other character belongs to what follows it. -/
theorem cons (c : Char) (h : IsLines text lines rest) :
    ∃ others last, IsLines (c :: text) others last := by
  obtain ⟨rfl, hlines, hrest⟩ := h
  by_cases hc : c = '\n'
  · subst hc
    exact ⟨[] :: lines, rest, rfl, by simpa using hlines, hrest⟩
  · cases lines with
    | nil => exact ⟨[], c :: rest, rfl, by simp, by simp [Ne.symm hc, hrest]⟩
    | cons line lines =>
      rw [List.forall_mem_cons] at hlines
      refine ⟨(c :: line) :: lines, rest, rfl, ?_, hrest⟩
      rw [List.forall_mem_cons]
      exact ⟨by simp [Ne.symm hc, hlines.1], hlines.2⟩

/-- What is added to a text goes on with its rest. -/
theorem append {last between : List Char} {others : List (List Char)}
    (h : IsLines text lines rest) (hmore : IsLines (rest ++ between) others last) :
    IsLines (text ++ between) (lines ++ others) last := by
  obtain ⟨rfl, hlines, -⟩ := h
  obtain ⟨hbetween, hothers, hlast⟩ := hmore
  refine ⟨?_, ?_, hlast⟩
  · rw [List.append_assoc, hbetween, List.flatMap_append, List.append_assoc]
  · intro line hline
    rcases List.mem_append.mp hline with hline | hline
    · exact hlines line hline
    · exact hothers line hline

theorem count_newline (h : IsLines text lines rest) : text.count '\n' = lines.length := by
  obtain ⟨rfl, hlines, hrest⟩ := h
  induction lines with
  | nil => simpa using List.count_eq_zero.mpr hrest
  | cons line lines ih =>
    rw [List.forall_mem_cons] at hlines
    have hline := List.count_eq_zero.mpr hlines.1
    have hothers := ih hlines.2
    simp only [List.flatMap_cons, List.append_assoc, List.count_append, List.count_singleton_self,
      List.length_cons] at hothers ⊢
    omega

theorem getLast?_lines (lines : List (List Char)) :
    lines.flatMap (· ++ ['\n']) = [] ∨ (lines.flatMap (· ++ ['\n'])).getLast? = some '\n' := by
  rcases List.eq_nil_or_concat lines with rfl | ⟨front, line, rfl⟩
  · exact Or.inl rfl
  · right
    simp [List.concat_eq_append, List.flatMap_append]

/-- Of two cuts of a text the later one, after a newline, has nothing more before it than the
earlier one when no newline follows that. -/
theorem cut_unique (left right others last : List Char) (h : left ++ right = others ++ last)
    (hle : byteLength left ≤ byteLength others) (hright : '\n' ∉ right)
    (hothers : others = [] ∨ others.getLast? = some '\n') : left = others ∧ right = last := by
  obtain ⟨between, rfl, rfl⟩ := split_at_earlier left right others last h hle
  cases between with
  | nil => simp
  | cons c between =>
    exfalso
    rcases hothers with hnil | hnewline
    · simp at hnil
    · have hlast : (c :: between).getLast? = some '\n' := by simpa using hnewline
      exact hright (List.mem_append_left last (List.mem_of_getLast? hlast))

/-- The last line starts after the lines that are ended. -/
theorem splitAtByte_lineStart (h : IsLines text lines rest) :
    splitAtByte (lineStart text) text = some (lines.flatMap (· ++ ['\n']), rest) := by
  obtain ⟨front, line, hsplit, hfront, hline⟩ := Text.splitAtByte_lineStart text
  obtain ⟨htext, -⟩ := splitAtByte_eq_some _ _ _ _ hsplit
  have hcut := htext.symm.trans h.text_eq
  obtain ⟨hlines, hrest⟩ : front = lines.flatMap (· ++ ['\n']) ∧ line = rest := by
    rcases Nat.le_total (byteLength front) (byteLength (lines.flatMap (· ++ ['\n']))) with hle | hle
    · exact cut_unique _ _ _ _ hcut hle hline (getLast?_lines lines)
    · obtain ⟨hlines, hrest⟩ := cut_unique _ _ _ _ hcut.symm hle h.rest hfront
      exact ⟨hlines.symm, hrest.symm⟩
  rw [hsplit, hlines, hrest]

theorem lastLine_eq (h : IsLines text lines rest) : lastLine text = rest := by
  simp only [lastLine, h.splitAtByte_lineStart, Option.get_some]

/-- Line and column count the lines and the characters after them. -/
theorem afterChars (h : IsLines text lines rest) :
    Position.afterChars text = ⟨lines.length + 1, rest.length + 1⟩ := by
  rw [Position.afterChars, h.count_newline, h.lastLine_eq]

end IsLines

theorem exists_isLines (text : List Char) : ∃ lines rest, IsLines text lines rest := by
  induction text with
  | nil => exact ⟨[], [], rfl, by simp, by simp⟩
  | cons c text ih =>
    obtain ⟨lines, rest, h⟩ := ih
    exact h.cons c

/-- Texts that are each ended by a newline make up lines, be it more of them than there are
texts. -/
theorem exists_isLines_of_ended (texts : List (List Char)) :
    ∃ lines, IsLines (texts.flatMap (· ++ ['\n'])) lines [] := by
  induction texts with
  | nil => exact ⟨[], rfl, by simp, by simp⟩
  | cons text texts ih =>
    obtain ⟨lines, rest, hlines⟩ := exists_isLines text
    obtain ⟨others, hothers⟩ := ih
    have hended : IsLines (rest ++ ['\n']) [rest] [] :=
      ⟨by simp, by simpa using hlines.rest, by simp⟩
    exact ⟨lines ++ [rest] ++ others, (hlines.append hended).append hothers⟩

namespace Position

def Before (left right : Position) : Prop :=
  toLex (left.line, left.column) < toLex (right.line, right.column)

/-- A position leads to an offset: past the lines before it, and past the characters before it on
its line, none of which is a newline. -/
def LeadsTo (position : Position) (text : String) (offset : Nat) : Prop :=
  ∃ before after lines line, text.toList = before ++ after ∧ byteLength before = offset ∧
    IsLines before lines line ∧ position.line = lines.length + 1 ∧
    position.column = line.length + 1

theorem ofOffset_of_split (text : String) (before after : List Char)
    (h : text.toList = before ++ after) :
    ofOffset text (byteLength before) = afterChars before := by
  rw [ofOffset, h, splitAtByte_append]

/-- The position of a place leads to it, and no other position does. -/
theorem ofOffset_eq_iff_leadsTo (text : String) (offset : Nat) (h : IsPlace text offset)
    (position : Position) : ofOffset text offset = position ↔ position.LeadsTo text offset := by
  constructor
  · intro hposition
    obtain ⟨before, after, htext, rfl⟩ := h
    obtain ⟨lines, line, hlines⟩ := exists_isLines before
    rw [ofOffset_of_split text before after htext, hlines.afterChars] at hposition
    subst hposition
    exact ⟨before, after, lines, line, htext, rfl, hlines, rfl, rfl⟩
  · intro hleads
    obtain ⟨before, after, lines, line, htext, rfl, hlines, hline, hcolumn⟩ := hleads
    rw [ofOffset_of_split text before after htext, hlines.afterChars, ← hline, ← hcolumn]

/-- Further characters move the position on: to a later line, or further on the same line. -/
theorem afterChars_before (text between : List Char) (h : between ≠ []) :
    (afterChars text).Before (afterChars (text ++ between)) := by
  obtain ⟨lines, rest, hlines⟩ := exists_isLines text
  obtain ⟨others, last, hothers⟩ := exists_isLines (rest ++ between)
  rw [hlines.afterChars, (hlines.append hothers).afterChars, Before, Prod.Lex.toLex_lt_toLex]
  cases others with
  | nil =>
    right
    have hlast : last = rest ++ between := by simpa using hothers.text_eq.symm
    have hlength := List.length_pos_iff.mpr h
    rw [hlast, List.append_nil, List.length_append]
    exact ⟨rfl, by dsimp only; omega⟩
  | cons line others =>
    left
    rw [List.length_append, List.length_cons]
    dsimp only
    omega

theorem ofOffset_before (text : String) (a b : Nat) (ha : IsPlace text a) (hb : IsPlace text b)
    (hlt : a < b) : (ofOffset text a).Before (ofOffset text b) := by
  obtain ⟨left, right, hleft, rfl⟩ := ha
  obtain ⟨before, after, hbefore, rfl⟩ := hb
  obtain ⟨between, rfl, -⟩ := split_at_earlier left right before after
    (hleft.symm.trans hbefore) (Nat.le_of_lt hlt)
  have hsome : between ≠ [] := by
    rintro rfl
    simp at hlt
  rw [ofOffset_of_split text left right hleft, ofOffset_of_split text _ after hbefore]
  exact afterChars_before left between hsome

theorem ofOffset_inj (text : String) (a b : Nat) (ha : IsPlace text a) (hb : IsPlace text b)
    (h : ofOffset text a = ofOffset text b) : a = b := by
  rcases Nat.lt_trichotomy a b with hlt | heq | hlt
  · have hbefore := ofOffset_before text a b ha hb hlt
    rw [h] at hbefore
    exact absurd hbefore (lt_irrefl _)
  · exact heq
  · have hbefore := ofOffset_before text b a hb ha hlt
    rw [h] at hbefore
    exact absurd hbefore (lt_irrefl _)

end Position

end Rubric.Text
