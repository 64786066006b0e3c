import Mathlib.Tactic.MkIffOfInductiveProp
import Rubric.Grammar.Tree
import Rubric.Text.Slice

/-!
Places in a text and the slices between them. A place is a byte offset between two characters, so
it splits the text. Two places in order cut out a slice, and a slice says exactly what stands
between them. A slice inside another is a slice of it, shifted by where the outer one starts.
-/
namespace Rubric

namespace Text

/-- A byte offset that does not fall inside a character or past the end. -/
def IsPlace (text : String) (offset : Nat) : Prop :=
  ∃ before after, text.toList = before ++ after ∧ byteLength before = offset

theorem isPlace_iff (text : String) (offset : Nat) :
    IsPlace text offset ↔ (splitAtByte offset text.toList).isSome = true := by
  constructor
  · rintro ⟨before, after, htext, rfl⟩
    rw [htext, splitAtByte_append, Option.isSome_some]
  · intro h
    obtain ⟨⟨before, after⟩, hsplit⟩ := Option.isSome_iff_exists.mp h
    obtain ⟨htext, hlength⟩ := splitAtByte_eq_some offset text.toList before after hsplit
    exact ⟨before, after, htext, hlength⟩

instance (text : String) (offset : Nat) : Decidable (IsPlace text offset) :=
  decidable_of_iff _ (isPlace_iff text offset).symm

theorem eq_nil_of_byteLength_eq_zero (cs : List Char) (h : byteLength cs = 0) : cs = [] := by
  cases cs with
  | nil => rfl
  | cons c cs =>
    have hpos := c.utf8Size_pos
    simp only [byteLength] at h
    omega

theorem isPlace_zero (text : String) : IsPlace text 0 := ⟨[], text.toList, rfl, rfl⟩

/-- Of two ways to split a text, the one at the earlier place splits the other's first part. -/
theorem split_at_earlier (left right before after : List Char)
    (h : left ++ right = before ++ after) (hle : byteLength left ≤ byteLength before) :
    ∃ between, before = left ++ between ∧ right = between ++ after := by
  rcases List.append_eq_append_iff.mp h with ⟨between, hbefore, hright⟩ | ⟨extra, hleft, hafter⟩
  · exact ⟨between, hbefore, hright⟩
  · have hextra : extra = [] := by
      apply eq_nil_of_byteLength_eq_zero
      rw [hleft, byteLength_append] at hle
      omega
    subst hextra
    exact ⟨[], by simpa using hleft.symm, by simpa using hafter.symm⟩

theorem slice?_eq_some (text piece : String) (start stop : Nat) :
    slice? text start stop = some piece ↔
      ∃ before after, text.toList = before ++ (piece.toList ++ after) ∧
        byteLength before = start ∧ start + byteLength piece.toList = stop := by
  unfold slice?
  constructor
  · intro h
    split at h
    · next hle =>
      obtain ⟨⟨before, rest⟩, houter, hinner⟩ := Option.bind_eq_some_iff.mp h
      obtain ⟨⟨middle, after⟩, hmiddle, rfl⟩ := Option.map_eq_some_iff.mp hinner
      obtain ⟨htext, hbefore⟩ := splitAtByte_eq_some _ _ _ _ houter
      obtain ⟨hrest, hlength⟩ := splitAtByte_eq_some _ _ _ _ hmiddle
      simp only at hrest
      refine ⟨before, after, by rw [htext, hrest, String.toList_ofList], hbefore, ?_⟩
      rw [String.toList_ofList, hlength]
      omega
    · simp at h
  · rintro ⟨before, after, htext, rfl, rfl⟩
    have hlength : byteLength before + byteLength piece.toList - byteLength before =
        byteLength piece.toList := by omega
    rw [if_pos (by omega), htext, splitAtByte_append, Option.bind_some, hlength,
      splitAtByte_append, Option.map_some, String.ofList_toList]

/-- Between two places in order there is a slice. -/
theorem exists_slice (text : String) (start stop : Nat) (hstart : IsPlace text start)
    (hstop : IsPlace text stop) (hle : start ≤ stop) :
    ∃ piece, slice? text start stop = some piece := by
  obtain ⟨left, right, hleft, rfl⟩ := hstart
  obtain ⟨before, after, hbefore, rfl⟩ := hstop
  obtain ⟨between, rfl, rfl⟩ := split_at_earlier left right before after
    (hleft.symm.trans hbefore) hle
  refine ⟨String.ofList between, (slice?_eq_some _ _ _ _).mpr ⟨left, after, ?_, rfl, ?_⟩⟩
  · rw [hleft, String.toList_ofList]
  · rw [String.toList_ofList, byteLength_append]

/-- A slice between places inside another slice is found in it, counted from its start. -/
theorem slice?_of_slice? (text outer inner : String) (a b c d : Nat) (hab : a ≤ b) (hcd : c ≤ d)
    (houter : slice? text a d = some outer) (hinner : slice? text b c = some inner) :
    slice? outer (b - a) (c - a) = some inner := by
  obtain ⟨left, right, hleft, rfl, rfl⟩ := (slice?_eq_some _ _ _ _).mp houter
  obtain ⟨before, after, hbefore, rfl, rfl⟩ := (slice?_eq_some _ _ _ _).mp hinner
  obtain ⟨skipped, rfl, hrest⟩ := split_at_earlier left (outer.toList ++ right) before
    (inner.toList ++ after) (hleft.symm.trans hbefore) hab
  rw [byteLength_append] at hcd ⊢
  rw [← List.append_assoc] at hrest
  obtain ⟨between, houterList, -⟩ := split_at_earlier (skipped ++ inner.toList) after
    outer.toList right hrest.symm (by rw [byteLength_append]; omega)
  refine (slice?_eq_some _ _ _ _).mpr ⟨skipped, between, ?_, by omega, by omega⟩
  rw [houterList, List.append_assoc]

end Text

/-- A range of a text that starts and ends at places. -/
@[mk_iff]
structure Span.InText (span : Span) (text : String) : Prop where
  ordered : span.start ≤ span.stop
  bounded : span.stop ≤ text.utf8ByteSize
  start : Text.IsPlace text span.start
  stop : Text.IsPlace text span.stop

instance (span : Span) (text : String) : Decidable (span.InText text) :=
  decidable_of_iff _ (Span.inText_iff span text).symm

theorem Span.InText.exists_slice {span : Span} {text : String} (h : span.InText text) :
    ∃ piece, Text.slice? text span.start span.stop = some piece :=
  Text.exists_slice text span.start span.stop h.start h.stop h.ordered

end Rubric
