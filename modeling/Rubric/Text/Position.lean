import Rubric.Text.Slice

/-!
Lines and columns. Readers of rules documents report how far they got as a line and a count of
bytes in it. Reports on a submission name the line and the character, both counted from one.
-/
namespace Rubric.Text

structure Position where
  line : Nat
  column : Nat
deriving Repr, DecidableEq

/-- Position reached from `position` by consuming `bytes` bytes of the text. A newline starts the
next line at column zero, and a character cut short counts only the bytes consumed. -/
def Position.advance (position : Position) : Nat → List Char → Position
  | _, [] => position
  | bytes, c :: cs =>
      if bytes = 0 then position
      else if c = '\n' then advance ⟨position.line + 1, 0⟩ (bytes - 1) cs
      else
        advance ⟨position.line, position.column + min c.utf8Size bytes⟩ (bytes - c.utf8Size) cs

/-- Position after the first bytes of a text: the first line is line one. -/
def Position.afterBytes (bytes : Nat) (text : List Char) : Position :=
  Position.advance ⟨1, 0⟩ bytes text

def lastNewline? : List Char → Option Nat
  | [] => none
  | c :: cs =>
      match lastNewline? cs with
      | some offset => some (c.utf8Size + offset)
      | none => if c = '\n' then some 0 else none

def lineStart (cs : List Char) : Nat :=
  match lastNewline? cs with
  | some offset => offset + 1
  | none => 0

theorem lastNewline?_eq_none (cs : List Char) (h : lastNewline? cs = none) : '\n' ∉ cs := by
  induction cs with
  | nil => simp
  | cons c cs ih =>
    unfold lastNewline? at h
    split at h
    · simp at h
    · next hnone =>
      split at h
      · simp at h
      · next hc => simp [ih hnone, Ne.symm hc]

/-- The last newline cuts the text, and none follows it. -/
theorem lastNewline?_eq_some (cs : List Char) (offset : Nat) (h : lastNewline? cs = some offset) :
    ∃ before after, cs = before ++ '\n' :: after ∧ byteLength before = offset ∧ '\n' ∉ after := by
  induction cs generalizing offset with
  | nil => simp [lastNewline?] at h
  | cons c cs ih =>
    unfold lastNewline? at h
    split at h
    · next inner hinner =>
      obtain ⟨before, after, rfl, rfl, hafter⟩ := ih inner hinner
      exact ⟨c :: before, after, rfl, Option.some.inj h, hafter⟩
    · next hnone =>
      split at h
      · next hc => exact ⟨[], cs, by rw [hc]; rfl, Option.some.inj h, lastNewline?_eq_none cs hnone⟩
      · simp at h

/-- The start of the last line is a place: a newline takes one byte. -/
theorem splitAtByte_lineStart (cs : List Char) :
    ∃ lines line, splitAtByte (lineStart cs) cs = some (lines, line) ∧
      (lines = [] ∨ lines.getLast? = some '\n') ∧ '\n' ∉ line := by
  unfold lineStart
  split
  · next offset hsome =>
    obtain ⟨before, after, rfl, rfl, hafter⟩ := lastNewline?_eq_some cs offset hsome
    have hlength : byteLength (before ++ ['\n']) = byteLength before + 1 :=
      byteLength_append before ['\n']
    have hsplit := splitAtByte_append (before ++ ['\n']) after
    rw [hlength, List.append_assoc, List.singleton_append] at hsplit
    exact ⟨before ++ ['\n'], after, hsplit, Or.inr (by simp), hafter⟩
  · next hnone =>
    exact ⟨[], cs, splitAtByte_append [] cs, Or.inl rfl, lastNewline?_eq_none cs hnone⟩

theorem isSome_splitAtByte_lineStart (cs : List Char) :
    (splitAtByte (lineStart cs) cs).isSome = true := by
  obtain ⟨lines, line, hsplit, -⟩ := splitAtByte_lineStart cs
  rw [hsplit, Option.isSome_some]

/-- Characters of the last line. They are a slice of the text, which is there because the line
starts at a place. -/
def lastLine (cs : List Char) : List Char :=
  ((splitAtByte (lineStart cs) cs).get (isSome_splitAtByte_lineStart cs)).2

/-- Line and column, both counted from one, of the place after the characters. -/
def Position.afterChars (before : List Char) : Position :=
  ⟨before.count '\n' + 1, (lastLine before).length + 1⟩

/-- Line and column of a byte offset; an offset that is no place in the text counts as its end. -/
def Position.ofOffset (text : String) (offset : Nat) : Position :=
  Position.afterChars <|
    match splitAtByte offset text.toList with
    | some (before, _) => before
    | none => text.toList

end Rubric.Text
