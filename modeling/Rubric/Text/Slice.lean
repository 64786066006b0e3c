/-!
Byte offsets into text. A submission is addressed by offsets into its UTF-8 encoding, so an
offset names a place between two characters only when it does not fall inside one. Slices and
splits are partial for that reason, and are defined on the list of characters.
-/
namespace Rubric.Text

def byteLength : List Char → Nat
  | [] => 0
  | c :: cs => c.utf8Size + byteLength cs

/-- The characters before and after a byte offset. There are none when the offset lies past
the end or inside a character. -/
def splitAtByte : Nat → List Char → Option (List Char × List Char)
  | 0, cs => some ([], cs)
  | _ + 1, [] => none
  | n + 1, c :: cs =>
      if c.utf8Size ≤ n + 1 then
        (splitAtByte (n + 1 - c.utf8Size) cs).map fun parts => (c :: parts.1, parts.2)
      else none

def slice? (text : String) (start stop : Nat) : Option String :=
  if start ≤ stop then
    (splitAtByte start text.toList).bind fun outer =>
      (splitAtByte (stop - start) outer.2).map fun inner => String.ofList inner.1
  else none

theorem byteLength_append (xs ys : List Char) :
    byteLength (xs ++ ys) = byteLength xs + byteLength ys := by
  induction xs with
  | nil => simp [byteLength]
  | cons c cs ih => simp [byteLength, ih, Nat.add_assoc]

/-- A split loses nothing and cuts exactly at the offset. -/
theorem splitAtByte_eq_some (n : Nat) (cs before after : List Char)
    (h : splitAtByte n cs = some (before, after)) :
    cs = before ++ after ∧ byteLength before = n := by
  induction cs generalizing n before after with
  | nil =>
    cases n with
    | zero =>
      simp only [splitAtByte, Option.some.injEq, Prod.mk.injEq] at h
      obtain ⟨rfl, rfl⟩ := h
      simp [byteLength]
    | succ n => simp [splitAtByte] at h
  | cons c cs ih =>
    cases n with
    | zero =>
      simp only [splitAtByte, Option.some.injEq, Prod.mk.injEq] at h
      obtain ⟨rfl, rfl⟩ := h
      simp [byteLength]
    | succ n =>
      simp only [splitAtByte] at h
      split at h
      · next hsize =>
        obtain ⟨⟨left, right⟩, hsplit, hpair⟩ := Option.map_eq_some_iff.mp h
        simp only [Prod.mk.injEq] at hpair
        obtain ⟨rfl, rfl⟩ := hpair
        obtain ⟨rfl, hlen⟩ := ih _ _ _ hsplit
        exact ⟨rfl, by simp only [byteLength, hlen]; omega⟩
      · simp at h

/-- Every place between two characters is reached by its byte offset. -/
theorem splitAtByte_append (before after : List Char) :
    splitAtByte (byteLength before) (before ++ after) = some (before, after) := by
  induction before with
  | nil => cases after <;> rfl
  | cons c cs ih =>
    have hpos : 0 < c.utf8Size := c.utf8Size_pos
    obtain ⟨m, hm⟩ : ∃ m, c.utf8Size + byteLength cs = m + 1 :=
      ⟨c.utf8Size + byteLength cs - 1, by omega⟩
    have hle : c.utf8Size ≤ m + 1 := by omega
    have hsub : m + 1 - c.utf8Size = byteLength cs := by omega
    simp only [byteLength, List.cons_append, hm, splitAtByte, if_pos hle, hsub, ih,
      Option.map_some]

end Rubric.Text
