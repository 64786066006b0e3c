import Rubric.Json.Literal
import Rubric.Toml.Literal

/-!
Escaped characters are read back. A character is written by a letter after a backslash, as itself,
or by the two digits of its code point. The readers of JSON and of TOML strings both undo each of
the three, so a literal is read back as its text whatever comes after it. A literal of JSON is one
of TOML too, unless it holds the one control character that JSON lets stand for itself.
-/
namespace Rubric

namespace Text

def shortEscapes : List (Char × Char) :=
  [('"', '"'), ('\\', '\\'), ('b', '\x08'), ('f', '\x0c'), ('n', '\n'), ('r', '\r'), ('t', '\t')]

inductive Escaped (plain : Char → Bool) (c : Char) : List Char → Prop
  | short (letter : Char) (h : (letter, c) ∈ shortEscapes) : Escaped plain c ['\\', letter]
  | self (hplain : plain c = true) (hquote : c ≠ '"') (hslash : c ≠ '\\') : Escaped plain c [c]
  | code (hplain : plain c = false) :
      Escaped plain c ['\\', 'u', '0', '0', hexDigit (c.toNat / 16), hexDigit (c.toNat % 16)]

theorem escaped_escapeChar (plain : Char → Bool) (c : Char) :
    Escaped plain c (escapeChar plain c) := by
  by_cases hquote : c = '"'
  · subst hquote
    exact .short '"' (by decide)
  by_cases hslash : c = '\\'
  · subst hslash
    exact .short '\\' (by decide)
  by_cases hback : c = '\x08'
  · subst hback
    exact .short 'b' (by decide)
  by_cases hfeed : c = '\x0c'
  · subst hfeed
    exact .short 'f' (by decide)
  by_cases hline : c = '\n'
  · subst hline
    exact .short 'n' (by decide)
  by_cases hreturn : c = '\r'
  · subst hreturn
    exact .short 'r' (by decide)
  by_cases htab : c = '\t'
  · subst htab
    exact .short 't' (by decide)
  unfold escapeChar
  rw [if_neg hquote, if_neg hslash, if_neg hback, if_neg hfeed, if_neg hline, if_neg hreturn,
    if_neg htab]
  split
  · next hplain => exact .self hplain hquote hslash
  · next hplain => exact .code (Bool.eq_false_iff.mpr hplain)

theorem Escaped.ne_nil {plain : Char → Bool} {c : Char} {written : List Char}
    (h : Escaped plain c written) : written ≠ [] := by
  cases h <;> simp

/-- A quote stands for itself nowhere. -/
theorem Escaped.head?_ne_quote {plain : Char → Bool} {c : Char} {written : List Char}
    (h : Escaped plain c written) : written.head? ≠ some '"' := by
  cases h with
  | short letter h => simp
  | self hplain hquote hslash => simpa using hquote
  | code hplain => simp

theorem length_le_flatMap {α β : Type} (f : α → List β) (xs : List α) (h : ∀ x ∈ xs, f x ≠ []) :
    xs.length ≤ (xs.flatMap f).length := by
  induction xs with
  | nil => exact Nat.le_refl 0
  | cons x rest ih =>
    have hpos := List.length_pos_iff.mpr (h x List.mem_cons_self)
    have hrest := ih fun y hy => h y (List.mem_cons_of_mem x hy)
    rw [List.flatMap_cons, List.length_append, List.length_cons]
    omega

/-- The length of what is left to read is fuel enough for the text in it. -/
theorem length_lt_escaped (plain : Char → Bool) (text s : List Char) :
    text.length < (text.flatMap (escapeChar plain) ++ s).length + 1 := by
  have hlength := length_le_flatMap (escapeChar plain) text
    fun c _ => (escaped_escapeChar plain c).ne_nil
  rw [List.length_append]
  omega

theorem hexValue?_hexDigit (n : Nat) (h : n < 16) : hexValue? (hexDigit n) = some n := by
  revert n
  decide

theorem literalChars_append (plain : Char → Bool) (text : String) (s : List Char) :
    literalChars plain text ++ s =
      '"' :: (text.toList.flatMap (escapeChar plain) ++ '"' :: s) := by
  simp [literalChars]

end Text

namespace Json

open Text

theorem readEscape_short (letter c : Char) (h : (letter, c) ∈ shortEscapes) (s : List Char) :
    readEscape (letter :: s) = .ok (c, s) := by
  simp only [shortEscapes, List.mem_cons, Prod.mk.injEq, List.not_mem_nil, or_false] at h
  rcases h with ⟨rfl, rfl⟩ | ⟨rfl, rfl⟩ | ⟨rfl, rfl⟩ | ⟨rfl, rfl⟩ | ⟨rfl, rfl⟩ | ⟨rfl, rfl⟩ |
    ⟨rfl, rfl⟩ <;> rfl

/-- Only control characters are not plain. -/
theorem toNat_lt_iff_not_isPlain (c : Char) : c.toNat < 32 ↔ isPlain c = false := by
  simp only [isPlain, decide_eq_false_iff_not, Char.not_le]
  rfl

theorem readEscape_code (c : Char) (h : c.toNat < 32) (s : List Char) :
    readEscape ('u' :: '0' :: '0' :: hexDigit (c.toNat / 16) :: hexDigit (c.toNat % 16) :: s) =
      .ok (c, s) := by
  have hzero : hexValue? '0' = some 0 := rfl
  have hvalue : hexValue4? '0' '0' (hexDigit (c.toNat / 16)) (hexDigit (c.toNat % 16)) =
      some c.toNat := by
    simp only [hexValue4?, hzero, hexValue?_hexDigit (c.toNat / 16) (by omega),
      hexValue?_hexDigit (c.toNat % 16) (by omega), Option.bind_eq_bind, Option.bind_some,
      Option.pure_def, Option.some.injEq]
    omega
  -- A control character is no half of a surrogate pair.
  have htrailing : isTrailing c.toNat = false := by simp [isTrailing]; omega
  have hleading : isLeading c.toNat = false := by simp [isLeading]; omega
  simp only [readEscape, unicodeEscape, hexEscape, hvalue, htrailing, hleading,
    Char.ofNat_toNat, Bool.false_eq_true, if_false]

/-- However a character is written, it is the next piece that is read. -/
theorem piece_escaped (c : Char) (written : List Char) (h : Escaped isPlain c written)
    (s : List Char) : piece (written ++ s) = .ok (some c, s) := by
  cases h with
  | short letter h =>
    simp only [List.cons_append, List.nil_append, piece, readEscape_short letter c h]
    rfl
  | self hplain hquote hslash =>
    have hcontrol : ¬ c.toNat < 32 := by
      rw [toNat_lt_iff_not_isPlain, hplain]
      simp
    simp only [List.cons_append, List.nil_append, piece]
    split <;> simp_all
  | code hplain =>
    have hcode := readEscape_code c ((toNat_lt_iff_not_isPlain c).mpr hplain) s
    simp only [List.cons_append, List.nil_append, piece, hcode]
    rfl

/-- Reading goes through the characters of a text one by one and stops at the quote. -/
theorem characters_escaped (text read s : List Char) (fuel : Nat) (h : text.length < fuel) :
    characters fuel read (text.flatMap (escapeChar isPlain) ++ '"' :: s) =
      .ok (read.reverse ++ text, s) := by
  -- What was read is kept last character first, and each step puts one more in front of it.
  induction text generalizing read fuel with
  | nil =>
    obtain ⟨fuel, rfl⟩ := Nat.exists_eq_add_one.mpr h
    simp [characters, piece]
  | cons c rest ih =>
    obtain ⟨fuel, rfl⟩ := Nat.exists_eq_add_one.mpr (Nat.zero_lt_of_lt h)
    rw [List.length_cons, Nat.add_lt_add_iff_right] at h
    rw [List.flatMap_cons, List.append_assoc, characters,
      piece_escaped c _ (escaped_escapeChar isPlain c)]
    dsimp only
    rw [ih (c :: read) fuel h, List.reverse_cons, List.append_assoc, List.singleton_append]

/-- A literal after its opening quote. -/
theorem readString_literal (text : String) (s : List Char) :
    readString (text.toList.flatMap (escapeChar isPlain) ++ '"' :: s) = .ok (text, s) := by
  unfold readString
  rw [characters_escaped text.toList [] s _ (length_lt_escaped isPlain text.toList ('"' :: s))]
  simp [Except.map]

end Json

namespace Toml

open Text

theorem readEscape_short (letter c : Char) (h : (letter, c) ∈ shortEscapes) (s : List Char) :
    readEscape (letter :: s) = some (c, s) := by
  simp only [shortEscapes, List.mem_cons, Prod.mk.injEq, List.not_mem_nil, or_false] at h
  rcases h with ⟨rfl, rfl⟩ | ⟨rfl, rfl⟩ | ⟨rfl, rfl⟩ | ⟨rfl, rfl⟩ | ⟨rfl, rfl⟩ | ⟨rfl, rfl⟩ |
    ⟨rfl, rfl⟩ <;> rfl

theorem charOf?_toNat (c : Char) : charOf? c.toNat = some c := by
  have hvalid : c.toNat.isValidChar := c.valid
  rw [charOf?, if_pos hvalid, Char.ofNat_toNat]

theorem readEscape_code (c : Char) (h : c.toNat < 256) (s : List Char) :
    readEscape ('u' :: '0' :: '0' :: hexDigit (c.toNat / 16) :: hexDigit (c.toNat % 16) :: s) =
      some (c, s) := by
  have hzero : hexValue? '0' = some 0 := rfl
  have hvalue : ((0 * 16 + 0) * 16 + 0) * 16 + c.toNat / 16 = c.toNat / 16 := by omega
  have hcode : c.toNat / 16 * 16 + c.toNat % 16 = c.toNat := by omega
  simp only [readEscape, codeEscape, hexNumber, hzero, hexValue?_hexDigit (c.toNat / 16) (by omega),
    hexValue?_hexDigit (c.toNat % 16) (by omega), hvalue, hcode, Option.bind_some, charOf?_toNat,
    Option.map_some]

/-- A character that a basic string can hold as it is written: as itself or by a small code. -/
structure Holds (plain : Char → Bool) (c : Char) : Prop where
  self : plain c = true → isPlain c = true
  code : plain c = false → c.toNat < 256

/-- JSON and TOML disagree about one character only. -/
theorem holds_json (c : Char) (h : c ≠ '\x7f') : Holds Json.isPlain c where
  self hplain := by
    have hval : c.toNat ≠ 127 := fun heq => h (Char.toNat_inj.mp heq)
    have hside : c ≤ '~' ∨ '\x7f' < c := by
      rcases Nat.lt_or_gt_of_ne hval with hlt | hgt
      · exact Or.inl (Nat.le_of_lt_succ hlt)
      · exact Or.inr hgt
    simp only [Json.isPlain, decide_eq_true_eq] at hplain
    rcases hside with hside | hside <;> simp [isPlain, hplain, hside]
  code hplain := by
    have hcontrol := (Json.toNat_lt_iff_not_isPlain c).mpr hplain
    omega

/-- However a character is written, reading takes it in one step. -/
theorem basicChars_step (plain : Char → Bool) (c : Char) (written : List Char)
    (h : Escaped plain c written) (hc : Holds plain c) (fuel : Nat) (read s : List Char) :
    basicChars (fuel + 1) read (written ++ s) = basicChars fuel (c :: read) s := by
  cases h with
  | short letter h =>
    simp [basicChars, readEscape_short letter c h]
  | self hplain hquote hslash =>
    simp [basicChars, hquote, hslash, hc.self hplain]
  | code hplain =>
    simp [basicChars, readEscape_code c (hc.code hplain)]

theorem basicChars_escaped (plain : Char → Bool) (text read s : List Char)
    (htext : ∀ c ∈ text, Holds plain c) (fuel : Nat) (h : text.length < fuel) :
    basicChars fuel read (text.flatMap (escapeChar plain) ++ '"' :: s) =
      some (read.reverse ++ text, s) := by
  induction text generalizing read fuel with
  | nil =>
    obtain ⟨fuel, rfl⟩ := Nat.exists_eq_add_one.mpr h
    simp [basicChars]
  | cons c rest ih =>
    obtain ⟨fuel, rfl⟩ := Nat.exists_eq_add_one.mpr (Nat.zero_lt_of_lt h)
    rw [List.length_cons, Nat.add_lt_add_iff_right] at h
    have hrest : ∀ d ∈ rest, Holds plain d := fun d hd => htext d (List.mem_cons_of_mem c hd)
    rw [List.flatMap_cons, List.append_assoc, basicChars_step plain c _
      (escaped_escapeChar plain c) (htext c List.mem_cons_self), ih (c :: read) hrest fuel h,
      List.reverse_cons, List.append_assoc, List.singleton_append]

theorem basicString_literal (plain : Char → Bool) (text : String)
    (htext : ∀ c ∈ text.toList, Holds plain c) (s : List Char) :
    basicString (text.toList.flatMap (escapeChar plain) ++ '"' :: s) = some (text, s) := by
  unfold basicString
  rw [basicChars_escaped plain text.toList [] s htext _
    (length_lt_escaped plain text.toList ('"' :: s))]
  simp

theorem readString_basic (s : List Char) (h : ∀ rest, s ≠ '"' :: '"' :: rest) :
    readString ('"' :: s) = basicString s := by
  unfold readString
  split <;> simp_all

/-- A literal is not mistaken for the start of a text over several lines, unless it is empty and
another quote follows. -/
theorem readString_literal (plain : Char → Bool) (text : String)
    (htext : ∀ c ∈ text.toList, Holds plain c) (s : List Char) (hs : s.head? ≠ some '"') :
    readString (literalChars plain text ++ s) = some (text, s) := by
  rw [literalChars_append, ← basicString_literal plain text htext s]
  apply readString_basic
  intro rest heq
  -- A second quote right after the first one can only be the closing one.
  cases hchars : text.toList with
  | nil =>
    rw [hchars, List.flatMap_nil, List.nil_append, List.cons.injEq] at heq
    exact hs (by rw [heq.2, List.head?_cons])
  | cons c others =>
    have hescaped := escaped_escapeChar plain c
    obtain ⟨first, more, hwritten⟩ := List.exists_cons_of_ne_nil hescaped.ne_nil
    rw [hchars, List.flatMap_cons, hwritten, List.append_assoc, List.cons_append,
      List.cons.injEq] at heq
    exact hescaped.head?_ne_quote (by rw [hwritten, List.head?_cons, heq.1])

end Toml

end Rubric
