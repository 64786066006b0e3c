import Mathlib.Data.List.TakeDrop
import Mathlib.Data.List.TakeWhile
import Rubric.Proofs.JsonLayouts
import Rubric.Proofs.JsonReads

/-!
What a reader of strings and numbers takes does not depend on what comes after it. A string and a
word tell by themselves where they end, so anything may follow them. A number ends where it does
not go on, so what follows it may be replaced by anything that starts alike or that no number goes
on with.
-/
namespace Rubric.Json

open Text

variable {α β : Type}

/-- What a reader takes is taken whatever follows. -/
def SelfDelimiting (read : List Char → Read α) : Prop :=
  ∀ s x rest, read s = .ok (x, rest) →
    ∃ taken, s = taken ++ rest ∧ ∀ other, read (taken ++ other) = .ok (x, other)

theorem SelfDelimiting.map {read : List Char → Read α} (h : SelfDelimiting read) (make : α → β) :
    SelfDelimiting fun s => (read s).map fun step => (make step.1, step.2) := by
  intro s x rest hread
  dsimp only at hread
  obtain ⟨y, hy, rfl⟩ := map_eq_ok hread
  obtain ⟨taken, hs, htaken⟩ := h s y rest hy
  refine ⟨taken, hs, ?_⟩
  intro other
  simp only [htaken other, Except.map]

/-! Strings -/

theorem selfDelimiting_hexEscape : SelfDelimiting hexEscape := by
  intro s unit rest h
  unfold hexEscape at h
  dsimp only at h
  split at h
  · next a b c d more =>
    split at h
    · next found hfound =>
      obtain ⟨rfl, rfl⟩ := Prod.mk.inj (Except.ok.inj h)
      refine ⟨[a, b, c, d], rfl, ?_⟩
      intro other
      simp only [hexEscape, List.cons_append, List.nil_append, hfound]
    · split at h <;> simp at h
  · split at h <;> simp at h

theorem selfDelimiting_trailingEscape (leading : Nat) :
    SelfDelimiting (trailingEscape leading) := by
  intro s c rest h
  unfold trailingEscape at h
  split at h
  · simp at h
  · next unit after hunit =>
    split at h
    · next htrailing =>
      obtain ⟨rfl, rfl⟩ := Prod.mk.inj (Except.ok.inj h)
      obtain ⟨taken, hs, htaken⟩ := selfDelimiting_hexEscape s unit after hunit
      refine ⟨taken, hs, ?_⟩
      intro other
      simp only [trailingEscape, htaken other, htrailing, if_true]
    · simp at h

theorem selfDelimiting_unicodeEscape : SelfDelimiting unicodeEscape := by
  intro s c rest h
  unfold unicodeEscape at h
  split at h
  · simp at h
  · next unit after hunit =>
    obtain ⟨taken, rfl, htaken⟩ := selfDelimiting_hexEscape s unit after hunit
    split at h
    · simp at h
    next htrailing =>
    split at h
    · next hleading =>
      split at h
      · simp at h
      · simp at h
      · next more =>
        -- A pair of escapes is one character.
        obtain ⟨second, rfl, hsecond⟩ := selfDelimiting_trailingEscape unit more c rest h
        refine ⟨taken ++ '\\' :: 'u' :: second, by simp, ?_⟩
        intro other
        rw [List.append_assoc]
        simp only [unicodeEscape, htaken, htrailing, hleading, List.cons_append, hsecond other,
          Bool.false_eq_true, if_false, if_true]
      · simp at h
      · simp at h
    · next hleading =>
      obtain ⟨rfl, rfl⟩ := Prod.mk.inj (Except.ok.inj h)
      refine ⟨taken, rfl, ?_⟩
      intro other
      simp only [unicodeEscape, htaken, htrailing, hleading, Bool.false_eq_true, if_false]

theorem selfDelimiting_readEscape : SelfDelimiting readEscape := by
  intro s c rest h
  unfold readEscape at h
  split at h
  case h_1 => simp at h
  case h_10 more =>
    obtain ⟨taken, rfl, htaken⟩ := selfDelimiting_unicodeEscape more c rest h
    exact ⟨'u' :: taken, rfl, htaken⟩
  case h_11 => simp at h
  -- The other letters stand for one character each.
  all_goals
    obtain ⟨rfl, rfl⟩ := Prod.mk.inj (Except.ok.inj h)
    exact ⟨[_], rfl, fun other => rfl⟩

theorem selfDelimiting_piece : SelfDelimiting piece := by
  intro s found rest h
  unfold piece at h
  split at h
  · simp at h
  · next more =>
    obtain ⟨rfl, rfl⟩ := Prod.mk.inj (Except.ok.inj h)
    exact ⟨['"'], rfl, fun other => rfl⟩
  · next more =>
    obtain ⟨taken, rfl, htaken⟩ := selfDelimiting_readEscape.map some more found rest h
    exact ⟨'\\' :: taken, rfl, htaken⟩
  · next c more hquote hslash =>
    split at h
    · simp at h
    · next hcontrol =>
      obtain ⟨rfl, rfl⟩ := Prod.mk.inj (Except.ok.inj h)
      refine ⟨[c], rfl, ?_⟩
      intro other
      unfold piece
      split <;> simp_all

theorem piece_taken_ne_nil (taken : List Char) (found : Option Char)
    (h : ∀ other, piece (taken ++ other) = .ok (found, other)) : taken ≠ [] := by
  intro hnil
  have hend := h []
  rw [hnil] at hend
  simp [piece] at hend

/-- A piece takes at least a character, so fuel for the characters taken is enough. -/
theorem characters_eq_ok (fuel : Nat) (read s chars rest : List Char)
    (h : characters fuel read s = .ok (chars, rest)) :
    ∃ taken, s = taken ++ rest ∧ ∀ other more, taken.length ≤ more →
      characters more read (taken ++ other) = .ok (chars, other) := by
  induction fuel generalizing read s with
  | zero => simp [characters] at h
  | succ fuel ih =>
    rw [characters] at h
    split at h
    · simp at h
    · next after hpiece =>
      obtain ⟨rfl, rfl⟩ := Prod.mk.inj (Except.ok.inj h)
      obtain ⟨taken, rfl, htaken⟩ := selfDelimiting_piece s none after hpiece
      refine ⟨taken, rfl, ?_⟩
      intro other more hmore
      have hpos := List.length_pos_iff.mpr (piece_taken_ne_nil taken none htaken)
      obtain ⟨more, rfl⟩ := Nat.exists_eq_add_one.mpr (Nat.lt_of_lt_of_le hpos hmore)
      simp only [characters, htaken other]
    · next c after hpiece =>
      obtain ⟨first, rfl, hfirst⟩ := selfDelimiting_piece s (some c) after hpiece
      obtain ⟨taken, rfl, htaken⟩ := ih (c :: read) after h
      refine ⟨first ++ taken, by rw [List.append_assoc], ?_⟩
      intro other more hmore
      have hpos := List.length_pos_iff.mpr (piece_taken_ne_nil first (some c) hfirst)
      rw [List.length_append] at hmore
      obtain ⟨more, rfl⟩ := Nat.exists_eq_add_one.mpr (show 0 < more by omega)
      rw [List.append_assoc, characters, hfirst]
      exact htaken other more (by omega)

theorem selfDelimiting_readString : SelfDelimiting readString := by
  intro s text rest h
  obtain ⟨chars, hchars, rfl⟩ := map_eq_ok h
  obtain ⟨taken, rfl, htaken⟩ := characters_eq_ok _ _ _ _ _ hchars
  refine ⟨taken, rfl, ?_⟩
  intro other
  have hfuel : taken.length ≤ (taken ++ other).length + 1 := by
    rw [List.length_append]
    omega
  rw [readString, htaken other _ hfuel]
  rfl

/-- A key is a quote and a literal that is read as it. -/
theorem readKey_eq_ok_iff (s rest : List Char) (name : String) :
    readKey s = .ok (name, rest) ↔
      ∃ key, readString key = .ok (name, []) ∧ s = '"' :: (key ++ rest) := by
  constructor
  · intro h
    unfold readKey at h
    split at h
    · next more =>
      obtain ⟨key, rfl, hkey⟩ := selfDelimiting_readString more name rest h
      have hend := hkey []
      rw [List.append_nil] at hend
      exact ⟨key, hend, rfl⟩
    · simp at h
  · intro h
    obtain ⟨key, hkey, rfl⟩ := h
    obtain ⟨taken, htaken, hothers⟩ := selfDelimiting_readString key name [] hkey
    rw [List.append_nil] at htaken
    rw [htaken]
    exact hothers rest

theorem selfDelimiting_readKey : SelfDelimiting readKey := by
  intro s name rest h
  obtain ⟨key, hkey, rfl⟩ := (readKey_eq_ok_iff s rest name).mp h
  exact ⟨'"' :: key, rfl, fun other => (readKey_eq_ok_iff _ other name).mpr ⟨key, hkey, rfl⟩⟩

theorem exists_skipBlanks (s : List Char) :
    ∃ gap, AllBlank gap ∧ s = gap ++ skipBlanks s := by
  refine ⟨s.takeWhile isBlank, ?_, List.takeWhile_append_dropWhile.symm⟩
  intro c hc
  exact List.mem_takeWhile_imp hc

theorem readColon_eq_ok_iff (s rest : List Char) :
    readColon s = .ok ((), rest) ↔ ∃ gap, AllBlank gap ∧ s = gap ++ ':' :: rest := by
  constructor
  · intro h
    obtain ⟨gap, hgap, hs⟩ := exists_skipBlanks s
    unfold readColon at h
    split at h
    · next more hcolon =>
      obtain ⟨-, rfl⟩ := Prod.mk.inj (Except.ok.inj h)
      rw [hcolon] at hs
      exact ⟨gap, hgap, hs⟩
    · simp at h
    · simp at h
  · intro h
    obtain ⟨gap, hgap, rfl⟩ := h
    rw [readColon, skipBlanks_append gap _ hgap]
    rfl

theorem selfDelimiting_readColon : SelfDelimiting readColon := by
  intro s found rest h
  obtain ⟨gap, hgap, rfl⟩ := (readColon_eq_ok_iff s rest).mp h
  refine ⟨gap ++ [':'], by rw [List.append_assoc, List.singleton_append], ?_⟩
  intro other
  rw [List.append_assoc, List.singleton_append]
  exact (readColon_eq_ok_iff _ other).mpr ⟨gap, hgap, rfl⟩

/-! Numbers -/

def StopsNumber (c : Char) : Prop := isDigit c = false ∧ c ≠ '.' ∧ c ≠ 'e' ∧ c ≠ 'E'

/-- A rest that can stand in the place of another: it starts alike, or not as numbers go on. -/
def StandsFor (other rest : List Char) : Prop :=
  other.head? = rest.head? ∨ ∀ c, other.head? = some c → StopsNumber c

theorem StandsFor.append {other rest : List Char} (h : StandsFor other rest) (s : List Char) :
    StandsFor (s ++ other) (s ++ rest) := by
  cases s with
  | nil => exact h
  | cons c s => exact Or.inl rfl

/-- What is true of the start of a rest, and of all that stops a number, is true of the other. -/
theorem StandsFor.head {other rest : List Char} (h : StandsFor other rest) {P : Char → Prop}
    (hstops : ∀ c, StopsNumber c → P c) (hrest : ∀ c, rest.head? = some c → P c) :
    ∀ c, other.head? = some c → P c := by
  intro c hc
  rcases h with h | h
  · exact hrest c (h ▸ hc)
  · exact hstops c (h c hc)

def ReadsLocally (read : List Char → Read α) : Prop :=
  ∀ s x rest, read s = .ok (x, rest) → ∃ taken, s = taken ++ rest ∧
    ∀ other, StandsFor other rest → read (taken ++ other) = .ok (x, other)

/-- A run of digits up to what is not one. -/
theorem span_isDigit_eq_iff (s digits rest : List Char) :
    s.span isDigit = (digits, rest) ↔
      (∀ c ∈ digits, isDigit c = true) ∧ (∀ c, rest.head? = some c → isDigit c = false) ∧
        s = digits ++ rest := by
  rw [List.span_eq_takeWhile_dropWhile, Prod.mk.injEq]
  constructor
  · intro h
    obtain ⟨rfl, rfl⟩ := h
    refine ⟨fun c hc => List.mem_takeWhile_imp hc, ?_, List.takeWhile_append_dropWhile.symm⟩
    intro c hc
    have hnot := List.head?_dropWhile_not isDigit s
    rw [hc] at hnot
    exact hnot
  · intro h
    obtain ⟨hdigits, hrest, rfl⟩ := h
    rw [List.takeWhile_append_of_pos hdigits, List.dropWhile_append_of_pos hdigits]
    cases rest with
    | nil => simp
    | cons c rest => simp [hrest c rfl]

theorem digits1_eq_ok_iff (s digits rest : List Char) :
    digits1 s = .ok (digits, rest) ↔ digits ≠ [] ∧ s.span isDigit = (digits, rest) := by
  unfold digits1
  split
  · next hspan =>
    rw [hspan]
    simp +contextual [eq_comm]
  · next hspan =>
    rw [hspan]
    simp +contextual [eq_comm]
  · next found more _ hfound hspan =>
    rw [hspan, Except.ok.injEq]
    constructor
    · intro h
      obtain ⟨rfl, rfl⟩ := Prod.mk.inj h
      exact ⟨hfound, rfl⟩
    · intro h
      exact h.2

/-- Digits are read up to a rest, and up to any other that stands in its place. -/
theorem digits1_eq_ok (s digits rest : List Char) (h : digits1 s = .ok (digits, rest)) :
    ∃ first more, digits = first :: more ∧ isDigit first = true ∧ s = digits ++ rest ∧
      ∀ other, StandsFor other rest → digits1 (digits ++ other) = .ok (digits, other) := by
  obtain ⟨hne, hspan⟩ := (digits1_eq_ok_iff _ _ _).mp h
  obtain ⟨hdigits, hrest, hs⟩ := (span_isDigit_eq_iff _ _ _).mp hspan
  obtain ⟨first, more, rfl⟩ := List.exists_cons_of_ne_nil hne
  refine ⟨first, more, rfl, hdigits first List.mem_cons_self, hs, ?_⟩
  intro other hother
  have hend := hother.head (fun c hc => hc.1) hrest
  exact (digits1_eq_ok_iff _ _ _).mpr ⟨hne, (span_isDigit_eq_iff _ _ _).mpr ⟨hdigits, hend, rfl⟩⟩

theorem readsLocally_wholePart : ReadsLocally wholePart := by
  intro s digits rest h
  unfold wholePart at h
  split at h
  · next more =>
    -- A zero stands alone, so no digit comes after it.
    have hzero : digits = ['0'] ∧ more = rest ∧ ∀ c, rest.head? = some c → isDigit c = false := by
      split at h
      · next c after =>
        split at h
        · simp at h
        · next hc =>
          obtain ⟨rfl, rfl⟩ := Prod.mk.inj (Except.ok.inj h)
          exact ⟨rfl, rfl, by simpa using hc⟩
      · obtain ⟨rfl, rfl⟩ := Prod.mk.inj (Except.ok.inj h)
        exact ⟨rfl, rfl, nofun⟩
    obtain ⟨rfl, rfl, hrest⟩ := hzero
    refine ⟨['0'], rfl, ?_⟩
    intro other hother
    have hend := hother.head (fun c hc => hc.1) hrest
    cases other with
    | nil => rfl
    | cons c other => simp [wholePart, hend c rfl]
  · next hzero =>
    obtain ⟨first, more, rfl, -, rfl, htaken⟩ := digits1_eq_ok s digits rest h
    refine ⟨first :: more, rfl, ?_⟩
    intro other hother
    unfold wholePart
    split
    · next after heq =>
      obtain ⟨rfl, -⟩ := List.cons.inj heq
      exact absurd rfl (hzero (more ++ rest))
    · exact htaken other hother

theorem readsLocally_fractionPart : ReadsLocally fractionPart := by
  intro s fraction rest h
  unfold fractionPart at h
  split at h
  · next more =>
    obtain ⟨digits, hdigits, rfl⟩ := map_eq_ok h
    obtain ⟨-, -, -, -, rfl, htaken⟩ := digits1_eq_ok more digits rest hdigits
    refine ⟨'.' :: digits, rfl, ?_⟩
    intro other hother
    simp only [List.cons_append, fractionPart, htaken other hother, Except.map]
  · next hpoint =>
    obtain ⟨rfl, rfl⟩ := Prod.mk.inj (Except.ok.inj h)
    refine ⟨[], rfl, ?_⟩
    intro other hother
    have hend : ∀ c, other.head? = some c → c ≠ '.' := by
      apply hother.head (fun c hc => hc.2.1)
      intro c hc hpointed
      obtain ⟨after, rfl⟩ := List.head?_eq_some_iff.mp hc
      exact hpoint after (by rw [hpointed])
    cases other with
    | nil => rfl
    | cons c other =>
      have hc := hend c rfl
      unfold fractionPart
      split
      · simp_all
      · rfl

theorem exponentPart_eq_none (s : List Char) (h : ∀ c, s.head? = some c → ¬ (c = 'e' ∨ c = 'E')) :
    exponentPart s = .ok (none, s) := by
  cases s with
  | nil => rfl
  | cons c s =>
    unfold exponentPart
    dsimp only
    rw [if_neg (h c rfl)]

/-- An exponent without a sign. -/
theorem exponentPart_unsigned (c first : Char) (s : List Char) (hc : c = 'e' ∨ c = 'E')
    (hfirst : isDigit first = true) :
    exponentPart (c :: first :: s) = exponentDigits false (first :: s) := by
  unfold exponentPart
  dsimp only
  rw [if_pos hc]
  split
  · next heq =>
    obtain ⟨rfl, -⟩ := List.cons.inj heq
    exact absurd hfirst (by decide)
  · next heq =>
    obtain ⟨rfl, -⟩ := List.cons.inj heq
    exact absurd hfirst (by decide)
  · rfl

/-- The sign of an exponent, or none, is passed over in front of any digits. -/
theorem exists_sign (c : Char) (s : List Char) (hc : c = 'e' ∨ c = 'E') :
    ∃ sign negative digits, s = sign ++ digits ∧
      exponentPart (c :: s) = exponentDigits negative digits ∧
      ∀ first more, isDigit first = true →
        exponentPart (c :: (sign ++ first :: more)) = exponentDigits negative (first :: more) := by
  have hsigned (t : List Char) : exponentPart (c :: '+' :: t) = exponentDigits false t ∧
      exponentPart (c :: '-' :: t) = exponentDigits true t := by
    simp only [exponentPart, if_pos hc, and_self]
  unfold exponentPart
  dsimp only
  rw [if_pos hc]
  split
  · next digits =>
    exact ⟨['+'], false, digits, rfl, rfl, fun first more _ => (hsigned (first :: more)).1⟩
  · next digits =>
    exact ⟨['-'], true, digits, rfl, rfl, fun first more _ => (hsigned (first :: more)).2⟩
  · exact ⟨[], false, s, rfl, rfl, fun first more => exponentPart_unsigned c first more hc⟩

theorem exponentDigits_eq_ok (negative : Bool) (s rest : List Char)
    (exponent : Option (Bool × List Char)) (h : exponentDigits negative s = .ok (exponent, rest)) :
    ∃ first more, isDigit first = true ∧ s = first :: more ++ rest ∧
      ∀ other, StandsFor other rest →
        exponentDigits negative (first :: more ++ other) = .ok (exponent, other) := by
  obtain ⟨digits, hdigits, rfl⟩ : ∃ digits, digits1 s = .ok (digits, rest) ∧
      some (negative, digits) = exponent := map_eq_ok h
  obtain ⟨first, more, rfl, hfirst, rfl, htaken⟩ := digits1_eq_ok s digits rest hdigits
  refine ⟨first, more, hfirst, rfl, ?_⟩
  intro other hother
  simp only [exponentDigits, htaken other hother, Except.map]

theorem readsLocally_exponentPart : ReadsLocally exponentPart := by
  intro s exponent rest h
  by_cases hstart : ∀ c, s.head? = some c → ¬ (c = 'e' ∨ c = 'E')
  · rw [exponentPart_eq_none s hstart] at h
    obtain ⟨rfl, rfl⟩ := Prod.mk.inj (Except.ok.inj h)
    refine ⟨[], rfl, ?_⟩
    intro other hother
    apply exponentPart_eq_none
    apply hother.head _ hstart
    intro c hc he
    rcases he with he | he
    · exact hc.2.2.1 he
    · exact hc.2.2.2 he
  · simp only [not_forall, not_not] at hstart
    obtain ⟨c, hhead, hc⟩ := hstart
    obtain ⟨more, rfl⟩ := List.head?_eq_some_iff.mp hhead
    obtain ⟨sign, negative, digits, rfl, hpart, hsign⟩ := exists_sign c more hc
    rw [hpart] at h
    obtain ⟨first, others, hfirst, rfl, htaken⟩ := exponentDigits_eq_ok negative _ rest exponent h
    refine ⟨c :: (sign ++ first :: others), by simp, ?_⟩
    intro other hother
    rw [List.cons_append, List.append_assoc, List.cons_append, hsign first _ hfirst]
    exact htaken other hother

theorem readsLocally_readNumeral (negative : Bool) : ReadsLocally (readNumeral negative) := by
  intro s numeral rest h
  unfold readNumeral at h
  split at h
  · simp at h
  next whole afterWhole hwhole =>
  split at h
  · simp at h
  next fraction afterFraction hfraction =>
  obtain ⟨exponent, hexponent, rfl⟩ := map_eq_ok h
  obtain ⟨third, rfl, hthird⟩ := readsLocally_exponentPart _ _ _ hexponent
  obtain ⟨second, rfl, hsecond⟩ := readsLocally_fractionPart _ _ _ hfraction
  obtain ⟨first, rfl, hfirst⟩ := readsLocally_wholePart _ _ _ hwhole
  refine ⟨first ++ (second ++ third), by simp only [List.append_assoc], ?_⟩
  intro other hother
  simp only [readNumeral, List.append_assoc, hfirst _ ((hother.append third).append second),
    hsecond _ (hother.append third), hthird other hother, Except.map]

/-- The value of a numeral does not depend on what follows it. -/
theorem Numeral.value_eq_ok (numeral : Numeral) (s rest : List Char) (number : Number)
    (h : numeral.value s = .ok (number, rest)) :
    s = rest ∧ ∀ other, numeral.value other = .ok (number, other) := by
  unfold Numeral.value at h ⊢
  dsimp only at h ⊢
  -- Each way to a value goes through the same steps with any rest.
  split at h
  · split at h
    · obtain ⟨rfl, rfl⟩ := Prod.mk.inj (Except.ok.inj h)
      exact ⟨rfl, fun other => rfl⟩
    · split at h
      · obtain ⟨rfl, rfl⟩ := Prod.mk.inj (Except.ok.inj h)
        exact ⟨rfl, fun other => rfl⟩
      · simp at h
  · split at h
    · obtain ⟨rfl, rfl⟩ := Prod.mk.inj (Except.ok.inj h)
      exact ⟨rfl, fun other => rfl⟩
    · simp at h
  · split at h
    · split at h
      · simp at h
      · next hzero =>
        obtain ⟨rfl, rfl⟩ := Prod.mk.inj (Except.ok.inj h)
        exact ⟨rfl, fun other => if_neg hzero⟩
    · split at h
      · obtain ⟨rfl, rfl⟩ := Prod.mk.inj (Except.ok.inj h)
        exact ⟨rfl, fun other => rfl⟩
      · simp at h

theorem readsLocally_readNumber (negative : Bool) : ReadsLocally (readNumber negative) := by
  intro s number rest h
  unfold readNumber at h
  split at h
  · simp at h
  next numeral after hnumeral =>
  obtain ⟨rfl, hvalue⟩ := numeral.value_eq_ok after rest number h
  obtain ⟨taken, rfl, htaken⟩ := readsLocally_readNumeral negative s numeral after hnumeral
  refine ⟨taken, rfl, ?_⟩
  intro other hother
  simp only [readNumber, htaken other hother, hvalue other]

end Rubric.Json
