import Rubric.Proofs.AllowedNames

/-!
Import patterns read off their text. A pattern with a dot names a part of a module: the module
stands before the first dot and the part after the last one, so neither holds a dot. What a list
of patterns allows is said here by such texts alone, without taking patterns apart. A module whose
own name holds a dot is named by no pattern.
-/
namespace Rubric.Imports

/-- A pattern that starts with a module and a dot and ends with a dot and a part. -/
structure Dotted (pattern module part : String) : Prop where
  noDotInModule : '.' ∉ module.toList
  noDotInPart : '.' ∉ part.toList
  startsWith : ∃ rest, pattern = module ++ "." ++ rest
  endsWith : ∃ rest, pattern = rest ++ "." ++ part

/-- The parts that patterns name from a module, in the order of the patterns and as often as they
are named. -/
inductive PartsInOrder (module : String) : List String → List String → Prop where
  | nil : PartsInOrder module [] []
  | named {pattern part : String} {patterns parts : List String}
      (h : Dotted pattern module part) (rest : PartsInOrder module patterns parts) :
      PartsInOrder module (pattern :: patterns) (part :: parts)
  | skipped {pattern : String} {patterns parts : List String}
      (h : ∀ part, ¬ Dotted pattern module part) (rest : PartsInOrder module patterns parts) :
      PartsInOrder module (pattern :: patterns) parts

/-! Cutting a text at its dots -/

theorem takeWhile_ne_dot (before rest : List Char) (h : '.' ∉ before) :
    (before ++ '.' :: rest).takeWhile (· ≠ '.') = before := by
  have hbefore : ∀ c ∈ before, decide (c ≠ '.') = true := by
    intro c hc
    rw [decide_eq_true_iff]
    rintro rfl
    exact h hc
  rw [List.takeWhile_append_of_pos hbefore]
  simp

theorem beforeFirstDot_append (module rest : String) (h : '.' ∉ module.toList) :
    beforeFirstDot (module ++ "." ++ rest) = module := by
  have htext : (module ++ "." ++ rest).toList = module.toList ++ '.' :: rest.toList := by simp
  rw [beforeFirstDot, htext, takeWhile_ne_dot _ _ h, String.ofList_toList]

theorem afterLastDot_append (rest part : String) (h : '.' ∉ part.toList) :
    afterLastDot (rest ++ "." ++ part) = part := by
  have htext : (rest ++ "." ++ part).toList.reverse =
      part.toList.reverse ++ '.' :: rest.toList.reverse := by simp
  rw [afterLastDot, htext, takeWhile_ne_dot _ _ (by simpa using h), List.reverse_reverse,
    String.ofList_toList]

/-- Every text with a dot has a first one and a last one. -/
theorem dotted_of_mem (pattern : String) (h : '.' ∈ pattern.toList) :
    Dotted pattern (beforeFirstDot pattern) (afterLastDot pattern) := by
  obtain ⟨before, rest, hfirst, hbefore⟩ := List.eq_append_cons_of_mem h
  obtain ⟨after, others, hlast, hafter⟩ :=
    List.eq_append_cons_of_mem (List.mem_reverse.mpr h)
  have hstart : pattern = String.ofList before ++ "." ++ String.ofList rest := by
    apply String.toList_inj.mp
    simp [hfirst]
  have hend : pattern = String.ofList others.reverse ++ "." ++ String.ofList after.reverse := by
    apply String.toList_inj.mp
    have hreverse := congrArg List.reverse hlast
    simpa using hreverse
  have hmodule : beforeFirstDot pattern = String.ofList before := by
    rw [hstart]
    exact beforeFirstDot_append _ _ (by simpa using hbefore)
  have hpart : afterLastDot pattern = String.ofList after.reverse := by
    rw [hend]
    exact afterLastDot_append _ _ (by simpa using hafter)
  rw [hmodule, hpart]
  exact ⟨by simpa using hbefore, by simpa using hafter, ⟨_, hstart⟩, ⟨_, hend⟩⟩

theorem Dotted.mem {pattern module part : String} (h : Dotted pattern module part) :
    '.' ∈ pattern.toList := by
  obtain ⟨rest, rfl⟩ := h.startsWith
  simp

theorem Dotted.beforeFirstDot {pattern module part : String} (h : Dotted pattern module part) :
    beforeFirstDot pattern = module := by
  obtain ⟨rest, rfl⟩ := h.startsWith
  exact beforeFirstDot_append module rest h.noDotInModule

theorem Dotted.afterLastDot {pattern module part : String} (h : Dotted pattern module part) :
    afterLastDot pattern = part := by
  obtain ⟨rest, rfl⟩ := h.endsWith
  exact afterLastDot_append rest part h.noDotInPart

/-! What one pattern allows -/

theorem ofText_of_mem (pattern : String) (h : '.' ∈ pattern.toList) :
    Pattern.ofText pattern = .part (beforeFirstDot pattern) (afterLastDot pattern) := by
  have hstar : pattern ≠ "*" := by
    rintro rfl
    simp at h
  rw [Pattern.ofText, if_neg hstar, if_pos (by simpa using h)]

theorem ofText_of_not_mem (pattern : String) (h : '.' ∉ pattern.toList) :
    Pattern.ofText pattern = if pattern = "*" then .all else .module pattern := by
  rw [Pattern.ofText]
  split
  · rfl
  · rw [if_neg (by simpa using h)]

theorem partOf?_eq_some_iff (pattern module part : String) :
    (Pattern.ofText pattern).partOf? module = some part ↔ Dotted pattern module part := by
  by_cases hdot : '.' ∈ pattern.toList
  · rw [ofText_of_mem pattern hdot, Pattern.partOf?]
    constructor
    · intro h
      split at h
      · next hmodule =>
        obtain rfl := Option.some.inj h
        exact hmodule ▸ dotted_of_mem pattern hdot
      · simp at h
    · intro h
      rw [h.beforeFirstDot, h.afterLastDot, if_pos rfl]
  · constructor
    · intro h
      rw [ofText_of_not_mem pattern hdot] at h
      split at h <;> simp [Pattern.partOf?] at h
    · intro h
      exact absurd h.mem hdot

theorem opens_iff (pattern module : String) :
    (Pattern.ofText pattern).opens module = true ↔
      pattern = "*" ∨ '.' ∉ module.toList ∧ pattern = module := by
  by_cases hdot : '.' ∈ pattern.toList
  · rw [ofText_of_mem pattern hdot]
    constructor
    · simp [Pattern.opens]
    · rintro (rfl | ⟨hmodule, rfl⟩)
      · simp at hdot
      · exact absurd hdot hmodule
  · rw [ofText_of_not_mem pattern hdot]
    by_cases hstar : pattern = "*"
    · simp [hstar, Pattern.opens]
    · simp only [hstar, if_false, Pattern.opens, false_or]
      constructor
      · intro h
        obtain rfl : pattern = module := by simpa using h
        exact ⟨hdot, rfl⟩
      · rintro ⟨-, rfl⟩
        simp

/-! What a list of patterns allows -/

theorem opensModule_iff (module : String) (patterns : List String) :
    opensModule module patterns = true ↔
      "*" ∈ patterns ∨ '.' ∉ module.toList ∧ module ∈ patterns := by
  rw [opensModule, List.any_eq_true]
  simp only [opens_iff]
  constructor
  · rintro ⟨pattern, hmem, rfl | ⟨hdot, rfl⟩⟩
    · exact Or.inl hmem
    · exact Or.inr ⟨hdot, hmem⟩
  · rintro (hstar | ⟨hdot, hmem⟩)
    · exact ⟨"*", hstar, Or.inl rfl⟩
    · exact ⟨module, hmem, Or.inr ⟨hdot, rfl⟩⟩

theorem mem_namedParts_iff (module part : String) (patterns : List String) :
    part ∈ namedParts module patterns ↔ ∃ pattern ∈ patterns, Dotted pattern module part := by
  simp only [namedParts, List.mem_filterMap, partOf?_eq_some_iff]

theorem namedParts_ne_nil_iff (module : String) (patterns : List String) :
    namedParts module patterns ≠ [] ↔
      ∃ pattern ∈ patterns, ∃ part, Dotted pattern module part := by
  constructor
  · intro hne
    obtain ⟨part, hpart⟩ := List.exists_mem_of_ne_nil _ hne
    obtain ⟨pattern, hmem, h⟩ := (mem_namedParts_iff module part patterns).mp hpart
    exact ⟨pattern, hmem, part, h⟩
  · rintro ⟨pattern, hmem, part, h⟩
    exact List.ne_nil_of_mem ((mem_namedParts_iff module part patterns).mpr ⟨pattern, hmem, h⟩)

theorem partsInOrder_namedParts (module : String) (patterns : List String) :
    PartsInOrder module patterns (namedParts module patterns) := by
  induction patterns with
  | nil => exact .nil
  | cons pattern patterns ih =>
    cases hpart : (Pattern.ofText pattern).partOf? module with
    | none =>
      have hparts : namedParts module (pattern :: patterns) = namedParts module patterns := by
        simp only [namedParts, List.filterMap_cons, hpart]
      rw [hparts]
      refine .skipped ?_ ih
      intro part h
      rw [(partOf?_eq_some_iff pattern module part).mpr h] at hpart
      simp at hpart
    | some part =>
      have hparts : namedParts module (pattern :: patterns) =
          part :: namedParts module patterns := by
        simp only [namedParts, List.filterMap_cons, hpart]
      rw [hparts]
      exact .named ((partOf?_eq_some_iff pattern module part).mp hpart) ih

namespace AllowList

theorem parts?_ofPatterns_cases (patterns : List String) (module : String) :
    (ofPatterns patterns).parts? module =
      if "*" ∈ patterns then some .everything
      else if '.' ∉ module.toList ∧ module ∈ patterns then some .everything
      else if namedParts module patterns = [] then none
      else some (.only (namedParts module patterns)) := by
  have hopens := opensModule_iff module patterns
  rw [parts?_ofPatterns, meaning]
  by_cases hstar : "*" ∈ patterns
  · rw [if_pos hstar, if_pos (hopens.mpr (Or.inl hstar))]
  · rw [if_neg hstar]
    by_cases hlisted : '.' ∉ module.toList ∧ module ∈ patterns
    · rw [if_pos hlisted, if_pos (hopens.mpr (Or.inr hlisted))]
    · have hclosed : ¬ opensModule module patterns = true := fun h =>
        (hopens.mp h).elim hstar hlisted
      rw [if_neg hlisted, if_neg hclosed]
      cases namedParts module patterns <;> rfl

theorem allows_ofPatterns_iff (patterns : List String) (module : String) (names : List String) :
    (ofPatterns patterns).allows module names = true ↔
      "*" ∈ patterns ∨ ('.' ∉ module.toList ∧ module ∈ patterns) ∨
        (∃ pattern ∈ patterns, ∃ part, Dotted pattern module part) ∧
          ∀ name ∈ names, ∃ pattern ∈ patterns, Dotted pattern module name := by
  simp only [allows_ofPatterns, opensModule_iff, namedParts_ne_nil_iff, mem_namedParts_iff,
    or_assoc]

/-- What patterns allow from a module: everything under `*` or under the bare name of the module,
else the parts that dotted patterns name from it, in their order. A name with a dot in it can only
be allowed by `*`. -/
theorem ofPatterns_allows_as_listed (patterns : List String) (module : String) :
    (∃ parts, PartsInOrder module patterns parts ∧
      (ofPatterns patterns).parts? module =
        if "*" ∈ patterns then some .everything
        else if '.' ∉ module.toList ∧ module ∈ patterns then some .everything
        else if parts = [] then none
        else some (.only parts)) ∧
    (∀ names : List String, (ofPatterns patterns).allows module names = true ↔
      "*" ∈ patterns ∨ ('.' ∉ module.toList ∧ module ∈ patterns) ∨
        (∃ pattern ∈ patterns, ∃ part, Dotted pattern module part) ∧
          ∀ name ∈ names, ∃ pattern ∈ patterns, Dotted pattern module name) ∧
    ('.' ∈ module.toList → "*" ∉ patterns →
      ∀ names : List String, (ofPatterns patterns).allows module names = false) := by
  refine ⟨⟨namedParts module patterns, partsInOrder_namedParts module patterns,
    parts?_ofPatterns_cases patterns module⟩, allows_ofPatterns_iff patterns module, ?_⟩
  intro hdot hstar names
  rw [Bool.eq_false_iff]
  intro hallows
  rcases (allows_ofPatterns_iff patterns module names).mp hallows with
    hall | ⟨hfree, -⟩ | ⟨⟨pattern, -, part, hdotted⟩, -⟩
  · exact hstar hall
  · exact hfree hdot
  · exact hdotted.noDotInModule hdot

/-- A relative path is refused even where it is listed, whole or with a part: such patterns name
parts of the module without a name. -/
theorem ofPatterns_allows_as_listed_relative_path :
    let patterns := ["./utils", "./utils.f", ".a..b", "fs.read", "fs.read"]
    '.' ∈ "./utils".toList ∧ "*" ∉ patterns ∧
      (ofPatterns patterns).allows "./utils" [] = false ∧
      (ofPatterns patterns).parts? "" = some (.only ["/utils", "f", "b"]) ∧
      PartsInOrder "" patterns ["/utils", "f", "b"] := by
  intro patterns
  have hdot : '.' ∈ "./utils".toList := by decide
  have hstar : "*" ∉ patterns := by decide
  have hrefused := (ofPatterns_allows_as_listed patterns "./utils").2.2 hdot hstar []
  obtain ⟨parts, hparts, hequal⟩ := (ofPatterns_allows_as_listed patterns "").1
  have hknown : (ofPatterns patterns).parts? "" = some (.only ["/utils", "f", "b"]) := by
    decide +kernel
  refine ⟨hdot, hstar, hrefused, hknown, ?_⟩
  rw [hknown, if_neg hstar, if_neg (by decide)] at hequal
  split at hequal
  · simp at hequal
  · simp only [Option.some.injEq, Parts.only.injEq] at hequal
    exact hequal ▸ hparts

end AllowList

end Rubric.Imports
