import Mathlib.Data.List.Induction
import Rubric.Imports.AllowList

/-!
What a list of import patterns allows, said without the order in which they are added. A module is
open when some pattern is `*` or names it as a whole, and else restricted to the parts that
patterns name from it. Adding patterns one by one comes to the same: an open module stays open,
and a restricted one keeps its parts and gains more. More patterns therefore allow more.
-/
namespace Rubric.Imports

def Pattern.partOf? (module : String) : Pattern → Option String
  | .part other name => if other = module then some name else none
  | _ => none

def Pattern.opens (module : String) (pattern : Pattern) : Bool :=
  pattern == .all || pattern == .module module

/-- Names that patterns allow from a module, in the order of the patterns. -/
def namedParts (module : String) (patterns : List String) : List String :=
  patterns.filterMap fun pattern => (Pattern.ofText pattern).partOf? module

def opensModule (module : String) (patterns : List String) : Bool :=
  patterns.any fun pattern => (Pattern.ofText pattern).opens module

def meaning (module : String) (patterns : List String) : Option Parts :=
  if opensModule module patterns then some .everything
  else
    match namedParts module patterns with
    | [] => none
    | names => some (.only names)

theorem lookup_updateModule (name other : String) (change : Option Parts → Parts)
    (entries : List (String × Parts)) :
    (updateModule name change entries).lookup other =
      if other = name then some (change (entries.lookup name)) else entries.lookup other := by
  induction entries with
  | nil =>
    by_cases hname : other = name
    · simp [updateModule, hname]
    · simp [updateModule, List.lookup_cons, hname, beq_eq_false_iff_ne.mpr hname]
  | cons entry rest ih =>
    obtain ⟨key, parts⟩ := entry
    by_cases hkey : key = name
    · subst hkey
      by_cases hname : other = key
      · simp [updateModule, hname]
      · simp [updateModule, List.lookup_cons, hname, beq_eq_false_iff_ne.mpr hname]
    · rw [updateModule, if_neg hkey, List.lookup_cons, List.lookup_cons, ih, List.lookup_cons]
      have hname : (name == key) = false := beq_eq_false_iff_ne.mpr (Ne.symm hkey)
      by_cases hother : other = key
      · simp [hother, hkey]
      · simp [beq_eq_false_iff_ne.mpr hother, hname]

namespace AllowList

/-- What one more pattern changes about a module, also once every module is allowed. -/
theorem parts?_add (list : AllowList) (pattern module : String) :
    (list.add pattern).parts? module =
      if (Pattern.ofText pattern).opens module then some .everything
      else
        match (Pattern.ofText pattern).partOf? module with
        | some name => some (Parts.addName name (list.parts? module))
        | none => list.parts? module := by
  cases list with
  | everyModule =>
    simp only [add, parts?, Parts.addName]
    split
    · rfl
    · split <;> rfl
  | modules entries =>
    cases hpattern : Pattern.ofText pattern with
    | all => simp [add, parts?, hpattern, Pattern.opens]
    | module name =>
      simp only [add, parts?, hpattern, lookup_updateModule]
      by_cases hname : module = name
      · simp [hname, Pattern.opens]
      · simp [hname, Ne.symm hname, Pattern.opens, Pattern.partOf?]
    | part other name =>
      simp only [add, parts?, hpattern, lookup_updateModule]
      by_cases hother : module = other
      · simp [hother, Pattern.opens, Pattern.partOf?]
      · simp [hother, Ne.symm hother, Pattern.opens, Pattern.partOf?]

end AllowList

theorem opensModule_concat (module : String) (patterns : List String) (pattern : String) :
    opensModule module (patterns ++ [pattern]) =
      (opensModule module patterns || (Pattern.ofText pattern).opens module) := by
  simp [opensModule]

theorem namedParts_concat (module : String) (patterns : List String) (pattern : String) :
    namedParts module (patterns ++ [pattern]) =
      namedParts module patterns ++ ((Pattern.ofText pattern).partOf? module).toList := by
  rw [namedParts, List.filterMap_append]
  cases hpart : (Pattern.ofText pattern).partOf? module with
  | none => simp [namedParts, hpart]
  | some name => simp [namedParts, hpart]

/-- Adding a name to what patterns allow of a module. -/
theorem addName_meaning (module name : String) (patterns : List String) :
    Parts.addName name (meaning module patterns) =
      if opensModule module patterns then .everything
      else .only (namedParts module patterns ++ [name]) := by
  unfold meaning
  split
  · rfl
  · cases namedParts module patterns with
    | nil => rfl
    | cons first rest => rfl

/-- The meaning changes with one more pattern as an allow-list does. -/
theorem meaning_concat (module : String) (patterns : List String) (pattern : String) :
    meaning module (patterns ++ [pattern]) =
      if (Pattern.ofText pattern).opens module then some .everything
      else
        match (Pattern.ofText pattern).partOf? module with
        | some name => some (Parts.addName name (meaning module patterns))
        | none => meaning module patterns := by
  rw [meaning, opensModule_concat, namedParts_concat]
  by_cases hopens : (Pattern.ofText pattern).opens module = true
  · simp [hopens]
  · rw [if_neg hopens, Bool.eq_false_iff.mpr hopens, Bool.or_false]
    cases hpart : (Pattern.ofText pattern).partOf? module with
    | none =>
      simp only [Option.toList_none, List.append_nil]
      rfl
    | some name =>
      simp only [Option.toList_some, addName_meaning]
      by_cases hopen : opensModule module patterns = true
      · rw [if_pos hopen, if_pos hopen]
      · rw [if_neg hopen, if_neg hopen]
        cases namedParts module patterns <;> rfl

/-- The parts of a module after all patterns have been added. -/
theorem parts?_ofPatterns (module : String) (patterns : List String) :
    (AllowList.ofPatterns patterns).parts? module = meaning module patterns := by
  induction patterns using List.reverseRecOn with
  | nil => rfl
  | append_singleton patterns pattern ih =>
    have hadd : AllowList.ofPatterns (patterns ++ [pattern]) =
        (AllowList.ofPatterns patterns).add pattern := by
      simp only [AllowList.ofPatterns, List.foldl_append, List.foldl_cons, List.foldl_nil]
    rw [hadd, AllowList.parts?_add, ih, meaning_concat]

/-- Names may be imported from an open module, or when they are all named and some name is. -/
theorem allows_ofPatterns (module : String) (names patterns : List String) :
    (AllowList.ofPatterns patterns).allows module names = true ↔
      opensModule module patterns = true ∨
        namedParts module patterns ≠ [] ∧ ∀ name ∈ names, name ∈ namedParts module patterns := by
  rw [AllowList.allows, parts?_ofPatterns, meaning]
  by_cases hopen : opensModule module patterns = true
  · simp [hopen, Parts.allows]
  · simp only [hopen]
    cases namedParts module patterns with
    | nil => simp
    | cons first rest => simp [Parts.allows]

theorem opensModule_mono (module : String) (small large : List String) (h : small ⊆ large)
    (hopen : opensModule module small = true) : opensModule module large = true := by
  unfold opensModule at hopen ⊢
  rw [List.any_eq_true] at hopen ⊢
  obtain ⟨pattern, hmem, hopens⟩ := hopen
  exact ⟨pattern, h hmem, hopens⟩

theorem namedParts_mono (module : String) (small large : List String) (h : small ⊆ large) :
    namedParts module small ⊆ namedParts module large := by
  intro name hname
  obtain ⟨pattern, hmem, hpart⟩ := List.mem_filterMap.mp hname
  exact List.mem_filterMap.mpr ⟨pattern, h hmem, hpart⟩

/-- More patterns allow more, in whatever order they stand. -/
theorem allows_mono (module : String) (names small large : List String) (h : small ⊆ large)
    (hallows : (AllowList.ofPatterns small).allows module names = true) :
    (AllowList.ofPatterns large).allows module names = true := by
  rw [allows_ofPatterns] at hallows ⊢
  rcases hallows with hopen | ⟨hne, hnames⟩
  · exact Or.inl (opensModule_mono module small large h hopen)
  · have hsubset := namedParts_mono module small large h
    refine Or.inr ⟨?_, fun name hname => hsubset (hnames name hname)⟩
    intro hnil
    exact hne (List.subset_nil.mp (hnil ▸ hsubset))

end Rubric.Imports
