import Mathlib.Tactic.MkIffOfInductiveProp
import Rubric.Files.Tree

/-!
Paths that are joined from a directory and a name. The name is the last segment, so it decides the
extension, however the directory is written. Where the directory leads somewhere, the joined path
takes one more step from there, unless it has become too long to be followed.
-/
namespace Rubric

/-- A name that an entry of a directory can have. -/
@[mk_iff]
structure Files.IsName (name : String) : Prop where
  nonempty : name.toList ≠ []
  noSlash : '/' ∉ name.toList
  noNull : '\x00' ∉ name.toList
  ne_dot : name.toList ≠ ['.']
  ne_dots : name.toList ≠ ['.', '.']
  short : name.utf8ByteSize ≤ nameLimit

instance (name : String) : Decidable (Files.IsName name) :=
  decidable_of_iff _ (Files.isName_iff name).symm

namespace Path

theorem splitSlash_ne_nil (text : List Char) : splitSlash text ≠ [] := by
  cases text with
  | nil => simp [splitSlash]
  | cons c rest =>
    unfold splitSlash
    split
    · simp
    · split <;> simp

theorem splitSlash_append (left right : List Char) :
    splitSlash (left ++ '/' :: right) = splitSlash left ++ splitSlash right := by
  induction left with
  | nil =>
    obtain ⟨segment, segments, hright⟩ := List.exists_cons_of_ne_nil (splitSlash_ne_nil right)
    simp [splitSlash, hright]
  | cons c rest ih =>
    obtain ⟨segment, segments, hrest⟩ := List.exists_cons_of_ne_nil (splitSlash_ne_nil rest)
    rw [List.cons_append, splitSlash, ih, splitSlash, hrest, List.cons_append]
    by_cases hslash : c = '/'
    · simp [hslash]
    · simp [hslash]

theorem splitSlash_of_not_mem (text : List Char) (h : '/' ∉ text) : splitSlash text = [text] := by
  induction text with
  | nil => rfl
  | cons c rest ih =>
    rw [List.mem_cons, not_or] at h
    have hslash : c ≠ '/' := Ne.symm h.1
    simp [splitSlash, ih h.2, hslash]

theorem isAbsolute_of_isName (name : String) (h : Files.IsName name) :
    isAbsolute ⟨name⟩ = false := by
  obtain ⟨c, rest, hchars⟩ := List.exists_cons_of_ne_nil h.nonempty
  have hslash : c ≠ '/' := by
    rintro rfl
    exact h.noSlash (by simp [hchars])
  simp [isAbsolute, hchars, hslash]

/-- A joined path is the name itself, the name behind a slash that is there already, or the name
behind a slash of its own. -/
theorem join_cases (directory : Path) (name : String) (h : Files.IsName name) :
    (directory.text.toList = [] ∧ (directory.join ⟨name⟩).text.toList = name.toList) ∨
      (∃ before, directory.text.toList = before ++ ['/'] ∧
        (directory.join ⟨name⟩).text.toList = before ++ '/' :: name.toList) ∨
      (directory.text.toList ≠ [] ∧
        (directory.join ⟨name⟩).text.toList = directory.text.toList ++ '/' :: name.toList) := by
  have hrelative := isAbsolute_of_isName name h
  rcases List.eq_nil_or_concat directory.text.toList with hempty | ⟨before, last, hlast⟩
  · have htext : directory.text = "" := String.toList_eq_nil_iff.mp hempty
    exact Or.inl ⟨hempty, by simp [join, hrelative, htext]⟩
  · rw [List.concat_eq_append] at hlast
    have hne : directory.text ≠ "" := by
      intro htext
      simp [htext] at hlast
    by_cases hslash : last = '/'
    · subst hslash
      exact Or.inr (Or.inl ⟨before, hlast, by simp [join, hrelative, hlast]⟩)
    · refine Or.inr (Or.inr ⟨by simp [hlast], ?_⟩)
      simp [join, hrelative, hlast, hslash, hne]

/-- The segments of a joined path end with the name. Those before it are the directory's, but for
an empty one after a slash at its end. -/
theorem segments_join (directory : Path) (name : String) (h : Files.IsName name) :
    ∃ front, (directory.join ⟨name⟩).segments = front ++ [name.toList] ∧
      (directory.text.toList ≠ [] →
        directory.segments = front ∨ directory.segments = front ++ [[]]) := by
  have hname := splitSlash_of_not_mem name.toList h.noSlash
  rcases join_cases directory name h with ⟨hempty, hjoin⟩ | ⟨before, htext, hjoin⟩ | ⟨-, hjoin⟩
  · exact ⟨[], by rw [segments, hjoin, hname, List.nil_append], fun hne => absurd hempty hne⟩
  · refine ⟨splitSlash before, by rw [segments, hjoin, splitSlash_append, hname], fun _ => ?_⟩
    right
    rw [segments, htext, splitSlash_append]
    rfl
  · exact ⟨directory.segments, by rw [segments, hjoin, splitSlash_append, hname]; rfl,
      fun _ => Or.inl rfl⟩

/-- A joined path starts with the directory. Behind it stand the name and a slash at most. -/
theorem toList_join (directory : Path) (name : String) (h : Files.IsName name) :
    ∃ rest, (directory.join ⟨name⟩).text.toList = directory.text.toList ++ rest ∧
      ∀ c ∈ rest, c = '/' ∨ c ∈ name.toList := by
  rcases join_cases directory name h with ⟨hempty, hjoin⟩ | ⟨before, htext, hjoin⟩ | ⟨-, hjoin⟩
  · exact ⟨name.toList, by rw [hjoin, hempty, List.nil_append], fun c hc => Or.inr hc⟩
  · exact ⟨name.toList, by simp [hjoin, htext], fun c hc => Or.inr hc⟩
  · exact ⟨'/' :: name.toList, hjoin, fun c hc => List.mem_cons.mp hc⟩

theorem fileName?_join (directory : Path) (name : String) (h : Files.IsName name) :
    (directory.join ⟨name⟩).fileName? = some name.toList := by
  obtain ⟨front, hsegments, -⟩ := segments_join directory name h
  have hnamed : dropUnnamed (name.toList :: front.reverse) = name.toList :: front.reverse := by
    cases front.reverse with
    | nil => simp [dropUnnamed, h.nonempty]
    | cons next rest => simp [dropUnnamed, h.nonempty, h.ne_dot]
  rw [fileName?, hsegments, List.reverse_append, List.reverse_singleton, List.singleton_append,
    hnamed]
  simp [h.ne_dot, h.ne_dots]

/-- The name decides the extension. -/
theorem extension?_join (directory : Path) (name : String) (h : Files.IsName name) :
    (directory.join ⟨name⟩).extension? = extensionOf? name.toList := by
  rw [extension?, fileName?_join directory name h, Option.bind_some]

end Path

namespace Files

theorem locate_eq_ok (files : Files) (path : Path) (place : List String) :
    files.locate path = .ok place ↔
      '\x00' ∉ path.text.toList ∧ path.text ≠ "" ∧ path.text.utf8ByteSize ≤ pathLimit ∧
        path.segments.foldlM files.step (if path.isAbsolute then [] else files.current) =
          .ok place := by
  unfold locate
  split
  · next hnull => simp_all
  · next hnull =>
    split
    · next hempty => simp_all
    · next hempty =>
      split
      · next hlong =>
        have hnot : ¬ path.text.utf8ByteSize ≤ pathLimit := Nat.not_le.mpr hlong
        simp [hnot]
      · next hlong =>
        have hle := Nat.le_of_not_lt hlong
        simp_all

/-- An empty segment leads nowhere else. -/
theorem step_nil (files : Files) (place next : List String) (h : files.step place [] = .ok next) :
    next = place := by
  unfold step at h
  split at h
  · simp at h
  · simp at h
  · simpa using h.symm

/-- The segments before the name lead to where the directory does. -/
theorem foldlM_front (files : Files) (directory : Path) (front : List Path.Segment)
    (start place : List String)
    (hfront : directory.segments = front ∨ directory.segments = front ++ [[]])
    (h : directory.segments.foldlM files.step start = .ok place) :
    front.foldlM files.step start = .ok place := by
  rcases hfront with hfront | hfront
  · rw [← hfront, h]
  · rw [hfront, List.foldlM_append] at h
    cases hfold : front.foldlM files.step start with
    | error fault => simp [hfold, bind, Except.bind] at h
    | ok last =>
      simp only [hfold, bind, Except.bind, List.foldlM_cons, List.foldlM_nil] at h
      cases hlast : files.step last [] with
      | error fault => simp [hlast] at h
      | ok next =>
        rw [hlast] at h
        rw [← Except.ok.inj h, step_nil files last next hlast]

/-- Below a directory that leads somewhere, a name is looked up there. -/
theorem locate_join (files : Files) (directory : Path) (name : String) (place : List String)
    (hname : IsName name) (hdirectory : files.locate directory = .ok place)
    (hroom : (directory.join ⟨name⟩).text.utf8ByteSize ≤ pathLimit) :
    files.locate (directory.join ⟨name⟩) = files.step place name.toList := by
  obtain ⟨hnull, hne, -, hfold⟩ := (locate_eq_ok files directory place).mp hdirectory
  have hchars : directory.text.toList ≠ [] := fun h => hne (String.toList_eq_nil_iff.mp h)
  obtain ⟨front, hsegments, hfront⟩ := Path.segments_join directory name hname
  obtain ⟨rest, hjoin, hrest⟩ := Path.toList_join directory name hname
  have habsolute : (directory.join ⟨name⟩).isAbsolute = directory.isAbsolute := by
    obtain ⟨first, others, hfirst⟩ := List.exists_cons_of_ne_nil hchars
    rw [Path.isAbsolute, Path.isAbsolute, hjoin, hfirst, List.cons_append, List.head?_cons,
      List.head?_cons]
  have hnone : '\x00' ∉ (directory.join ⟨name⟩).text.toList := by
    rw [hjoin, List.mem_append, not_or]
    refine ⟨hnull, fun hmem => ?_⟩
    rcases hrest _ hmem with hslash | hmem
    · exact absurd hslash (by decide)
    · exact hname.noNull hmem
  have hsome : (directory.join ⟨name⟩).text ≠ "" := by
    intro hempty
    rw [← String.toList_eq_nil_iff, hjoin] at hempty
    exact hchars (List.append_eq_nil_iff.mp hempty).1
  -- Both walks start at the same place, and the name is one more step of the longer one.
  have hplace := foldlM_front files directory front _ place (hfront hchars) hfold
  have hlocate : files.locate (directory.join ⟨name⟩) =
      (directory.join ⟨name⟩).segments.foldlM files.step
        (if (directory.join ⟨name⟩).isAbsolute then [] else files.current) := by
    simp [locate, hnone, hsome, Nat.not_lt.mpr hroom]
  rw [hlocate, habsolute, hsegments, List.foldlM_append, hplace]
  cases hstep : files.step place name.toList <;> simp [bind, Except.bind, hstep, pure, Except.pure]

end Files

end Rubric
