import Rubric.Proofs.Occurrences
import Rubric.Proofs.StarterDocument

/-!
The search for a rules document. A path that is given is judged by its extension alone. Without one
the places are tried in the order of their priority and the first file is taken; the names that are
looked for all have an extension that names a format, whatever their directory, so what is found is
never refused. Reading a document by the format that was found is reading it by its path.
-/
namespace Rubric

namespace Rules

def Format.extension : Format → Path.Segment
  | json => "json".toList
  | toml => "toml".toList

theorem Format.ofPath?_eq_some_iff (path : Path) (format : Format) :
    ofPath? path = some format ↔ path.extension? = some format.extension := by
  have hextensions : json.extension = ['j', 's', 'o', 'n'] ∧
      toml.extension = ['t', 'o', 'm', 'l'] := ⟨rfl, rfl⟩
  unfold ofPath?
  split
  · next hjson => cases format <;> simp [hjson, hextensions]
  · next htoml => cases format <;> simp [htoml, hextensions]
  · next hjson htoml =>
    cases format with
    | json => simpa [hextensions] using hjson
    | toml => simpa [hextensions] using htoml

theorem Format.ofPath?_eq_none_iff (path : Path) :
    ofPath? path = none ↔ ∀ format : Format, path.extension? ≠ some format.extension := by
  simp only [Option.eq_none_iff_forall_ne_some, Ne, ofPath?_eq_some_iff]

/-- Reading by a path is reading in the format that its extension names. -/
theorem ofFile_of_ofPath? (files : Files) (path : Path) (format : Format)
    (h : Format.ofPath? path = some format) : ofFile files path = format.load files path := by
  have hextension := (Format.ofPath?_eq_some_iff path format).mp h
  unfold ofFile
  rw [hextension]
  cases format <;> rfl

end Rules

namespace Located

/-- Where rules are looked for when no path is given, first things first. -/
def priorities (project : Path) (global : Option Path) : List (Path × Origin) :=
  [(project.join ⟨"rule-enforcer.json"⟩, .submission),
    (project.join ⟨".rule-enforcer.json"⟩, .submission),
    (project.join ⟨"rule-enforcer.toml"⟩, .submission)] ++
  global.toList.flatMap fun directory =>
    [(directory.join ⟨"rules.json"⟩, .global), (directory.join ⟨"rules.toml"⟩, .global)]

theorem candidates_eq (project : Path) (global : Option Path) :
    candidates project global = priorities project global := by
  cases global <;> rfl

/-- Names that are looked for are names of documents. -/
theorem isName_and_ofPath? :
    ∀ name ∈ submissionNames ++ globalNames,
      Files.IsName name ∧ (Rules.Format.ofPath? ⟨name⟩).isSome = true := by
  decide

/-- Whatever the directories, every place has a format. -/
theorem exists_ofPath?_of_mem (project : Path) (global : Option Path) (place : Path × Origin)
    (h : place ∈ candidates project global) :
    ∃ format, Rules.Format.ofPath? place.1 = some format := by
  have hjoined (directory : Path) (name : String) (hname : name ∈ submissionNames ++ globalNames) :
      ∃ format, Rules.Format.ofPath? (directory.join ⟨name⟩) = some format := by
    obtain ⟨hvalid, hformat⟩ := isName_and_ofPath? name hname
    rw [Rules.Format.ofPath?_join directory name hvalid]
    exact Option.isSome_iff_exists.mp hformat
  rcases List.mem_append.mp h with hplace | hplace
  · obtain ⟨name, hname, rfl⟩ := List.mem_map.mp hplace
    exact hjoined project name (List.mem_append_left _ hname)
  · cases global with
    | none => simp at hplace
    | some directory =>
      obtain ⟨name, hname, rfl⟩ := List.mem_map.mp hplace
      exact hjoined directory name (List.mem_append_right _ hname)

theorem ofPath_eq_ok_iff (path : Path) (origin : Origin) (located : Located) :
    ofPath path origin = .ok located ↔
      located.path = path ∧ located.origin = origin ∧
        Rules.Format.ofPath? path = some located.format := by
  unfold ofPath
  split
  · next format hformat =>
    obtain ⟨other, kind, source⟩ := located
    simp [hformat, eq_comm, and_comm, and_left_comm]
  · next hnone => simp [hnone]

theorem search?_eq_some_iff (files : Files) (project : Path) (global : Option Path)
    (place : Path × Origin) :
    search? files project global = some place ↔
      FirstWith (fun place => files.isFile place.1 = true) (priorities project global) place := by
  rw [search?, candidates_eq, find?_eq_some_iff_firstWith]

theorem search?_eq_none_iff (files : Files) (project : Path) (global : Option Path) :
    search? files project global = none ↔
      ∀ place ∈ priorities project global, files.isFile place.1 = false := by
  simp only [search?, candidates_eq, List.find?_eq_none, Bool.not_eq_true]

/-- Without a given path, the search decides, and what it finds is never refused. -/
theorem resolve_none (files : Files) (project : Path) (global : Option Path) :
    (search? files project global = none ∧
      resolve files project none global = .error (.notFound project)) ∨
    ∃ place format, search? files project global = some place ∧
      resolve files project none global = .ok ⟨place.1, format, place.2⟩ := by
  unfold resolve
  cases hsearch : search? files project global with
  | none => exact Or.inl ⟨rfl, rfl⟩
  | some place =>
    obtain ⟨format, hformat⟩ := exists_ofPath?_of_mem project global place
      (List.mem_of_find?_eq_some hsearch)
    exact Or.inr ⟨place, format, rfl, by simp only [ofPath, hformat]⟩

theorem resolve_none_eq_ok_iff (files : Files) (project : Path) (global : Option Path) (path : Path)
    (origin : Origin) :
    (∃ format, resolve files project none global = .ok ⟨path, format, origin⟩) ↔
      FirstWith (fun place => files.isFile place.1 = true) (priorities project global)
        (path, origin) := by
  rw [← search?_eq_some_iff]
  rcases resolve_none files project global with
    ⟨hsearch, hresolve⟩ | ⟨place, format, hsearch, hresolve⟩
  · simp [hresolve, hsearch]
  · rw [hresolve, hsearch]
    constructor
    · intro h
      obtain ⟨other, hother⟩ := h
      obtain ⟨rfl, -, rfl⟩ := Located.mk.inj (Except.ok.inj hother)
      rfl
    · intro h
      obtain rfl := Option.some.inj h
      exact ⟨format, rfl⟩

theorem resolve_none_eq_notFound_iff (files : Files) (project : Path) (global : Option Path)
    (directory : Path) :
    resolve files project none global = .error (.notFound directory) ↔
      directory = project ∧ ∀ place ∈ priorities project global, files.isFile place.1 = false := by
  rw [← search?_eq_none_iff]
  rcases resolve_none files project global with
    ⟨hsearch, hresolve⟩ | ⟨place, format, hsearch, hresolve⟩
  · rw [hresolve]
    simp [hsearch, eq_comm]
  · simp [hresolve, hsearch]

theorem resolve_none_ne_unsupported (files : Files) (project : Path) (global : Option Path)
    (path : Path) : resolve files project none global ≠ .error (.unsupported path) := by
  rcases resolve_none files project global with ⟨-, hresolve⟩ | ⟨place, format, -, hresolve⟩
  · simp [hresolve]
  · simp [hresolve]

/-- The format of what is found is that of its path. -/
theorem ofPath?_of_resolve (files : Files) (project : Path) (explicit global : Option Path)
    (located : Located) (h : resolve files project explicit global = .ok located) :
    Rules.Format.ofPath? located.path = some located.format := by
  have hofPath (path : Path) (origin : Origin) (hpath : ofPath path origin = .ok located) :
      Rules.Format.ofPath? located.path = some located.format := by
    obtain ⟨rfl, -, hformat⟩ := (ofPath_eq_ok_iff path origin located).mp hpath
    exact hformat
  cases explicit with
  | some path => exact hofPath path .explicit h
  | none =>
    unfold resolve at h
    cases hsearch : search? files project global with
    | none => simp [hsearch] at h
    | some place =>
      simp only [hsearch] at h
      exact hofPath place.1 place.2 h

/-- A given path is taken by its extension, be anything there or not. Otherwise the first file in
the order of priority is taken, and the search fails exactly when there is none. What is found is
read as its path is, whatever its content turns out to be. -/
theorem resolve_follows_priority (files : Files) (project : Path) (explicit global : Option Path) :
    (∀ path, explicit = some path →
      (∀ format : Rules.Format, path.extension? = some format.extension →
        resolve files project explicit global = .ok ⟨path, format, .explicit⟩) ∧
      ((∀ format : Rules.Format, path.extension? ≠ some format.extension) →
        resolve files project explicit global = .error (.unsupported path))) ∧
    (explicit = none →
      (∀ path origin,
        (∃ format, resolve files project explicit global = .ok ⟨path, format, origin⟩) ↔
          FirstWith (fun place => files.isFile place.1 = true) (priorities project global)
            (path, origin)) ∧
      (∀ directory, resolve files project explicit global = .error (.notFound directory) ↔
        directory = project ∧
          ∀ place ∈ priorities project global, files.isFile place.1 = false) ∧
      ∀ path, resolve files project explicit global ≠ .error (.unsupported path)) ∧
    ∀ located, resolve files project explicit global = .ok located →
      ∀ later : Files, located.load later = Rules.ofFile later located.path := by
  refine ⟨?_, ?_, ?_⟩
  · intro path hpath
    subst hpath
    constructor
    · intro format hextension
      have hformat := (Rules.Format.ofPath?_eq_some_iff path format).mpr hextension
      simp only [resolve, ofPath, hformat]
    · intro hextension
      have hformat := (Rules.Format.ofPath?_eq_none_iff path).mpr hextension
      simp only [resolve, ofPath, hformat]
  · intro hnone
    subst hnone
    exact ⟨resolve_none_eq_ok_iff files project global,
      resolve_none_eq_notFound_iff files project global,
      resolve_none_ne_unsupported files project global⟩
  · intro located hlocated later
    rw [Rules.ofFile_of_ofPath? later located.path located.format
      (ofPath?_of_resolve files project explicit global located hlocated)]
    rfl

/-- A directory under the first name is passed over for a file under the second, beside which a
file in the global directory does not count. A path that only ends like a document is refused. -/
theorem resolve_follows_priority_hidden_file :
    let root : Files.Entry := .directory
      [("w", .directory
        [("rule-enforcer.json", .directory []), (".rule-enforcer.json", .file ⟨#[]⟩)]),
        ("g", .directory [("rules.toml", .file ⟨#[]⟩)])]
    let files : Files := ⟨root, []⟩
    let found : Located := ⟨⟨"w/.rule-enforcer.json"⟩, .json, .submission⟩
    FirstWith (fun place => files.isFile place.1 = true) (priorities ⟨"w/"⟩ (some ⟨"g"⟩))
        (⟨"w/.rule-enforcer.json"⟩, .submission) ∧
      resolve files ⟨"w/"⟩ none (some ⟨"g"⟩) = .ok found ∧
      (∀ later : Files, found.load later = Rules.ofFile later found.path) ∧
      resolve files ⟨"w/"⟩ (some ⟨"w/.json"⟩) none = .error (.unsupported ⟨"w/.json"⟩) := by
  intro root files found
  have hfound : resolve files ⟨"w/"⟩ none (some ⟨"g"⟩) = .ok found := by decide
  obtain ⟨-, hsearched, hload⟩ := resolve_follows_priority files ⟨"w/"⟩ none (some ⟨"g"⟩)
  obtain ⟨hfirst, -, -⟩ := hsearched rfl
  obtain ⟨hgiven, -, -⟩ := resolve_follows_priority files ⟨"w/"⟩ (some ⟨"w/.json"⟩) none
  refine ⟨(hfirst _ _).mp ⟨.json, hfound⟩, hfound, hload found hfound, ?_⟩
  apply (hgiven ⟨"w/.json"⟩ rfl).2
  intro format
  cases format <;> decide

end Located

end Rubric
