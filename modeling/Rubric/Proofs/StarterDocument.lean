import Rubric.Proofs.CheckOutcome
import Rubric.Proofs.WrittenFiles
import Rubric.Proofs.WrittenToml

/-!
The starter document and the search for rules. The document is written under a name that is one of
those looked for beside a submission, in the format that its extension names. So a search from the
current directory comes to it, unless a name of higher priority has a file. The JSON document has
the first of the names; before the TOML document come the names of JSON ones.
-/
namespace Rubric

namespace Path

theorem extension?_of_isName (name : String) (h : Files.IsName name) :
    extension? ⟨name⟩ = extensionOf? name.toList := by
  have hjoin : join ⟨""⟩ ⟨name⟩ = ⟨name⟩ := by simp [join, isAbsolute_of_isName name h]
  rw [← hjoin, extension?_join ⟨""⟩ name h]

/-- Different names stay different below a directory. -/
theorem join_inj (directory : Path) (left right : String) (hleft : Files.IsName left)
    (hright : Files.IsName right) (h : directory.join ⟨left⟩ = directory.join ⟨right⟩) :
    left = right := by
  have hnames := congrArg fileName? h
  rw [fileName?_join directory left hleft, fileName?_join directory right hright] at hnames
  exact String.toList_inj.mp (Option.some.inj hnames)

end Path

/-- The format does not depend on the directory. -/
theorem Rules.Format.ofPath?_join (directory : Path) (name : String) (h : Files.IsName name) :
    ofPath? (directory.join ⟨name⟩) = ofPath? ⟨name⟩ := by
  rw [ofPath?, ofPath?, Path.extension?_join directory name h, Path.extension?_of_isName name h]

namespace Located

theorem isName_of_mem_submissionNames :
    ∀ name ∈ submissionNames, Files.IsName name := by decide

/-- A file beside the submission is taken exactly when no earlier name has a file. -/
theorem resolve_eq_ok_iff (files : Files) (project : Path) (global : Option Path) (name : String)
    (format : Rules.Format) (before after : List String)
    (hsplit : submissionNames = before ++ name :: after) (hfirst : name ∉ before)
    (hformat : Rules.Format.ofPath? ⟨name⟩ = some format)
    (hfile : files.isFile (project.join ⟨name⟩) = true) :
    resolve files project none global = .ok ⟨project.join ⟨name⟩, format, .submission⟩ ↔
      ∀ earlier ∈ before, files.isFile (project.join ⟨earlier⟩) = false := by
  have hname : ∀ other ∈ before ++ name :: after, Files.IsName other :=
    hsplit ▸ isName_of_mem_submissionNames
  have hsearch : search? files project global =
      ((candidatesIn project before .submission).find? fun candidate =>
        files.isFile candidate.1).or (some (project.join ⟨name⟩, .submission)) := by
    simp only [search?, candidates, hsplit, candidatesIn, List.map_append, List.map_cons,
      List.append_assoc, List.find?_append, List.cons_append, List.find?_cons, hfile]
  unfold resolve
  rw [hsearch]
  -- What is found among the earlier names decides, and it has another path.
  cases hfind : (candidatesIn project before .submission).find? fun candidate =>
      files.isFile candidate.1 with
  | none =>
    have hnone : ∀ earlier ∈ before, files.isFile (project.join ⟨earlier⟩) = false := by
      simpa [candidatesIn] using hfind
    have hthere : Rules.Format.ofPath? (project.join ⟨name⟩) = some format := by
      rw [Rules.Format.ofPath?_join project name (hname name (by simp)), hformat]
    simp only [Option.none_or, ofPath, hthere, true_iff]
    exact hnone
  | some candidate =>
    obtain ⟨earlier, hearlier, rfl⟩ := List.mem_map.mp (List.mem_of_find?_eq_some hfind)
    have hthere : files.isFile (project.join ⟨earlier⟩) = true := by
      simpa using List.find?_some hfind
    constructor
    · intro hresolve
      have hpath := ofPath_path _ _ _ hresolve
      have hsame := Path.join_inj project name earlier (hname name (by simp))
        (hname earlier (by simp [hearlier])) hpath
      exact absurd (hsame ▸ hearlier) hfirst
    · intro hnone
      rw [hnone earlier hearlier] at hthere
      simp at hthere

def starter (project : Path) (format : Rules.Format) : Located :=
  ⟨project.join ⟨Command.starterName format⟩, format, .submission⟩

end Located

namespace Command

def namesBefore : Rules.Format → List String
  | .json => []
  | .toml => ["rule-enforcer.json", ".rule-enforcer.json"]

theorem submissionNames_eq (format : Rules.Format) :
    ∃ after, Located.submissionNames = namesBefore format ++ starterName format :: after := by
  cases format with
  | json => exact ⟨[".rule-enforcer.json", "rule-enforcer.toml"], rfl⟩
  | toml => exact ⟨[], rfl⟩

theorem starterName_not_mem_namesBefore (format : Rules.Format) :
    starterName format ∉ namesBefore format := by
  cases format <;> decide

theorem isName_starterName (format : Rules.Format) : Files.IsName (starterName format) := by
  obtain ⟨after, hsplit⟩ := submissionNames_eq format
  exact Located.isName_of_mem_submissionNames _ (by simp [hsplit])

/-- The name says the format. -/
theorem ofPath?_starterName (format : Rules.Format) :
    Rules.Format.ofPath? ⟨starterName format⟩ = some format := by
  cases format <;> rfl

variable {files other : Files} {format : Rules.Format} {project : Path}

theorem parse_render_starter (format : Rules.Format) :
    format.parse (format.render Rules.starter) = .ok Rules.starter := by
  cases format with
  | json => exact Rules.ofJsonText_render Rules.starter
  | toml => exact Rules.ofTomlText_render Rules.starter

theorem readText_starter
    (hwrite : files.write (starterName format) (format.render Rules.starter) = .ok other)
    (hproject : files.LeadsHere project (starterName format)) :
    other.readText (Located.starter project format).path = .ok (format.render Rules.starter) := by
  have hentry := Files.entry_join_write_self hwrite project (isName_starterName format) hproject
  simp only [Located.starter, Files.readText, hentry, Files.textOf_toUTF8]

/-- The document that was written gives the starter rules. -/
theorem load_starter
    (hwrite : files.write (starterName format) (format.render Rules.starter) = .ok other)
    (hproject : files.LeadsHere project (starterName format)) :
    (Located.starter project format).load other = .ok Rules.starter := by
  have hread := readText_starter hwrite hproject
  unfold Located.load Rules.Format.load
  rw [hread]
  simp only [Located.starter, parse_render_starter]

/-- The document that was written is taken unless a name before its own has a file. -/
theorem resolve_starter_iff (global : Option Path)
    (hwrite : files.write (starterName format) (format.render Rules.starter) = .ok other)
    (hproject : files.LeadsHere project (starterName format)) :
    Located.resolve other project none global = .ok (Located.starter project format) ↔
      ∀ name ∈ namesBefore format, files.isFile (project.join ⟨name⟩) = false := by
  obtain ⟨after, hsplit⟩ := submissionNames_eq format
  have hfirst := starterName_not_mem_namesBefore format
  have hfile : other.isFile (project.join ⟨starterName format⟩) = true := by
    simp only [Files.isFile,
      Files.entry_join_write_self hwrite project (isName_starterName format) hproject]
  have hkept (name : String) (h : name ∈ namesBefore format) :
      other.isFile (project.join ⟨name⟩) = files.isFile (project.join ⟨name⟩) := by
    have hname : Files.IsName name :=
      Located.isName_of_mem_submissionNames name (by simp [hsplit, h])
    have hne : name ≠ starterName format := fun heq => hfirst (heq ▸ h)
    exact Files.isFile_congr
      (Files.entry_join_write_other hwrite project name hname hne hproject.here)
  rw [Located.starter, Located.resolve_eq_ok_iff other project global (starterName format) format
    (namesBefore format) after hsplit hfirst (ofPath?_starterName format) hfile]
  constructor
  · intro h name hname
    rw [← hkept name hname, h name hname]
  · intro h name hname
    rw [hkept name hname, h name hname]

theorem leadsHere_dot (name content : String) (hname : Files.IsName name)
    (hwrite : files.write name content = .ok other) : files.LeadsHere ⟨"."⟩ name := by
  obtain ⟨entries, hentries, -⟩ := Files.write_eq_ok files other name content hwrite
  constructor
  · have hstep : files.step files.current ['.'] = .ok files.current := by
      simp [Files.step, hentries]
    rw [Files.locate_eq_ok]
    refine ⟨by decide, by decide, by decide, ?_⟩
    exact congrArg (· >>= pure) hstep
  · have hjoin : Path.join ⟨"."⟩ ⟨name⟩ = ⟨"." ++ "/" ++ name⟩ := by
      simp [Path.join, Path.isAbsolute_of_isName name hname]
    have hshort := hname.short
    rw [hjoin, String.utf8ByteSize_append]
    have hdot : ("." ++ "/").utf8ByteSize = 2 := by decide
    unfold Files.nameLimit at hshort
    unfold Files.pathLimit
    omega

theorem run_eq_runInit (world : World) (arguments : List String) (verbose : Bool)
    (explicit : Option Path) (force toml : Bool)
    (h : Arguments.read arguments = .ok ⟨verbose, explicit, .init force toml⟩) :
    run world arguments = runInit world force toml := by
  simp only [run, h, runInvocation]

theorem write_of_writeStarter (force : Bool)
    (h : writeStarter files force format = .ok other) :
    files.write (starterName format) (format.render Rules.starter) = .ok other := by
  unfold writeStarter at h
  dsimp only at h
  split at h
  · simp at h
  · split at h
    · simp at h
    · next hwrite => rw [hwrite, Except.ok.inj h]

/-- A run that succeeds has written the document. -/
theorem write_of_runInit (world : World) (force toml : Bool)
    (h : (runInit world force toml).exitCode = 0) :
    let format : Rules.Format := if toml then .toml else .json
    world.files.write (starterName format) (format.render Rules.starter) =
      .ok (runInit world force toml).files := by
  intro format
  unfold runInit at h ⊢
  cases hstarter : writeStarter world.files force format with
  | error failure => simp [format, hstarter] at h
  | ok files =>
    simp only [format, hstarter]
    exact write_of_writeStarter force hstarter

/-- After a run that succeeds, the document that was written gives the starter rules, and a search
from the current directory finds it. Only a TOML document can be passed over, for a JSON one that
stands beside it. -/
theorem init_document_is_used (world : World) (arguments : List String) (verbose : Bool)
    (explicit : Option Path) (force toml : Bool)
    (hread : Arguments.read arguments = .ok ⟨verbose, explicit, .init force toml⟩)
    (hzero : (run world arguments).exitCode = 0) :
    let format : Rules.Format := if toml then .toml else .json
    let files := (run world arguments).files
    world.files.LeadsHere ⟨"."⟩ (starterName format) ∧
      ∀ project global, world.files.LeadsHere project (starterName format) →
        files.readText (Located.starter project format).path =
          .ok (format.render Rules.starter) ∧
        (Located.starter project format).load files = .ok Rules.starter ∧
        (Located.resolve files project none global = .ok (Located.starter project format) ↔
          toml = false ∨
            (world.files.isFile (project.join ⟨"rule-enforcer.json"⟩) = false ∧
              world.files.isFile (project.join ⟨".rule-enforcer.json"⟩) = false)) := by
  intro format files
  rw [run_eq_runInit world arguments verbose explicit force toml hread] at hzero
  have hwrite : world.files.write (starterName format) (format.render Rules.starter) =
      .ok files := by
    show _ = Except.ok (run world arguments).files
    rw [run_eq_runInit world arguments verbose explicit force toml hread]
    exact write_of_runInit world force toml hzero
  refine ⟨leadsHere_dot _ _ (isName_starterName format) hwrite, ?_⟩
  intro project global hproject
  refine ⟨readText_starter hwrite hproject, load_starter hwrite hproject, ?_⟩
  rw [resolve_starter_iff global hwrite hproject]
  cases toml <;> simp [format, namesBefore]

/-- A directory under the name of a JSON document is not in the way, nor are global rules. -/
theorem init_document_is_used_beside_directory :
    let root : Files.Entry := .directory
      [("w", .directory [("rule-enforcer.json", .directory [])]),
        ("g", .directory [("rules.json", .file ⟨#[]⟩)])]
    let world : World := ⟨⟨root, ["w"]⟩, ⟨#[]⟩, none, none, fun _ => .ok .empty⟩
    let files := (run world ["init", "--toml"]).files
    Arguments.read ["init", "--toml"] = .ok ⟨false, none, .init false true⟩ ∧
      (run world ["init", "--toml"]).exitCode = 0 ∧
      Located.resolve files ⟨"."⟩ none (some ⟨"/g"⟩) =
        .ok ⟨⟨"./rule-enforcer.toml"⟩, .toml, .submission⟩ ∧
      Located.load ⟨⟨"./rule-enforcer.toml"⟩, .toml, .submission⟩ files = .ok Rules.starter := by
  intro root world files
  have hread : Arguments.read ["init", "--toml"] = .ok ⟨false, none, .init false true⟩ := rfl
  have hzero : (run world ["init", "--toml"]).exitCode = 0 := rfl
  obtain ⟨hdot, hused⟩ := init_document_is_used world _ _ _ _ _ hread hzero
  obtain ⟨-, hload, hresolve⟩ := hused ⟨"."⟩ (some ⟨"/g"⟩) hdot
  exact ⟨hread, hzero, hresolve.mpr (Or.inr (by decide)), hload⟩

/-- A TOML document is passed over for a JSON one that is there already. -/
theorem init_toml_is_passed_over_for_json :
    let empty : Rules := {}
    let root : Files.Entry := .directory
      [("rule-enforcer.json", .file empty.toJson.compact.toUTF8)]
    let world : World := ⟨⟨root, []⟩, ⟨#[]⟩, none, none, fun _ => .ok .empty⟩
    let files := (run world ["init", "--toml"]).files
    (run world ["init", "--toml"]).exitCode = 0 ∧
      Located.resolve files ⟨"."⟩ none none ≠ .ok (Located.starter ⟨"."⟩ .toml) ∧
      ∃ located, Located.resolve files ⟨"."⟩ none none = .ok located ∧
        located.load files = .ok empty ∧ empty ≠ Rules.starter := by
  intro empty root world files
  have hresolve : Located.resolve files ⟨"."⟩ none none =
      .ok ⟨⟨"./rule-enforcer.json"⟩, .json, .submission⟩ := rfl
  have htext : files.readText ⟨"./rule-enforcer.json"⟩ = .ok empty.toJson.compact :=
    Files.textOf_toUTF8 _
  refine ⟨rfl, ?_, _, hresolve, ?_, by decide⟩
  · rw [hresolve]
    decide
  · simp only [Located.load, Rules.Format.load, htext, Rules.Format.parse,
      Rules.ofJsonText_compact]

end Command

end Rubric
