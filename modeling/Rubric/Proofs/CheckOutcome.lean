import Rubric.Command.Run
import Rubric.Proofs.LoggedFold
import Rubric.Proofs.RulesInJson
import Rubric.Proofs.WrittenFiles

/-!
What the outcome of a check tells. A check goes through stages: rules are located and loaded, the
submission is read and parsed, and its findings are reported. A failure ends it with nothing on
standard output, findings end it with something there, and only a check without either ends with
zero. The stages for rules come first and look at nothing but the paths where rules may be, so their
failure is reported whatever the submission is.
-/
namespace Rubric

/-- The paths where rules may be: the given one, or the candidates. -/
def Located.places (project : Path) (explicit global : Option Path) : List Path :=
  match explicit with
  | some path => [path]
  | none => (candidates project global).map Prod.fst

namespace World

variable (world : World) (explicit : Option Path) (file : Path)

def LoadsRules (rules : Rules) : Prop :=
  ∃ located, Located.resolve world.files (Command.projectDirectory file) explicit
      world.globalDirectory = .ok located ∧ located.load world.files = .ok rules

def ReadsSubmission (source : String) : Prop :=
  (if Command.isInput file then Files.textOf world.input else world.files.readText file) =
    .ok source

def findings (rules : Rules) (source : String) : Except Grammar.ParseError (List Finding) :=
  (world.parser source).map fun parse =>
    Engine.standard.check (Submission.ofParse source parse) rules

/-- Another world with the same things where rules for a submission may be. It may differ in all
else, the submission itself included. -/
structure SameRulesPlaces (other : World) : Prop where
  globalDirectory : other.globalDirectory = world.globalDirectory
  entries : ∀ path ∈ Located.places (Command.projectDirectory file) explicit
    world.globalDirectory, other.files.entry path = world.files.entry path

end World

namespace Files

variable {files other : Files} {path : Path}

theorem isFile_congr (h : other.entry path = files.entry path) :
    other.isFile path = files.isFile path := by
  simp only [isFile, h]

theorem readText_congr (h : other.entry path = files.entry path) :
    other.readText path = files.readText path := by
  simp only [readText, h]

end Files

namespace Located

theorem ofPath_path (path : Path) (origin : Origin) (located : Located)
    (h : ofPath path origin = .ok located) : located.path = path := by
  unfold ofPath at h
  split at h
  · rw [← Except.ok.inj h]
  · simp at h

theorem path_mem_places (files : Files) (project : Path) (explicit global : Option Path)
    (located : Located) (h : resolve files project explicit global = .ok located) :
    located.path ∈ places project explicit global := by
  cases explicit with
  | some path => exact List.mem_singleton.mpr (ofPath_path path .explicit located h)
  | none =>
    unfold resolve at h
    cases hsearch : search? files project global with
    | none => simp [hsearch] at h
    | some candidate =>
      obtain ⟨path, origin⟩ := candidate
      have hmem : (path, origin) ∈ candidates project global :=
        List.mem_of_find?_eq_some hsearch
      simp only [hsearch] at h
      rw [ofPath_path path origin located h]
      exact List.mem_map_of_mem hmem

/-- What is found depends only on the places where rules may be. -/
theorem resolve_congr {files other : Files} (project : Path) (explicit global : Option Path)
    (h : ∀ path ∈ places project explicit global, other.entry path = files.entry path) :
    resolve other project explicit global = resolve files project explicit global := by
  cases explicit with
  | some path => rfl
  | none =>
    have hsearch : search? other project global = search? files project global := by
      have hfilter : (candidates project global).filter (fun candidate => other.isFile candidate.1)
          = (candidates project global).filter fun candidate => files.isFile candidate.1 := by
        apply List.filter_congr
        intro candidate hcandidate
        exact Files.isFile_congr (h candidate.1 (List.mem_map_of_mem hcandidate))
      rw [search?, search?, ← List.head?_filter, ← List.head?_filter, hfilter]
    unfold resolve
    rw [hsearch]

theorem load_congr {files other : Files} (located : Located)
    (h : other.entry located.path = files.entry located.path) :
    located.load other = located.load files := by
  unfold load Rules.Format.load
  rw [Files.readText_congr h]

end Located

namespace Command

section Stages

variable {α β γ : Type}

theorem proceed_eq_ok (logged : Logged Log.Entry (Except Failure α))
    (next : α → Logged Log.Entry (Except Failure β)) (result : β) :
    (proceed logged next).value = .ok result ↔
      ∃ value, logged.value = .ok value ∧ (next value).value = .ok result := by
  obtain ⟨value, log⟩ := logged
  cases value <;> simp [proceed, Logged.andThen, Logged.success]

/-- After a failure nothing is done and nothing is logged. -/
theorem proceed_of_error (logged : Logged Log.Entry (Except Failure α)) (failure : Failure)
    (next : α → Logged Log.Entry (Except Failure β)) (h : logged.value = .error failure) :
    proceed logged next = ⟨.error failure, logged.log⟩ := by
  simp [proceed, Logged.andThen, Logged.success, h]

theorem proceed_assoc (logged : Logged Log.Entry (Except Failure α))
    (first : α → Logged Log.Entry (Except Failure β))
    (second : β → Logged Log.Entry (Except Failure γ)) :
    proceed (proceed logged first) second =
      proceed logged fun value => proceed (first value) second := by
  unfold proceed
  rw [Logged.andThen_assoc]
  congr 1
  funext result
  cases result <;> rfl

end Stages

variable (world : World) (explicit : Option Path) (file : Path)

theorem locateRules_eq_ok (located : Located) :
    (locateRules world file explicit).value = .ok located ↔
      Located.resolve world.files (projectDirectory file) explicit world.globalDirectory =
        .ok located := by
  unfold locateRules
  split
  · next h => simp [Logged.success, h]
  · next h => simp [h]

theorem loadRules_eq_ok (located : Located) (rules : Rules) :
    (loadRules world located).value = .ok rules ↔ located.load world.files = .ok rules := by
  unfold loadRules
  cases located.load world.files <;> simp

def findRules : Logged Log.Entry (Except Failure Rules) :=
  proceed (locateRules world file explicit) (loadRules world)

theorem findRules_eq_ok (rules : Rules) :
    (findRules world explicit file).value = .ok rules ↔ world.LoadsRules explicit file rules := by
  simp only [findRules, proceed_eq_ok, locateRules_eq_ok, loadRules_eq_ok, World.LoadsRules]

variable {world} {explicit} {file} in
/-- What is told of rules depends only on the places where they may be. -/
theorem findRules_congr {other : World} (h : world.SameRulesPlaces explicit file other) :
    findRules other explicit file = findRules world explicit file := by
  have hlocate : locateRules other file explicit = locateRules world file explicit := by
    unfold locateRules
    rw [h.globalDirectory, Located.resolve_congr _ _ _ h.entries]
  unfold findRules
  rw [hlocate]
  cases hlocated : (locateRules world file explicit).value with
  | error failure => rw [proceed_of_error _ _ _ hlocated, proceed_of_error _ _ _ hlocated]
  | ok located =>
    have hplace := Located.path_mem_places _ _ _ _ located
      ((locateRules_eq_ok world explicit file located).mp hlocated)
    have hload : loadRules other located = loadRules world located := by
      unfold loadRules
      rw [Located.load_congr located (h.entries located.path hplace)]
    simp only [proceed, Logged.andThen, hlocated, hload]

theorem checkFile_eq_proceed :
    checkFile world explicit file =
      proceed (findRules world explicit file) fun rules =>
        proceed (.success (readSubmission world file)) fun submission =>
          checkSource world rules submission.1 submission.2 := by
  rw [findRules, proceed_assoc]
  rfl

/-- A submission is read under some name exactly when it is a text. -/
theorem readSubmission_eq_ok (source : String) :
    (∃ name, readSubmission world file = .ok (name, source)) ↔
      world.ReadsSubmission file source := by
  unfold readSubmission World.ReadsSubmission
  by_cases hinput : isInput file = true
  · simp only [hinput, if_true]
    cases Files.textOf world.input <;> simp
  · simp only [hinput]
    cases world.files.readText file <;> simp

/-- A text is checked if there is a tree of it. -/
theorem checkSource_eq_ok (rules : Rules) (name source : String) (checked : Checked) :
    (checkSource world rules name source).value = .ok checked ↔
      ∃ found, world.findings rules source = .ok found ∧ checked = ⟨name, source, found⟩ := by
  unfold checkSource parseSource World.findings
  rw [proceed_eq_ok]
  cases world.parser source <;> simp [Except.map, eq_comm]

/-- A check that does not fail has gone through every stage. -/
theorem checkFile_eq_ok (checked : Checked)
    (h : (checkFile world explicit file).value = .ok checked) :
    ∃ rules, world.LoadsRules explicit file rules ∧ world.ReadsSubmission file checked.source ∧
      world.findings rules checked.source = .ok checked.findings := by
  rw [checkFile_eq_proceed, proceed_eq_ok] at h
  obtain ⟨rules, hrules, hrest⟩ := h
  obtain ⟨⟨name, source⟩, hread, hchecked⟩ := (proceed_eq_ok _ _ _).mp hrest
  obtain ⟨found, hfound, rfl⟩ := (checkSource_eq_ok world rules name source checked).mp hchecked
  exact ⟨rules, (findRules_eq_ok world explicit file rules).mp hrules,
    (readSubmission_eq_ok world file source).mp ⟨name, hread⟩, hfound⟩

/-- A check whose stages all succeed does not fail. -/
theorem exists_checkFile (rules : Rules) (source : String) (found : List Finding)
    (hrules : world.LoadsRules explicit file rules)
    (hsource : world.ReadsSubmission file source)
    (hfound : world.findings rules source = .ok found) :
    ∃ checked, (checkFile world explicit file).value = .ok checked ∧
      checked.findings = found := by
  obtain ⟨name, hread⟩ := (readSubmission_eq_ok world file source).mpr hsource
  have hfind := (findRules_eq_ok world explicit file rules).mpr hrules
  refine ⟨⟨name, source, found⟩, ?_, rfl⟩
  rw [checkFile_eq_proceed, proceed_eq_ok]
  refine ⟨rules, hfind, ?_⟩
  rw [proceed_eq_ok]
  exact ⟨(name, source), hread,
    (checkSource_eq_ok world rules name source _).mpr ⟨found, hfound, rfl⟩⟩

/-- Without rules, the submission is not looked at. -/
theorem checkFile_of_error (failure : Failure)
    (h : (findRules world explicit file).value = .error failure) :
    checkFile world explicit file = ⟨.error failure, (findRules world explicit file).log⟩ := by
  rw [checkFile_eq_proceed]
  exact proceed_of_error _ failure _ h

end Command

namespace Report

/-- Findings are never reported by silence. -/
theorem render_ne_empty (style : ReportStyle) (name source : String) (findings : List Finding)
    (h : findings ≠ []) : render style name source findings ≠ "" := by
  cases style with
  | text => simp [render, summary, String.append_eq_empty_iff]
  | json => simp [render, json, String.append_eq_empty_iff]
  | compact =>
    obtain ⟨finding, rest, rfl⟩ := List.exists_cons_of_ne_nil h
    simp [render, compact, String.append_eq_empty_iff]

end Report

/-- What the outcome of a check tells of the world it ran in. -/
structure Outcome.TellsOfCheck (outcome : Outcome) (world : World) (explicit : Option Path)
    (file : Path) : Prop where
  zero_iff : outcome.exitCode = 0 ↔ ∃ rules source, world.LoadsRules explicit file rules ∧
    world.ReadsSubmission file source ∧ world.findings rules source = .ok []
  otherwise : outcome.exitCode ≠ 0 → outcome.exitCode = 1
  silent : ((∀ rules, ¬ world.LoadsRules explicit file rules) ∨
      (∀ source, ¬ world.ReadsSubmission file source) ∨
      ∃ source error, world.ReadsSubmission file source ∧ world.parser source = .error error) →
    outcome.exitCode = 1 ∧ outcome.output = "" ∧ outcome.diagnostics = []
  loud : ∀ rules source found, world.LoadsRules explicit file rules →
    world.ReadsSubmission file source → world.findings rules source = .ok found → found ≠ [] →
    outcome.exitCode = 1 ∧ outcome.output ≠ ""

namespace Command

variable {world : World} {explicit : Option Path} {file : Path}

/-- A failed stage: one on exit and nothing on standard output. -/
theorem tellsOfCheck_of_error (verbose : Bool) (style : ReportStyle) (failure : Failure)
    (h : (checkFile world explicit file).value = .error failure) :
    (runCheck world verbose explicit file style).TellsOfCheck world explicit file := by
  have hnever (rules : Rules) (source : String) (found : List Finding)
      (hrules : world.LoadsRules explicit file rules)
      (hsource : world.ReadsSubmission file source) :
      world.findings rules source ≠ .ok found := by
    intro hfound
    obtain ⟨checked, hchecked, -⟩ := exists_checkFile world explicit file rules source found
      hrules hsource hfound
    rw [h] at hchecked
    simp at hchecked
  have houtcome : (runCheck world verbose explicit file style).exitCode = 1 ∧
      (runCheck world verbose explicit file style).output = "" ∧
      (runCheck world verbose explicit file style).diagnostics = [] := by
    simp only [runCheck, h, and_self]
  refine ⟨?_, fun _ => houtcome.1, fun _ => houtcome, ?_⟩
  · rw [houtcome.1]
    constructor
    · simp
    · rintro ⟨rules, source, hrules, hsource, hnone⟩
      exact absurd hnone (hnever rules source [] hrules hsource)
  · intro rules source found hrules hsource hfound
    exact absurd hfound (hnever rules source found hrules hsource)

/-- A finished check: its findings decide. -/
theorem tellsOfCheck_of_ok (verbose : Bool) (style : ReportStyle) (checked : Checked)
    (h : (checkFile world explicit file).value = .ok checked) :
    (runCheck world verbose explicit file style).TellsOfCheck world explicit file := by
  have hexit : (runCheck world verbose explicit file style).exitCode =
      if checked.findings.isEmpty then 0 else 1 := by
    simp only [runCheck, h]
  have houtput : (runCheck world verbose explicit file style).output =
      Report.render style checked.name checked.source checked.findings := by
    simp only [runCheck, h]
  have hfindings (rules : Rules) (source : String) (found : List Finding)
      (hrules : world.LoadsRules explicit file rules)
      (hsource : world.ReadsSubmission file source)
      (hfound : world.findings rules source = .ok found) : checked.findings = found := by
    obtain ⟨other, hother, hsame⟩ := exists_checkFile world explicit file rules source found
      hrules hsource hfound
    rw [h] at hother
    rw [Except.ok.inj hother, hsame]
  have hzero : (runCheck world verbose explicit file style).exitCode = 0 ↔
      checked.findings = [] := by
    rw [hexit]
    cases checked.findings <;> simp
  obtain ⟨rules, hrules, hsource, hchecked⟩ := checkFile_eq_ok world explicit file checked h
  refine ⟨?_, ?_, ?_, ?_⟩
  · rw [hzero]
    constructor
    · intro hnone
      exact ⟨rules, checked.source, hrules, hsource, hnone ▸ hchecked⟩
    · rintro ⟨rules, source, hrules, hsource, hnone⟩
      exact hfindings rules source [] hrules hsource hnone
  · rw [hexit]
    split <;> simp
  · rintro (hnoRules | hnoSource | ⟨source, error, hother, herror⟩)
    · exact absurd hrules (hnoRules rules)
    · exact absurd hsource (hnoSource checked.source)
    · obtain rfl : source = checked.source := Except.ok.inj (hother.symm.trans hsource)
      simp [World.findings, herror, Except.map] at hchecked
  · intro rules source found hrules hsource hfound hsome
    rw [← hfindings rules source found hrules hsource hfound] at hsome
    rw [hexit, houtput]
    refine ⟨?_, Report.render_ne_empty style _ _ _ hsome⟩
    simp [hsome]

theorem run_eq_runCheck (arguments : List String) (verbose : Bool) (style : ReportStyle)
    (h : Arguments.read arguments = .ok ⟨verbose, explicit, .check file style⟩) :
    run world arguments = runCheck world verbose explicit file style := by
  simp only [run, h, runInvocation]

/-- The exit status and the output of a check tell success, findings and failure apart. Without
rules, what is told depends only on the places where rules may be. -/
theorem check_outcome_tells_apart (world : World) (arguments : List String) (verbose : Bool)
    (explicit : Option Path) (file : Path) (style : ReportStyle)
    (hread : Arguments.read arguments = .ok ⟨verbose, explicit, .check file style⟩) :
    (run world arguments).TellsOfCheck world explicit file ∧
      ((∀ rules, ¬ world.LoadsRules explicit file rules) →
        ∀ other : World, world.SameRulesPlaces explicit file other →
          (run other arguments).exitCode = (run world arguments).exitCode ∧
          (run other arguments).output = (run world arguments).output ∧
          (run other arguments).log = (run world arguments).log ∧
          (run other arguments).diagnostics = (run world arguments).diagnostics) := by
  constructor
  · rw [run_eq_runCheck arguments verbose style hread]
    cases h : (checkFile world explicit file).value with
    | error failure => exact tellsOfCheck_of_error verbose style failure h
    | ok checked => exact tellsOfCheck_of_ok verbose style checked h
  · intro hnoRules other hsame
    have hcongr := findRules_congr hsame
    cases hfind : (findRules world explicit file).value with
    | ok rules =>
      exact absurd ((findRules_eq_ok world explicit file rules).mp hfind) (hnoRules rules)
    | error failure =>
      have hworld := checkFile_of_error world explicit file failure hfind
      have hother := checkFile_of_error other explicit file failure (by rw [hcongr, hfind])
      rw [run_eq_runCheck arguments verbose style hread,
        run_eq_runCheck arguments verbose style hread]
      simp only [runCheck, hother, hworld, hcongr, and_self]

/-- A loop on standard input is found if there are rules against it. Without a tree nothing is
written, and neither without rules, where an input that is no text makes no difference. -/
theorem check_outcome_tells_apart_loop :
    let arguments := ["check", "-", "--rules", "r.json", "-fcompact"]
    let rules : Rules := { disallow := some [.loops] }
    let source := "for (;;) \x7b\x7d"
    let loop : Grammar.Parse := ⟨.node ⟨"program", true, false, none, ⟨0, 11⟩⟩
      [.node ⟨"for_statement", true, false, none, ⟨0, 11⟩⟩ []], false⟩
    let world (entries : List (String × Files.Entry)) (submission : ByteArray) : World :=
      ⟨⟨.directory entries, []⟩, submission, none, none, fun _ => .ok loop⟩
    let strict := world [("r.json", .file rules.toJson.compact.toUTF8)] source.toUTF8
    let blind : World := { strict with parser := fun _ => .error .noTree }
    let bare := world [] source.toUTF8
    Arguments.read arguments = .ok ⟨false, some ⟨"r.json"⟩, .check ⟨"-"⟩ .compact⟩ ∧
      ((run strict arguments).exitCode = 1 ∧ (run strict arguments).output ≠ "") ∧
      ((run blind arguments).exitCode = 1 ∧ (run blind arguments).output = "") ∧
      ((run bare arguments).exitCode = 1 ∧ (run bare arguments).output = "") ∧
      (run (world [] ⟨#[255]⟩) arguments).log = (run bare arguments).log := by
  intro arguments rules source loop world strict blind bare
  have hread : Arguments.read arguments =
      .ok ⟨false, some ⟨"r.json"⟩, .check ⟨"-"⟩ .compact⟩ := rfl
  obtain ⟨hstrict, -⟩ := check_outcome_tells_apart strict _ _ _ _ _ hread
  obtain ⟨hblind, -⟩ := check_outcome_tells_apart blind _ _ _ _ _ hread
  obtain ⟨hbare, hdepends⟩ := check_outcome_tells_apart bare _ _ _ _ _ hread
  have hrules : strict.LoadsRules (some ⟨"r.json"⟩) ⟨"-"⟩ rules := by
    have htext : strict.files.readText ⟨"r.json"⟩ = .ok rules.toJson.compact :=
      Files.textOf_toUTF8 _
    refine ⟨⟨⟨"r.json"⟩, .json, .explicit⟩, rfl, ?_⟩
    simp only [Located.load, Rules.Format.load, htext, Rules.Format.parse,
      Rules.ofJsonText_compact]
  have hsource : strict.ReadsSubmission ⟨"-"⟩ source := Files.textOf_toUTF8 source
  have hnoRules (loaded : Rules) : ¬ bare.LoadsRules (some ⟨"r.json"⟩) ⟨"-"⟩ loaded := by
    rintro ⟨located, hlocated, hload⟩
    obtain rfl : (⟨⟨"r.json"⟩, .json, .explicit⟩ : Located) = located := Except.ok.inj hlocated
    have hmissing : Located.load ⟨⟨"r.json"⟩, .json, .explicit⟩ bare.files =
        .error (.unreadable ⟨"r.json"⟩ .notFound) := rfl
    simp [hmissing] at hload
  have hnoTree := hblind.silent (Or.inr (Or.inr ⟨source, .noTree, hsource, rfl⟩))
  have hsilent := hbare.silent (Or.inl hnoRules)
  have hsame : bare.SameRulesPlaces (some ⟨"r.json"⟩) ⟨"-"⟩ (world [] ⟨#[255]⟩) :=
    ⟨rfl, fun _ _ => rfl⟩
  exact ⟨hread, hstrict.loud rules source _ hrules hsource rfl (by decide +kernel),
    ⟨hnoTree.1, hnoTree.2.1⟩, ⟨hsilent.1, hsilent.2.1⟩, (hdepends hnoRules _ hsame).2.2.1⟩

end Command

end Rubric
