import Rubric.Engine
import Rubric.Proofs.FunctionNames

/-!
Reports on import statements. Every finding of the check on imports is about one statement, and no
statement has two. What is reported is decided by the module of the statement and the names that
it binds. A statement without a source has no module and is never reported.
-/
namespace Rubric.Check

/-- The findings on imports, each with the statement that it is about. -/
def importReports (submission : Submission) (rules : Rules) : List (Nat × Finding) :=
  match rules.allowedImports with
  | none => []
  | some patterns =>
      (submission.indices.filter fun i => submission.kind i == .importStatement).filterMap
        fun i => (importFinding? submission (.ofPatterns patterns) i).map (Prod.mk i)

def module? (submission : Submission) (statement : Nat) : Option String :=
  (submission.childByField statement "source").map fun source =>
    stripQuotes (submission.text source)

/-- What is reported on a statement that is judged by a module: nothing, or one finding that names
the module. -/
def verdictOn (submission : Submission) (allowed : Imports.AllowList) (statement : Nat)
    (module : String) : List (Nat × Finding) :=
  if allowed.allows module (boundNames submission statement) then []
  else [(statement, Finding.at (.importRefused module (submission.text statement))
    (submission.span statement))]

/-- The modules that reports on a statement name, without the text and the place of the
statement. -/
def refusalsOn (submission : Submission) (rules : Rules) (statement : Nat) : List String :=
  Engine.refusedModules
    (((importReports submission rules).filter fun entry => entry.1 = statement).map Prod.snd)

theorem map_snd_importReports (submission : Submission) (rules : Rules) :
    (importReports submission rules).map Prod.snd = allowedImports submission rules := by
  unfold importReports allowedImports
  cases rules.allowedImports with
  | none => rfl
  | some patterns =>
    dsimp only
    rw [List.map_filterMap]
    congr 1
    funext i
    simp [Function.comp_def]

/-- Among pairs made from different items, those of one item are what is made from it. -/
theorem filter_filterMap_pair {β : Type} (items : List Nat) (f : Nat → Option β) (i : Nat)
    (hnodup : items.Nodup) (hi : i ∈ items) :
    (items.filterMap fun j => (f j).map (Prod.mk j)).filter (fun pair => pair.1 = i) =
      ((f i).map (Prod.mk i)).toList := by
  have hfilter : (items.filterMap fun j => (f j).map (Prod.mk j)).filter
      (fun pair => decide (pair.1 = i)) =
        (items.filter fun j => decide (j = i)).filterMap fun j => (f j).map (Prod.mk j) := by
    rw [List.filter_filterMap, List.filterMap_filter]
    congr 1
    funext j
    by_cases hj : j = i
    · cases f j <;> simp [hj, Option.filter]
    · cases f j <;> simp [hj, Option.filter]
  rw [hfilter, List.filter_eq, List.count_eq_one_of_mem hnodup hi]
  cases hf : f i <;> simp [hf]

section

variable (submission : Submission) (rules : Rules) (patterns : List String) (statement : Nat)

theorem filter_importReports (hrules : rules.allowedImports = some patterns)
    (hkind : submission.kind statement = .importStatement) :
    (importReports submission rules).filter (fun entry => entry.1 = statement) =
      ((importFinding? submission (.ofPatterns patterns) statement).map
        (Prod.mk statement)).toList := by
  have hlt := submission.lt_size_of_kind statement (by simp [hkind])
  unfold importReports
  rw [hrules]
  apply filter_filterMap_pair
  · exact List.nodup_range.filter _
  · simp [Submission.indices, hlt, hkind]

/-- A statement with a module is judged by it. -/
theorem filter_importReports_of_module (module : String)
    (hrules : rules.allowedImports = some patterns)
    (hkind : submission.kind statement = .importStatement)
    (hmodule : module? submission statement = some module) :
    (importReports submission rules).filter (fun entry => entry.1 = statement) =
      verdictOn submission (.ofPatterns patterns) statement module := by
  obtain ⟨source, hsource, rfl⟩ := Option.map_eq_some_iff.mp hmodule
  rw [filter_importReports submission rules patterns statement hrules hkind, importFinding?,
    hsource, verdictOn]
  dsimp only
  split <;> rfl

theorem filter_importReports_of_none (hrules : rules.allowedImports = some patterns)
    (hkind : submission.kind statement = .importStatement)
    (hmodule : module? submission statement = none) :
    (importReports submission rules).filter (fun entry => entry.1 = statement) = [] := by
  have hsource : submission.childByField statement "source" = none :=
    Option.map_eq_none_iff.mp hmodule
  rw [filter_importReports submission rules patterns statement hrules hkind, importFinding?,
    hsource]
  rfl

/-- The verdict on a statement is a matter of its module and its names. -/
theorem refusalsOn_eq (hkind : submission.kind statement = .importStatement) :
    refusalsOn submission rules statement =
      match rules.allowedImports, module? submission statement with
      | some patterns, some module =>
          if (Imports.AllowList.ofPatterns patterns).allows module
            (boundNames submission statement) then [] else [module]
      | _, _ => [] := by
  unfold refusalsOn
  cases hrules : rules.allowedImports with
  | none => simp [importReports, hrules, Engine.refusedModules]
  | some patterns =>
    cases hmodule : module? submission statement with
    | none =>
      rw [filter_importReports_of_none submission rules patterns statement hrules hkind hmodule]
      rfl
    | some module =>
      rw [filter_importReports_of_module submission rules patterns statement module hrules hkind
        hmodule, verdictOn]
      dsimp only
      by_cases hallowed : (Imports.AllowList.ofPatterns patterns).allows module
          (boundNames submission statement) = true
      · rw [if_pos hallowed, if_pos hallowed]
        rfl
      · rw [if_neg hallowed, if_neg hallowed]
        rfl

end

end Rubric.Check
