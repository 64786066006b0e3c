import Rubric.Proofs.ImportClauses

/-!
Verdicts on imports from a restricted module. Where patterns restrict a module to some parts, a
statement is reported when one of the names that are looked at is not among them, wherever in its
clause the name stands. The names that are looked at are identifiers. A name that is written as a
string is not one of them, so it is imported past the restriction.
-/
namespace Rubric

open Grammar

namespace Check

/-- An import statement whose module is restricted to some parts. -/
structure Restricted (submission : Submission) (rules : Rules) (statement : Nat)
    (module : String) (parts : List String) : Prop where
  kind : submission.kind statement = .importStatement
  module_eq : module? submission statement = some module
  parts_eq : ∃ patterns, rules.allowedImports = some patterns ∧
    (Imports.AllowList.ofPatterns patterns).parts? module = some (.only parts)

def Specified (submission : Submission) (statement name : Nat) : Prop :=
  ∃ clause specifier,
    (submission.children statement).find? (fun child => submission.kind child == .importClause) =
      some clause ∧
    specifier ∈ submission.descendants clause ∧
    submission.kind specifier = .importSpecifier ∧
    submission.childByField specifier "name" = some name

/-- The name that a node stands for. One that is written as a string stands between quotes. -/
def originalName (submission : Submission) (name : Nat) : String :=
  if submission.kind name = .stringLiteral then stripQuotes (submission.text name)
  else submission.text name

/-- An identifier of the statement's clause that counts as an imported name. In a specifier it
stands in the field for the name. -/
def LookedAt (submission : Submission) (statement i : Nat) : Prop :=
  ∃ clause,
    (submission.children statement).find? (fun child => submission.kind child == .importClause) =
      some clause ∧
    i ∈ submission.descendants clause ∧ submission.kind i = .identifier ∧
    ∀ parent, submission.parent i = some parent →
      submission.kind parent = .importSpecifier → submission.field i = some "name"

/-! Names that are looked at -/

theorem isImportedName_iff (submission : Submission) (i : Nat) :
    isImportedName submission i = true ↔
      submission.kind i = .identifier ∧
        ∀ parent, submission.parent i = some parent →
          submission.kind parent = .importSpecifier → submission.field i = some "name" := by
  unfold isImportedName
  rw [Bool.and_eq_true, beq_iff_eq]
  cases submission.parent i with
  | none => simp
  | some parent => simp [← imp_iff_not_or]

theorem mem_boundNames (submission : Submission) (statement : Nat) (name : String) :
    name ∈ boundNames submission statement ↔
      ∃ i, LookedAt submission statement i ∧ submission.text i = name := by
  unfold boundNames LookedAt
  split
  · next hnone => simp [hnone]
  · next clause hclause =>
    simp only [List.mem_map, List.mem_filter, isImportedName_iff, hclause, Option.some.injEq,
      exists_eq_left', and_assoc]

/-- A submission with a node lays out a tree. -/
theorem exists_laysOut_ofParse (source : String) (parse : Parse) (i : Nat)
    (hi : i < (Submission.ofParse source parse).size) :
    ∃ tree, (Submission.ofParse source parse).LaysOut tree := by
  cases hprune : parse.tree.prune with
  | some tree => exact ⟨tree, Submission.laysOut_ofParse source parse tree hprune⟩
  | none =>
    have hsize := Submission.size_ofParse_of_prune_eq_none source parse hprune
    omega

/-- The name of a specifier is looked at when it is an identifier. -/
theorem lookedAt_of_specified (submission : Submission) (tree : Tree)
    (h : submission.LaysOut tree) (statement name : Nat)
    (hspecified : Specified submission statement name)
    (hkind : submission.kind name = .identifier) : LookedAt submission statement name := by
  obtain ⟨clause, specifier, hclause, hspecifier, -, hname⟩ := hspecified
  have hfield : submission.field name = some "name" := by
    simpa using List.find?_some hname
  have hchild : name ∈ submission.children specifier := List.mem_of_find?_eq_some hname
  have hclauseKind : submission.kind clause = .importClause := by
    simpa using List.find?_some hclause
  have hlt := submission.lt_size_of_kind clause (by simp [hclauseKind])
  exact ⟨clause, hclause, h.children_mem_descendants clause specifier name hlt hspecifier hchild,
    hkind, fun _ _ _ => hfield⟩

/-- A statement of a restricted module is reported unless all its names are among the parts. -/
theorem verdictOn_of_parts (submission : Submission) (allowed : Imports.AllowList)
    (statement : Nat) (module : String) (parts : List String)
    (hparts : allowed.parts? module = some (.only parts)) :
    verdictOn submission allowed statement module =
      if ∀ name ∈ boundNames submission statement, name ∈ parts then []
      else [(statement, report submission (.importRefused module) statement)] := by
  have hallows : allowed.allows module (boundNames submission statement) = true ↔
      ∀ name ∈ boundNames submission statement, name ∈ parts := by
    simp [Imports.AllowList.allows, hparts, Imports.Parts.allows]
  simp only [verdictOn, hallows]
  rfl

/-- What is reported on a statement of a restricted module: nothing, or one finding. -/
theorem filter_importReports_cases (submission : Submission) (rules : Rules)
    (statement : Nat) (module : String) (parts : List String)
    (h : Restricted submission rules statement module parts) :
    (∀ i, LookedAt submission statement i → submission.text i ∈ parts) ∧
        (importReports submission rules).filter (fun entry => entry.1 = statement) = [] ∨
      (∃ i, LookedAt submission statement i ∧ submission.text i ∉ parts) ∧
        (importReports submission rules).filter (fun entry => entry.1 = statement) =
          [(statement, report submission (.importRefused module) statement)] := by
  obtain ⟨hkind, hmodule, patterns, hpatterns, hparts⟩ := h
  rw [filter_importReports_of_module submission rules patterns statement module hpatterns hkind
      hmodule, verdictOn_of_parts submission _ statement module parts hparts]
  split
  · next hall =>
    refine .inl ⟨?_, rfl⟩
    intro i hlooked
    exact hall _ ((mem_boundNames submission statement _).mpr ⟨i, hlooked, rfl⟩)
  · next hsome =>
    refine .inr ⟨?_, rfl⟩
    push Not at hsome
    obtain ⟨text, htext, hnot⟩ := hsome
    obtain ⟨i, hlooked, rfl⟩ := (mem_boundNames submission statement text).mp htext
    exact ⟨i, hlooked, hnot⟩

/-- A statement of a restricted module is reported once, with its module and its whole text, when
one of the names that are looked at is not among the parts, and not at all otherwise. So a name of
a specifier that is not among the parts is reported when it is an identifier. -/
theorem restricted_import_reported_once (source : String) (parse : Parse) (rules : Rules)
    (statement name : Nat) (module : String) (parts : List String)
    (hrestricted : Restricted (Submission.ofParse source parse) rules statement module parts)
    (hspecified : Specified (Submission.ofParse source parse) statement name)
    (houtside : originalName (Submission.ofParse source parse) name ∉ parts) :
    let submission := Submission.ofParse source parse
    let reports := (importReports submission rules).filter fun entry => entry.1 = statement
    let once := [(statement, Finding.at (.importRefused module (submission.text statement))
      (submission.span statement))]
    Detector.allowedImports.detect submission rules =
        (importReports submission rules).map Prod.snd ∧
      (submission.kind name = .identifier → reports = once) ∧
      (reports = once ↔ ∃ i, LookedAt submission statement i ∧ submission.text i ∉ parts) ∧
      (reports = [] ↔ ∀ i, LookedAt submission statement i → submission.text i ∈ parts) := by
  intro submission reports once
  have hlt := submission.lt_size_of_kind statement (by simp [submission, hrestricted.kind])
  obtain ⟨tree, hlays⟩ := exists_laysOut_ofParse source parse statement hlt
  have hlooked : submission.kind name = .identifier →
      ∃ i, LookedAt submission statement i ∧ submission.text i ∉ parts := by
    intro hidentifier
    rw [originalName, hidentifier, if_neg (by simp)] at houtside
    exact ⟨name, lookedAt_of_specified submission tree hlays statement name hspecified hidentifier,
      houtside⟩
  refine ⟨(map_snd_importReports submission rules).symm, ?_⟩
  rcases filter_importReports_cases submission rules statement module parts hrestricted with
    ⟨hinside, hreports⟩ | ⟨hsome, hreports⟩
  · have hnone : ¬ ∃ i, LookedAt submission statement i ∧ submission.text i ∉ parts := by
      rintro ⟨i, hi, hnot⟩
      exact hnot (hinside i hi)
    have hne : reports ≠ once := fun heq => List.cons_ne_nil _ _ (heq.symm.trans hreports)
    exact ⟨fun hidentifier => absurd (hlooked hidentifier) hnone, iff_of_false hne hnone,
      iff_of_true hreports hinside⟩
  · have hne : reports ≠ [] := fun heq => List.cons_ne_nil _ _ (hreports.symm.trans heq)
    have hnot : ¬ ∀ i, LookedAt submission statement i → submission.text i ∈ parts := by
      obtain ⟨i, hi, hout⟩ := hsome
      exact fun hall => hout (hall i hi)
    exact ⟨fun _ => hreports, iff_of_true hreports hsome, iff_of_false hne hnot⟩

/-- Two imports from a module of which one part is allowed: the second takes another part. -/
theorem restricted_import_reported_once_second_import :
    let rule (kind : String) (field : Option String) (start stop : Nat) : List Tree → Tree :=
      .node ⟨kind, true, false, field, ⟨start, stop⟩⟩
    let token (kind : String) (start stop : Nat) : Tree :=
      .node ⟨kind, false, false, none, ⟨start, stop⟩⟩ []
    let clause (start : Nat) : Tree := rule "import_clause" none start (start + 3)
      [rule "named_imports" none start (start + 3) [token "\x7b" start (start + 1),
        rule "import_specifier" none (start + 1) (start + 2)
          [rule "identifier" (some "name") (start + 1) (start + 2) []],
        token "\x7d" (start + 2) (start + 3)]]
    let statement (start : Nat) : Tree := rule "import_statement" none start (start + 19)
      [token "import" start (start + 6), clause (start + 7), token "from" (start + 11) (start + 15),
        rule "string" (some "source") (start + 16) (start + 19) []]
    let source := "import \x7bb\x7d from 'm'\nimport \x7bc\x7d from 'm'\n"
    let parse : Parse := ⟨rule "program" none 0 40 [statement 0, statement 20], false⟩
    let submission := Submission.ofParse source parse
    let rules : Rules := { allowedImports := some ["m.b", "n"] }
    Restricted submission rules 11 "m" ["b"] ∧ Specified submission 11 17 ∧
      submission.kind 17 = .identifier ∧ originalName submission 17 = "c" ∧
      (importReports submission rules).filter (fun entry => entry.1 = 11) =
        [(11, Finding.at (.importRefused "m" (submission.text 11)) (submission.span 11))] := by
  intro rule token clause statement source parse submission rules
  have hrestricted : Restricted submission rules 11 "m" ["b"] :=
    ⟨by decide +kernel, by decide +kernel, _, rfl, by decide +kernel⟩
  have hspecified : Specified submission 11 17 :=
    ⟨13, 16, by decide +kernel, by decide +kernel, by decide +kernel, by decide +kernel⟩
  have hidentifier : submission.kind 17 = .identifier := by decide +kernel
  have hname : originalName submission 17 = "c" := by decide +kernel
  have houtside : originalName submission 17 ∉ ["b"] := by simp [hname]
  have hreported := restricted_import_reported_once source parse rules 11 17 "m" ["b"]
    hrestricted hspecified houtside
  exact ⟨hrestricted, hspecified, hidentifier, hname, hreported.2.1 hidentifier⟩

/-- A name that is written as a string is imported past the restriction, here under the local name
that the patterns allow. -/
theorem string_name_passes_restriction :
    let rule (kind : String) (field : Option String) (start stop : Nat) : List Tree → Tree :=
      .node ⟨kind, true, false, field, ⟨start, stop⟩⟩
    let token (kind : String) (start stop : Nat) : Tree :=
      .node ⟨kind, false, false, none, ⟨start, stop⟩⟩ []
    let string (field : String) (start : Nat) : Tree := rule "string" (some field) start (start + 3)
      [token "'" start (start + 1), rule "string_fragment" none (start + 1) (start + 2) [],
        token "'" (start + 2) (start + 3)]
    let specifier := rule "import_specifier" none 9 17
      [string "name" 9, token "as" 13 15, rule "identifier" (some "alias") 16 17 []]
    let clause := rule "import_clause" none 7 19
      [rule "named_imports" none 7 19 [token "\x7b" 7 8, specifier, token "\x7d" 18 19]]
    let parse : Parse := ⟨rule "program" none 0 28 [rule "import_statement" none 0 28
      [token "import" 0 6, clause, token "from" 20 24, string "source" 25]], false⟩
    let submission := Submission.ofParse "import \x7b 'a' as b \x7d from 'm'" parse
    let rules : Rules := { allowedImports := some ["m.b"] }
    Restricted submission rules 1 "m" ["b"] ∧ Specified submission 1 7 ∧
      submission.kind 7 = .stringLiteral ∧ originalName submission 7 = "a" ∧ "a" ∉ ["b"] ∧
      Detector.allowedImports.detect submission rules = [] := by
  intro rule token string specifier clause parse submission rules
  exact ⟨⟨by decide +kernel, by decide +kernel, _, rfl, by decide +kernel⟩,
    ⟨3, 6, by decide +kernel, by decide +kernel, by decide +kernel, by decide +kernel⟩,
    by decide +kernel, by decide +kernel, by decide, by decide +kernel⟩

end Check

end Rubric
