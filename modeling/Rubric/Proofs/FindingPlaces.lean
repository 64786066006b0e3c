import Mathlib.Data.List.Pairwise
import Rubric.Proofs.DetectorActivity
import Rubric.Proofs.PlacedNodes

/-!
Where findings point. A finding is one of four: the missing functions of the whole file, a
declaration from its keyword to its last binding, a node as a whole, or a console identifier shown
in what surrounds it. Over a well placed tree each of them has a span between places of the text,
and the code it carries is what stands there, the surroundings of a console identifier apart.
-/
namespace Rubric

open Grammar

namespace Check

/-- Violations whose text at fault is the code they are made from, those on the console apart. -/
def Carries (make : String → Violation) : Prop :=
  ∀ code, (make code).code? = some code ∧ (make code).tag ≠ .disallowedConsole

inductive Reported (submission : Submission) : Finding → Prop
  | missing (names : List String) :
      Reported submission (Finding.wholeFile (.missingFunctions names))
  | declaration (kind : DeclarationKind) (keyword : Nat)
      (h : (kind, keyword) ∈ declarationKeywords submission) :
      Reported submission (declarationFinding submission (kind, keyword))
  | node (make : String → Violation) (i : Nat) (h : Carries make) :
      Reported submission (report submission make i)
  | console (i : Nat) (h : isConsole submission i = true) :
      Reported submission (consoleFinding submission i)

variable (submission : Submission) (rules : Rules)

theorem reported_of_mem_expectedFunctions (finding : Finding)
    (h : finding ∈ expectedFunctions submission rules) : Reported submission finding := by
  unfold expectedFunctions at h
  split at h
  · simp at h
  · unfold Violation.missingFunctions? at h
    split at h
    · simp at h
    · simp only [Option.toList_some, List.map_cons, List.map_nil, List.mem_singleton] at h
      subst h
      exact .missing _

theorem reported_of_mem_validDeclarations (finding : Finding)
    (h : finding ∈ validDeclarations submission rules) : Reported submission finding := by
  rw [validDeclarations_eq_flatMap, List.mem_flatMap] at h
  obtain ⟨kind, -, hkind⟩ := h
  split at hkind
  · simp at hkind
  · obtain ⟨⟨other, keyword⟩, hkeyword, rfl⟩ := List.mem_map.mp hkind
    exact .declaration other keyword (List.mem_filter.mp hkeyword).1

/-- Findings made from nodes, where rules ask for them. -/
theorem reported_of_mem_nodes (make : String → Violation) (active : Bool) (nodes : List Nat)
    (hmake : Carries make) (finding : Finding)
    (h : finding ∈ if active then nodes.map (report submission make) else []) :
    Reported submission finding := by
  split at h
  · obtain ⟨i, -, rfl⟩ := List.mem_map.mp h
    exact .node make i hmake
  · simp at h

theorem reported_of_mem_noReassignment (finding : Finding)
    (h : finding ∈ noReassignment submission rules) : Reported submission finding := by
  unfold noReassignment at h
  split at h
  · obtain ⟨i, -, hfinding⟩ := List.mem_filterMap.mp h
    obtain ⟨parent, -, rfl⟩ := Option.map_eq_some_iff.mp hfinding
    exact .node .reassignment parent fun _ => ⟨rfl, nofun⟩
  · simp at h

theorem reported_of_mem_noConsole (finding : Finding)
    (h : finding ∈ noConsole submission rules) : Reported submission finding := by
  unfold noConsole at h
  split at h
  · obtain ⟨i, hi, rfl⟩ := List.mem_map.mp h
    exact .console i (List.mem_filter.mp hi).2
  · simp at h

theorem reported_of_mem_allowedImports (finding : Finding)
    (h : finding ∈ allowedImports submission rules) : Reported submission finding := by
  unfold allowedImports at h
  split at h
  · simp at h
  · obtain ⟨statement, -, hfinding⟩ := List.mem_filterMap.mp h
    unfold importFinding? at hfinding
    split at hfinding
    · simp at hfinding
    · next source _ =>
      dsimp only at hfinding
      split at hfinding
      · simp at hfinding
      · simp only [Option.some.injEq] at hfinding
        subst hfinding
        exact .node (.importRefused (stripQuotes (submission.text source))) statement
          fun _ => ⟨rfl, nofun⟩

theorem reported_of_mem_detect (detector : Detector) (finding : Finding)
    (h : finding ∈ detector.detect submission rules) : Reported submission finding := by
  cases detector with
  | expectedFunctions => exact reported_of_mem_expectedFunctions submission rules finding h
  | validDeclarations => exact reported_of_mem_validDeclarations submission rules finding h
  | noReassignment => exact reported_of_mem_noReassignment submission rules finding h
  | noLoops =>
    exact reported_of_mem_nodes submission .loop _ _ (fun _ => ⟨rfl, nofun⟩) finding h
  | noIfStatements =>
    exact reported_of_mem_nodes submission .ifStatement _ _ (fun _ => ⟨rfl, nofun⟩) finding h
  | noConsole => exact reported_of_mem_noConsole submission rules finding h
  | noHelperFunctions =>
    exact reported_of_mem_nodes submission .helperFunction _ _ (fun _ => ⟨rfl, nofun⟩) finding h
  | allowedImports => exact reported_of_mem_allowedImports submission rules finding h

end Check

namespace Submission

variable {submission : Submission}

theorem slice?_eq_slice {span : Span} (h : span.InText submission.source) :
    Text.slice? submission.source span.start span.stop = some (submission.slice span) := by
  obtain ⟨piece, hpiece⟩ := h.exists_slice
  rw [slice, hpiece, Option.getD_some]

/-- A keyword starts before the end of a sibling that no keyword comes after. -/
theorem Placed.keyword_start_le (h : submission.Placed) (parent keyword last : Nat)
    (P : Nat → Prop) (hlast : last ∈ submission.children parent) (hP : P last)
    (hkeyword : keyword ∈ submission.children parent)
    (hkind : (submission.kind keyword).keyword? ≠ none)
    (hpairwise : (submission.children parent).Pairwise fun left right =>
      P left → (submission.kind right).keyword? = none) :
    (submission.span keyword).start ≤ (submission.span last).stop := by
  have hkeywordOrdered := (h.inText keyword).ordered
  have hlastOrdered := (h.inText last).ordered
  by_cases hsame : keyword = last
  · rw [hsame]
    exact hlastOrdered
  · let Before (left right : Nat) : Prop :=
      (submission.span left).stop ≤ (submission.span right).start ∧
        (P left → (submission.kind right).keyword? = none)
    have hsymm : Std.Symm fun left right => Before left right ∨ Before right left :=
      ⟨fun _ _ => Or.symm⟩
    have heither : (submission.children parent).Pairwise fun left right =>
        Before left right ∨ Before right left :=
      ((h.siblings parent).and hpairwise).imp Or.inl
    rcases heither.forall hkeyword hlast hsame with hbefore | hafter
    · have hstop := hbefore.1
      omega
    · exact absurd (hafter.2 hP) hkind

/-- The last binding next to a keyword ends after the keyword starts. -/
theorem Placed.start_le_lastBinding (h : submission.Placed) (parent keyword last : Nat)
    (hparent : submission.parent keyword = some parent)
    (hkind : (submission.kind keyword).keyword? ≠ none)
    (hheads : (submission.kind parent).isDeclaration = true ∨
      submission.kind parent = .forInStatement)
    (hlast : Check.lastBinding? submission parent = some last) :
    (submission.span keyword).start ≤ (submission.span last).stop := by
  have hkeyword := h.linked parent keyword hparent
  unfold Check.lastBinding? at hlast
  split at hlast
  · next hloop =>
    unfold childByField at hlast
    have hmem := List.mem_of_find?_eq_some hlast
    have hleft := List.find?_some hlast
    simp only [beq_iff_eq] at hleft
    exact h.keyword_start_le parent keyword last (fun i => submission.field i = some "left")
      hmem hleft hkeyword hkind (h.loopBinding parent hloop)
  · next hloop =>
    have hmem := List.mem_reverse.mp (List.mem_of_find?_eq_some hlast)
    have hdeclarator := List.find?_some hlast
    simp only [beq_iff_eq] at hdeclarator
    exact h.keyword_start_le parent keyword last
      (fun i => submission.kind i = .variableDeclarator) hmem hdeclarator hkeyword hkind
      (h.declarators parent (hheads.resolve_right hloop))

end Submission

namespace Check

variable {submission : Submission}

theorem mem_declarationKeywords (kind : DeclarationKind) (keyword : Nat)
    (h : (kind, keyword) ∈ declarationKeywords submission) :
    submission.kind keyword = .declarationKeyword kind ∧
      headsDeclaration submission keyword = true := by
  obtain ⟨i, -, hi⟩ := List.mem_filterMap.mp h
  split at hi
  · next hkind =>
    split at hi
    · next hheads =>
      simp only [Option.some.injEq, Prod.mk.injEq] at hi
      obtain ⟨rfl, rfl⟩ := hi
      exact ⟨hkind, hheads⟩
    · simp at hi
  · simp at hi

/-- The range of a declaration is a range of the text. -/
theorem declarationSpan_inText (hplaced : submission.Placed) (kind : DeclarationKind)
    (keyword : Nat) (h : (kind, keyword) ∈ declarationKeywords submission) :
    (declarationSpan submission keyword).InText submission.source := by
  obtain ⟨hkind, hheads⟩ := mem_declarationKeywords kind keyword h
  have hstart := hplaced.inText keyword
  unfold headsDeclaration at hheads
  unfold declarationSpan
  cases hparent : submission.parent keyword with
  | none => exact hstart
  | some parent =>
    simp only [hparent, Bool.or_eq_true, beq_iff_eq] at hheads ⊢
    cases hlast : lastBinding? submission parent with
    | none =>
      have hstop := hplaced.inText parent
      have hnested := (hplaced.nested parent keyword hparent).2
      have hordered := hstart.ordered
      exact ⟨by simp only; omega, hstop.bounded, hstart.start, hstop.stop⟩
    | some last =>
      have hstop := hplaced.inText last
      have hordered := hplaced.start_le_lastBinding parent keyword last hparent
        (by simp [hkind, NodeKind.keyword?]) hheads hlast
      exact ⟨hordered, hstop.bounded, hstart.start, hstop.stop⟩

end Check

theorem Violation.code?_eq_none_iff (violation : Violation) :
    violation.code? = none ↔ violation.tag = .missingExpectedFunction := by
  cases violation <;> simp [code?, tag]

namespace Finding

/-- A console identifier, and the code of a finding on it as the text of what surrounds it. -/
structure ShowsConsole (submission : Submission) (finding : Finding) (code : String)
    (identifier surroundings : Nat) : Prop where
  kind : submission.kind identifier = .identifier
  span : finding.span = some (submission.span identifier)
  word : Text.slice? submission.source (submission.span identifier).start
    (submission.span identifier).stop = some "console"
  surrounds : surroundings = (submission.parent identifier).getD identifier
  shown : Text.slice? submission.source (submission.span surroundings).start
    (submission.span surroundings).stop = some code
  start_le : (submission.span surroundings).start ≤ (submission.span identifier).start
  inside : Text.slice? code
    ((submission.span identifier).start - (submission.span surroundings).start)
    ((submission.span identifier).stop - (submission.span surroundings).start) = some "console"

/-- A finding that points at a range of the text and carries what stands there. -/
structure Faithful (submission : Submission) (finding : Finding) : Prop where
  wholeFile : finding.span = none ↔ finding.violation.tag = .missingExpectedFunction
  inText : ∀ span, finding.span = some span → span.InText submission.source
  marks : ∀ name, ∀ mark ∈ (finding.diagnostic name submission.source).labels, ∃ span,
    finding.span = some span ∧ mark.offset = span.start ∧ mark.offset + mark.length = span.stop
  code : ∀ span, finding.span = some span → finding.violation.tag ≠ .disallowedConsole →
    ∃ code, finding.violation.code? = some code ∧
      Text.slice? submission.source span.start span.stop = some code
  console : ∀ code, finding.violation = .console code → ∃ identifier surroundings,
    finding.ShowsConsole submission code identifier surroundings

variable {submission : Submission}

/-- A mark ends where the span does, as the length of an ordered span is no cut-off difference. -/
theorem mark_of_inText (finding : Finding)
    (h : ∀ span, finding.span = some span → span.InText submission.source) (name : String)
    (mark : Mark) (hmark : mark ∈ (finding.diagnostic name submission.source).labels) :
    ∃ span, finding.span = some span ∧ mark.offset = span.start ∧
      mark.offset + mark.length = span.stop := by
  unfold diagnostic at hmark
  split at hmark
  · next span hspan =>
    rw [List.mem_singleton] at hmark
    subst hmark
    have hordered := (h span hspan).ordered
    refine ⟨span, hspan, rfl, ?_⟩
    simp only [Span.length]
    omega
  · simp at hmark

theorem faithful_wholeFile (names : List String) :
    (wholeFile (.missingFunctions names)).Faithful submission where
  wholeFile := by simp [Finding.wholeFile, Violation.tag]
  inText := by simp [Finding.wholeFile]
  marks := by simp [Finding.wholeFile, diagnostic]
  code := by simp [Finding.wholeFile]
  console := by simp [Finding.wholeFile]

/-- A finding that carries the text of the span it points at. -/
theorem faithful_at (span : Span) (h : span.InText submission.source) (violation : Violation)
    (hcode : violation.code? = some (submission.slice span))
    (htag : violation.tag ≠ .disallowedConsole) :
    (Finding.at violation span).Faithful submission where
  wholeFile := by
    simp [Finding.at, ← Violation.code?_eq_none_iff, hcode]
  inText := by simpa [Finding.at] using h
  marks := mark_of_inText _ (by simpa [Finding.at] using h)
  code := by
    intro other hother _
    simp only [Finding.at, Option.some.injEq] at hother
    subst hother
    exact ⟨_, hcode, Submission.slice?_eq_slice h⟩
  console := by
    intro code hconsole
    simp only [Finding.at] at hconsole
    rw [hconsole] at htag
    exact absurd rfl htag

/-- What surrounds a node contains it. -/
theorem surroundings_contain (hplaced : submission.Placed) (i surroundings : Nat)
    (h : surroundings = (submission.parent i).getD i) :
    (submission.span surroundings).start ≤ (submission.span i).start ∧
      (submission.span i).stop ≤ (submission.span surroundings).stop := by
  cases hparent : submission.parent i with
  | none =>
    rw [hparent, Option.getD_none] at h
    subst h
    exact ⟨Nat.le_refl _, Nat.le_refl _⟩
  | some parent =>
    rw [hparent, Option.getD_some] at h
    subst h
    exact hplaced.nested surroundings i hparent

theorem showsConsole_consoleFinding (hplaced : submission.Placed) (i : Nat)
    (h : Check.isConsole submission i = true) :
    (Check.consoleFinding submission i).ShowsConsole submission
      (submission.text ((submission.parent i).getD i)) i ((submission.parent i).getD i) := by
  simp only [Check.isConsole, Bool.and_eq_true, beq_iff_eq] at h
  obtain ⟨hkind, htext⟩ := h
  obtain ⟨hstart, hstop⟩ := surroundings_contain hplaced i _ rfl
  have hword := Submission.slice?_eq_slice (hplaced.inText i)
  have hshown := Submission.slice?_eq_slice (hplaced.inText ((submission.parent i).getD i))
  rw [← Submission.text, htext] at hword
  exact ⟨hkind, rfl, hword, rfl, hshown, hstart,
    Text.slice?_of_slice? _ _ _ _ _ _ _ hstart hstop hshown hword⟩

theorem faithful_consoleFinding (hplaced : submission.Placed) (i : Nat)
    (h : Check.isConsole submission i = true) :
    (Check.consoleFinding submission i).Faithful submission where
  wholeFile := by simp [Check.consoleFinding, Finding.at, Violation.tag]
  inText := by simpa [Check.consoleFinding, Finding.at] using hplaced.inText i
  marks := mark_of_inText _ (by
    simpa [Check.consoleFinding, Finding.at] using hplaced.inText i)
  code := by simp [Check.consoleFinding, Finding.at, Violation.tag]
  console := by
    intro code hcode
    simp only [Check.consoleFinding, Finding.at, Violation.console.injEq] at hcode
    subst hcode
    exact ⟨i, _, showsConsole_consoleFinding hplaced i h⟩

/-- Every finding that a check can make is faithful. -/
theorem faithful_of_reported (hplaced : submission.Placed) (finding : Finding)
    (h : Check.Reported submission finding) : finding.Faithful submission := by
  cases h with
  | missing names => exact faithful_wholeFile names
  | declaration kind keyword hkeyword =>
    exact faithful_at _ (Check.declarationSpan_inText hplaced kind keyword hkeyword) _ rfl
      (by simp [Violation.tag])
  | node make i hmake =>
    exact faithful_at _ (hplaced.inText i) _ (hmake (submission.text i)).1
      (hmake (submission.text i)).2
  | console i hconsole => exact faithful_consoleFinding hplaced i hconsole

end Finding

/-- Over a well placed tree, every finding of a check points at a range of the text and carries
what stands there. -/
theorem Engine.check_faithful (source : String) (parse : Parse)
    (hplaced : parse.tree.Everywhere (Tree.WellPlaced source)) (engine : Engine)
    (rules : Rules) :
    ∀ finding ∈ engine.check (Submission.ofParse source parse) rules,
      finding.Faithful (Submission.ofParse source parse) := by
  intro finding hfinding
  obtain ⟨detector, -, hdetect⟩ := (mem_check _ rules engine finding).mp hfinding
  have hreported := Check.reported_of_mem_detect _ rules detector finding hdetect
  exact Finding.faithful_of_reported (Submission.placed_ofParse source parse hplaced) finding
    hreported

/-- A declaration that names the console, under rules that refuse both. -/
theorem Engine.check_faithful_declared_console :
    let rule (kind : String) (field : Option String) (start stop : Nat) : List Tree → Tree :=
      .node ⟨kind, true, false, field, ⟨start, stop⟩⟩
    let token (kind : String) (start stop : Nat) : Tree :=
      .node ⟨kind, false, false, none, ⟨start, stop⟩⟩ []
    let declarator := rule "variable_declarator" none 4 16
      [rule "identifier" (some "name") 4 6 [], token "=" 7 8,
        rule "identifier" (some "value") 9 16 []]
    let declaration := rule "lexical_declaration" none 0 17
      [token "let" 0 3, declarator, token ";" 16 17]
    let parse : Parse := ⟨rule "program" none 0 17 [declaration], false⟩
    let submission := Submission.ofParse "let é = console;" parse
    let rules : Rules := { validDeclarations := some [.constDecl], disallow := some [.console] }
    let letFinding := Finding.at (.declaration .letDecl "let é = console") ⟨0, 16⟩
    let consoleFinding := Finding.at (.console "é = console") ⟨9, 16⟩
    parse.tree.Everywhere (Tree.WellPlaced "let é = console;") ∧
      standard.check submission rules = [letFinding, consoleFinding] ∧
      letFinding.Faithful submission ∧ consoleFinding.Faithful submission := by
  intro rule token declarator declaration parse submission rules letFinding consoleFinding
  have hplaced : parse.tree.Everywhere (Tree.WellPlaced "let é = console;") := by
    decide +kernel
  have hcheck : standard.check submission rules = [letFinding, consoleFinding] := by
    decide +kernel
  have hfaithful := check_faithful "let é = console;" parse hplaced standard rules
  rw [hcheck] at hfaithful
  exact ⟨hplaced, hcheck, hfaithful letFinding (by simp), hfaithful consoleFinding (by simp)⟩

end Rubric
