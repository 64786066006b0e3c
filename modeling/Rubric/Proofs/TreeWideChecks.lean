import Rubric.Detector.Basic
import Rubric.Proofs.FunctionNames
import Rubric.Proofs.PresentNodes

/-!
Checks that look at every node. Loops, conditional statements, the console and helper functions
are looked for among all nodes of a submission, in the order of their indices. What a node is
reported for can be said of the parser's tree: by the rule it is an instance of, the text it
covers, its children that are there and the node above it. So these checks find what a visit of
the tree collects, at any depth and below errors too.
-/
namespace Rubric

open Grammar

def NodeKind.rulesOf (category : NodeKind) : List String :=
  (ruleKinds.filter fun entry => entry.2 = category).map Prod.fst

namespace Grammar

def Label.isRule (label : Label) (rules : List String) : Bool :=
  label.named && rules.contains label.kind

namespace Tree

def found (source : String) (make : String → Violation) (tree : Tree) : Finding :=
  Finding.at (make (tree.label.text source)) tree.label.span

/-- Whether a loop over a collection runs over its values. Its operator says so, or some token
where no child is marked as the operator. -/
def iteratesValues (source : String) (tree : Tree) : Bool :=
  match tree.filling? "operator" with
  | some operator => operator.text source == "of"
  | none => tree.presentLabels.any fun label =>
      label.category == .other && label.text source == "of"

def loopAt (source : String) (_ : Option Tree) (tree : Tree) : List Finding :=
  if tree.label.isRule ["for_statement", "while_statement", "do_statement"] ||
      tree.label.isRule ["for_in_statement"] && tree.iteratesValues source then
    [tree.found source .loop]
  else []

def ifAt (source : String) (_ : Option Tree) (tree : Tree) : List Finding :=
  if tree.label.isRule ["if_statement"] then [tree.found source .ifStatement] else []

def consoleAt (source : String) (above : Option Tree) (tree : Tree) : List Finding :=
  if tree.label.category = .identifier ∧ tree.label.text source = "console" then
    [Finding.at (.console ((above.getD tree).label.text source)) tree.label.span]
  else []

def functionName? (source : String) (tree : Tree) : Option String :=
  if tree.label.category = .functionDeclaration then
    (tree.filling? "name").map (Label.text source)
  else if tree.label.category = .variableDeclarator then
    match tree.filling? "value", tree.filling? "name" with
    | some value, some name =>
        if value.category.isFunctionLike ∧ name.category = .identifier then
          some (name.text source)
        else none
    | _, _ => none
  else none

def helperAt (source : String) (expected : List String) (_ : Option Tree) (tree : Tree) :
    List Finding :=
  match tree.functionName? source with
  | some name => if name ∈ expected then [] else [tree.found source .helperFunction]
  | none => []

end Tree

end Grammar

/-! Categories and rules -/

theorem NodeKind.lookup_ruleKinds_iff (rule : String) (category : NodeKind) :
    ruleKinds.lookup rule = some category ↔ (rule, category) ∈ ruleKinds := by
  constructor
  · intro h
    obtain ⟨before, after, hsplit, -⟩ := List.lookup_eq_some_iff.mp h
    rw [hsplit]
    exact List.mem_append_right _ List.mem_cons_self
  · have hall : ∀ entry ∈ ruleKinds, ruleKinds.lookup entry.1 = some entry.2 := by decide +kernel
    exact hall (rule, category)

theorem NodeKind.of_mem_ruleKinds (entry : String × NodeKind) (h : entry ∈ ruleKinds) :
    entry.2 ≠ .other ∧ entry.2.keyword? = none ∧ entry.2.operator? = none := by
  have hall : ∀ entry ∈ ruleKinds, entry.2 ≠ .other ∧ entry.2.keyword? = none ∧
      entry.2.operator? = none := by decide
  exact hall entry h

/-- A token has no category that a rule has. -/
theorem NodeKind.ofToken_ne_of_mem (rule text : String) (category : NodeKind)
    (h : (rule, category) ∈ ruleKinds) : ofToken text ≠ category := by
  obtain ⟨hother, hkeyword, hoperator⟩ := of_mem_ruleKinds _ h
  unfold ofToken
  split
  · rintro rfl
    simp [keyword?] at hkeyword
  · split
    · rintro rfl
      simp [operator?] at hoperator
    · exact hother.symm

theorem NodeKind.mem_rulesOf (rule : String) (category : NodeKind) :
    rule ∈ category.rulesOf ↔ (rule, category) ∈ ruleKinds := by
  simp [rulesOf]

/-- The category of a node says which rules it may be an instance of. -/
theorem Grammar.Label.category_eq_iff (label : Label) (category : NodeKind)
    (h : category.rulesOf ≠ []) :
    label.category = category ↔ label.isRule category.rulesOf = true := by
  obtain ⟨rule, hrule⟩ := List.exists_mem_of_ne_nil _ h
  rw [NodeKind.mem_rulesOf] at hrule
  rw [isRule, Bool.and_eq_true, List.contains_iff_mem, NodeKind.mem_rulesOf,
    ← NodeKind.lookup_ruleKinds_iff, Label.category, NodeKind.ofGrammar]
  cases label.named with
  | false => simpa using NodeKind.ofToken_ne_of_mem rule label.kind category hrule
  | true =>
    have hother : category ≠ .other := (NodeKind.of_mem_ruleKinds _ hrule).1
    simp only [if_true, true_and, NodeKind.ofRule]
    cases NodeKind.ruleKinds.lookup label.kind with
    | none => simpa using hother.symm
    | some found => simp

theorem Grammar.Label.isRule_append (label : Label) (left right : List String) :
    label.isRule (left ++ right) = (label.isRule left || label.isRule right) := by
  simp [isRule, Bool.and_or_distrib_left]

theorem Grammar.Label.isLoop_category_iff (label : Label) :
    label.category ≠ .forInStatement ∧ label.category.isLoop = true ↔
      label.isRule ["for_statement", "while_statement", "do_statement"] = true := by
  have hlist : ["for_statement", "while_statement", "do_statement"] =
      NodeKind.rulesOf .forStatement ++
        (NodeKind.rulesOf .whileStatement ++ NodeKind.rulesOf .doStatement) := by decide
  rw [hlist, isRule_append, isRule_append, Bool.or_eq_true, Bool.or_eq_true,
    ← label.category_eq_iff .forStatement (by decide),
    ← label.category_eq_iff .whileStatement (by decide),
    ← label.category_eq_iff .doStatement (by decide)]
  cases label.category <;> simp [NodeKind.isLoop]

/-! What is found at a node -/

namespace Submission.Shows

variable {submission : Submission} {tree : Tree}

theorem report_at (h : submission.Shows tree) (address : List Nat) (subtree : Tree)
    (hat : tree.at? address = some subtree) (make : String → Violation) :
    Check.report submission make (tree.position address) =
      subtree.found submission.source make := by
  obtain ⟨-, -, hspan, -⟩ := h.laysOut.node_at address subtree hat
  rw [Check.report, h.text_at address subtree hat, hspan, Tree.found]

theorem iteratesValues_at (h : submission.Shows tree) (address : List Nat) (subtree : Tree)
    (hat : tree.at? address = some subtree) :
    Check.iteratesValues submission (tree.position address) =
      subtree.iteratesValues submission.source := by
  unfold Check.iteratesValues Tree.iteratesValues
  rcases h.childByField_cases address subtree hat "operator" with
    ⟨hchild, hfilling⟩ | ⟨child, label, hchild, hfilling, -, htext⟩
  · rw [hchild, hfilling]
    have htokens := h.map_children
      (fun i => submission.kind i == .other && submission.text i == "of")
      (fun label => label.category == .other && label.text submission.source == "of")
      (fun address subtree hat => by
        rw [h.kind_at address subtree hat, h.text_at address subtree hat]) address subtree hat
    have hany := congrArg (List.any · id) htokens
    rw [List.any_map, List.any_map] at hany
    exact hany
  · simp only [hchild, hfilling, htext]

theorem isReportedLoop_at (h : submission.Shows tree) (address : List Nat) (subtree : Tree)
    (hat : tree.at? address = some subtree) :
    Check.isReportedLoop submission (tree.position address) =
      (subtree.label.isRule ["for_statement", "while_statement", "do_statement"] ||
        subtree.label.isRule ["for_in_statement"] && subtree.iteratesValues submission.source) := by
  have hforIn : subtree.label.category = .forInStatement ↔
      subtree.label.isRule ["for_in_statement"] = true :=
    subtree.label.category_eq_iff .forInStatement (by decide)
  have hloop := subtree.label.isLoop_category_iff
  rw [Check.isReportedLoop, h.kind_at address subtree hat,
    h.iteratesValues_at address subtree hat]
  split
  · next hkind =>
    have hnot : subtree.label.isRule ["for_statement", "while_statement", "do_statement"] =
        false := Bool.eq_false_iff.mpr fun hrule => (hloop.mpr hrule).1 hkind
    rw [hnot, hforIn.mp hkind, Bool.false_or, Bool.true_and]
  · next hkind =>
    have hnot : subtree.label.isRule ["for_in_statement"] = false :=
      Bool.eq_false_iff.mpr fun hrule => hkind (hforIn.mpr hrule)
    rw [hnot, Bool.false_and, Bool.or_false, Bool.eq_iff_iff, ← hloop]
    exact ⟨fun hkindLoop => ⟨hkind, hkindLoop⟩, And.right⟩

theorem isIfStatement_at (h : submission.Shows tree) (address : List Nat) (subtree : Tree)
    (hat : tree.at? address = some subtree) :
    (submission.kind (tree.position address) == .ifStatement) =
      subtree.label.isRule ["if_statement"] := by
  rw [h.kind_at address subtree hat, Bool.eq_iff_iff, beq_iff_eq]
  exact subtree.label.category_eq_iff .ifStatement (by decide)

theorem console_at (h : submission.Shows tree) (address : List Nat) (subtree : Tree)
    (hat : tree.at? address = some subtree) :
    (if Check.isConsole submission (tree.position address) then
        [Check.consoleFinding submission (tree.position address)] else []) =
      subtree.consoleAt submission.source (tree.above? address) := by
  obtain ⟨-, -, hspan, -⟩ := h.laysOut.node_at address subtree hat
  have hkind := h.kind_at address subtree hat
  have htext := h.text_at address subtree hat
  have habove : submission.text ((submission.parent (tree.position address)).getD
      (tree.position address)) =
        ((tree.above? address).getD subtree).label.text submission.source := by
    have hparent := congrArg (Option.getD · (submission.text (tree.position address)))
      (h.parent_at address subtree hat)
    rw [Option.getD_map] at hparent
    rw [hparent, htext]
    cases tree.above? address <;> rfl
  rw [Check.consoleFinding, habove, hspan, Tree.consoleAt]
  simp [Check.isConsole, hkind, htext]

theorem functionName?_at (h : submission.Shows tree) (address : List Nat) (subtree : Tree)
    (hat : tree.at? address = some subtree) :
    submission.functionName? (tree.position address) =
      subtree.functionName? submission.source := by
  have hkind := h.kind_at address subtree hat
  have hname := h.childByField_cases address subtree hat "name"
  have hvalue := h.childByField_cases address subtree hat "value"
  unfold Submission.functionName? Submission.isFunctionDeclarator Tree.functionName?
  rw [hkind]
  by_cases hdeclaration : subtree.label.category = .functionDeclaration
  · rw [if_pos hdeclaration, if_pos hdeclaration]
    rcases hname with ⟨hchild, hfilling⟩ | ⟨name, label, hchild, hfilling, -, htext⟩
    · rw [hchild, hfilling]
      rfl
    · rw [hchild, hfilling, Option.map_some, Option.map_some, htext]
  · rw [if_neg hdeclaration, if_neg hdeclaration]
    by_cases hdeclarator : subtree.label.category = .variableDeclarator
    · rcases hvalue with ⟨hvalueNone, hvalueFilling⟩ |
        ⟨value, valueLabel, hvalueSome, hvalueFilling, hvalueKind, -⟩
      · simp [hdeclarator, hvalueNone, hvalueFilling]
      · rcases hname with ⟨hnameNone, hnameFilling⟩ |
          ⟨name, nameLabel, hnameSome, hnameFilling, hnameKind, hnameText⟩
        · simp [hdeclarator, hvalueSome, hvalueFilling, hnameNone, hnameFilling]
        · simp only [hdeclarator, hvalueSome, hvalueFilling, hnameSome, hnameFilling, hvalueKind,
            hnameKind, hnameText, beq_self_eq_true, Bool.true_and, if_true, ite_and]
    · simp [hdeclarator]

end Submission.Shows

namespace Grammar.Tree

variable (source : String)

theorem readsLabels_loopAt : ReadsLabels (loopAt source) := by
  intro above above' tree tree' _ hlabel hpresent
  have hvalues : tree.iteratesValues source = tree'.iteratesValues source := by
    unfold iteratesValues filling?
    rw [hpresent]
  simp only [loopAt, found, hlabel, hvalues]

theorem readsLabels_ifAt : ReadsLabels (ifAt source) := by
  intro above above' tree tree' _ hlabel _
  simp only [ifAt, found, hlabel]

theorem readsLabels_consoleAt : ReadsLabels (consoleAt source) := by
  intro above above' tree tree' habove hlabel _
  have hshown : (above.getD tree).label = (above'.getD tree').label := by
    rw [← Option.getD_map label, ← Option.getD_map label, habove, hlabel]
  simp only [consoleAt, hlabel, hshown]

theorem readsLabels_helperAt (expected : List String) :
    ReadsLabels (helperAt source expected) := by
  intro above above' tree tree' _ hlabel hpresent
  simp only [helperAt, functionName?, filling?, found, hlabel, hpresent]

end Grammar.Tree

namespace Detector

/-- A detector finds what a visit of the parser's tree collects, in that order. So it finds what
every node contributes that is reached, whatever stands above it. -/
structure FindsByVisiting (detector : Detector) (source : String) (parse : Parse) (rules : Rules)
    (own : Option Tree → Tree → List Finding) : Prop where
  detect_eq : detector.detect (Submission.ofParse source parse) rules = parse.tree.visit own none
  mem_detect_iff : ∀ finding, finding ∈ detector.detect (Submission.ofParse source parse) rules ↔
    ∃ above node, parse.tree.Reaches above node ∧ finding ∈ own above node

theorem findsByVisiting_of_nodes (detector : Detector) (source : String) (parse : Parse)
    (rules : Rules) (hroot : parse.tree.label.missing = false) (look : Nat → Bool)
    (make : Nat → Finding) (own : Option Tree → Tree → List Finding)
    (hdetect : detector.detect (Submission.ofParse source parse) rules =
      ((Submission.ofParse source parse).indices.filter look).map make)
    (hreads : Tree.ReadsLabels own)
    (hown : ∀ kept, (Submission.ofParse source parse).Shows kept → ∀ address subtree,
      kept.at? address = some subtree →
        (if look (kept.position address) then [make (kept.position address)] else []) =
          own (kept.above? address) subtree) :
    detector.FindsByVisiting source parse rules own := by
  have hvisit : detector.detect (Submission.ofParse source parse) rules =
      parse.tree.visit own none := by
    rw [hdetect, map_filter_eq_flatMap]
    exact Submission.flatMap_indices_ofParse source parse hroot _ own hreads hown
  refine ⟨hvisit, ?_⟩
  intro finding
  rw [hvisit, Tree.mem_visit_iff]

/-- Under rules that ask for them, the checks on loops, conditional statements, the console and
helper functions find what a visit of the parser's tree collects. -/
theorem tree_wide_checks_find_by_visiting (source : String) (parse : Parse) (rules : Rules)
    (hroot : parse.tree.label.missing = false) :
    (rules.disallows .loops = true →
      noLoops.FindsByVisiting source parse rules (Tree.loopAt source)) ∧
    (rules.disallows .ifStatements = true →
      noIfStatements.FindsByVisiting source parse rules (Tree.ifAt source)) ∧
    (rules.disallows .console = true →
      noConsole.FindsByVisiting source parse rules (Tree.consoleAt source)) ∧
    ∀ expected, rules.expectedFunctions = some expected →
      rules.disallows .helperFunctions = true →
        noHelperFunctions.FindsByVisiting source parse rules (Tree.helperAt source expected) := by
  refine ⟨?_, ?_, ?_, ?_⟩
  · intro hloops
    refine findsByVisiting_of_nodes noLoops source parse rules hroot _ _ _ (if_pos hloops)
      (Tree.readsLabels_loopAt source) ?_
    intro kept hshows address subtree hat
    rw [hshows.isReportedLoop_at address subtree hat, hshows.report_at address subtree hat]
    rfl
  · intro hifs
    refine findsByVisiting_of_nodes noIfStatements source parse rules hroot _ _ _ (if_pos hifs)
      (Tree.readsLabels_ifAt source) ?_
    intro kept hshows address subtree hat
    rw [hshows.isIfStatement_at address subtree hat, hshows.report_at address subtree hat]
    rfl
  · intro hconsole
    exact findsByVisiting_of_nodes noConsole source parse rules hroot _ _ _ (if_pos hconsole)
      (Tree.readsLabels_consoleAt source) fun kept hshows => hshows.console_at
  · intro expected hexpected hhelpers
    refine findsByVisiting_of_nodes noHelperFunctions source parse rules hroot _ _ _
      (if_pos (by simp [hexpected, hhelpers])) (Tree.readsLabels_helperAt source expected) ?_
    intro kept hshows address subtree hat
    have hname : (Submission.ofParse source parse).functionName? (kept.position address) =
        subtree.functionName? source := hshows.functionName?_at address subtree hat
    have hreport : Check.report (Submission.ofParse source parse) .helperFunction
        (kept.position address) = subtree.found source .helperFunction :=
      hshows.report_at address subtree hat .helperFunction
    rw [hreport, Check.isHelper, hname, Tree.helperAt]
    cases subtree.functionName? source <;> simp [Rules.expectsFunction, hexpected]

/-- A loop inside a conditional statement inside a function, in a text that breaks off. The call in
the loop stands below an error and lacks its closing parenthesis. -/
theorem tree_wide_checks_find_by_visiting_broken_off :
    let rule (kind : String) (field : Option String) (start stop : Nat) : List Tree → Tree :=
      .node ⟨kind, true, false, field, ⟨start, stop⟩⟩
    let token (kind : String) (field : Option String) (missing : Bool) (start stop : Nat) : Tree :=
      .node ⟨kind, false, missing, field, ⟨start, stop⟩⟩ []
    let call := rule "call_expression" none 36 46
      [rule "member_expression" (some "function") 36 45 [rule "identifier" (some "object") 36 43 [],
        token "." none false 43 44, rule "property_identifier" (some "property") 44 45 []],
        rule "arguments" none 45 46 [token "(" none false 45 46, token ")" none true 46 46]]
    let loop := rule "for_in_statement" (some "consequence") 23 46
      [token "for" none false 23 26, token "(" none false 27 28,
        rule "identifier" (some "left") 28 29 [], token "of" (some "operator") false 30 32,
        rule "identifier" (some "right") 33 34 [], token ")" none false 34 35,
        rule "ERROR" (some "body") 36 46 [call]]
    let branch := rule "if_statement" none 16 46
      [token "if" none false 16 18, rule "parenthesized_expression" (some "condition") 19 22
        [token "(" none false 19 20, rule "identifier" none 20 21 [], token ")" none false 21 22],
        loop]
    let body := rule "statement_block" (some "body") 14 46
      [token "\x7b" none false 14 15, branch, token "\x7d" none true 46 46]
    let declarator := rule "variable_declarator" none 4 46
      [rule "identifier" (some "name") 4 5 [], token "=" none false 6 7,
        rule "arrow_function" (some "value") 8 46 [token "=>" none false 11 13, body]]
    let source := "let h = () => \x7b if (a) for (b of c) console.x("
    let parse : Parse := ⟨rule "program" none 0 46
      [rule "lexical_declaration" none 0 46 [token "let" none false 0 3, declarator]], true⟩
    let submission := Submission.ofParse source parse
    let rules : Rules := { expectedFunctions := some ["f"], disallow := some Construct.all }
    noLoops.detect submission rules =
        [Finding.at (.loop "for (b of c) console.x(") ⟨23, 46⟩] ∧
      noIfStatements.detect submission rules =
        [Finding.at (.ifStatement "if (a) for (b of c) console.x(") ⟨16, 46⟩] ∧
      noConsole.detect submission rules = [Finding.at (.console "console.x") ⟨36, 43⟩] ∧
      noHelperFunctions.detect submission rules =
        [Finding.at (.helperFunction "h = () => \x7b if (a) for (b of c) console.x(") ⟨4, 46⟩] := by
  intro rule token call loop branch body declarator source parse submission rules
  obtain ⟨hloops, hifs, hconsole, hhelpers⟩ :=
    tree_wide_checks_find_by_visiting source parse rules rfl
  exact ⟨(hloops rfl).detect_eq.trans (by decide +kernel),
    (hifs rfl).detect_eq.trans (by decide +kernel),
    (hconsole rfl).detect_eq.trans (by decide +kernel),
    (hhelpers ["f"] rfl rfl).detect_eq.trans (by decide +kernel)⟩

end Detector

end Rubric
