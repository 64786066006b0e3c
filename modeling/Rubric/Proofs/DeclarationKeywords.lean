import Mathlib.Data.List.Forall2
import Rubric.Proofs.FindingPlaces
import Rubric.Proofs.Occurrences
import Rubric.Proofs.ReportOrder
import Rubric.Proofs.TreeWideChecks

/-!
Declarations are reported by their keywords. Every keyword that heads a declaration or a loop over
a collection is reported once, under its own kind, so it does not matter how much is declared after
it, and a keyword in any other place is not reported. The code of a report runs from the keyword to
the end of what it declares. Allowing kinds takes their reports away and leaves the others as they
are.
-/
namespace Rubric

open Grammar

def NodeKind.headed : List NodeKind := [lexicalDeclaration, variableDeclaration, forInStatement]

/-- Where a keyword of a kind stands, if the node above is an instance of a rule that it heads. -/
def Grammar.Tree.keywordAt (kind : DeclarationKind) (above : Option Tree) (tree : Tree) :
    List Span :=
  if !tree.label.named && tree.label.kind == kind.keyword &&
      above.any (fun above => above.label.isRule
        ["lexical_declaration", "variable_declaration", "for_in_statement"]) then
    [tree.label.span]
  else []

namespace Submission

variable (submission : Submission)

def headKeywords (kind : DeclarationKind) : List Nat :=
  submission.indices.filter fun i => submission.kind i == .declarationKeyword kind &&
    (submission.parent i).any fun parent => NodeKind.headed.contains (submission.kind parent)

/-- What a declaration binds by a declarator, and a loop by the child on its left. -/
def IsBinding (parent child : Nat) : Prop :=
  if submission.kind parent = .forInStatement then submission.field child = some "left"
  else submission.kind child = .variableDeclarator

/-- Where the binding part after a keyword ends: with the first binding of a loop, with the last
one of a declaration, and with the whole node where there is none. -/
inductive BindingsEnd (parent : Nat) : Nat → Prop
  | loop (left : Nat) (hloop : submission.kind parent = .forInStatement)
      (h : FirstWith (submission.IsBinding parent) (submission.children parent) left) :
      BindingsEnd parent (submission.span left).stop
  | declaration (last : Nat) (hloop : submission.kind parent ≠ .forInStatement)
      (h : LastWith (submission.IsBinding parent) (submission.children parent) last) :
      BindingsEnd parent (submission.span last).stop
  | whole (h : ∀ child ∈ submission.children parent, ¬ submission.IsBinding parent child) :
      BindingsEnd parent (submission.span parent).stop

def DeclaredBy (kind : DeclarationKind) (keyword : Nat) (finding : Finding) : Prop :=
  ∃ parent span, submission.parent keyword = some parent ∧
    span.start = (submission.span keyword).start ∧ submission.BindingsEnd parent span.stop ∧
    finding = Finding.at (.declaration kind (submission.slice span)) span

end Submission

/-! Keywords in the parser's tree -/

namespace Grammar.Label

/-- Only a token can be a keyword, though a rule may have its name. -/
theorem category_eq_declarationKeyword_iff (label : Label) (kind : DeclarationKind) :
    label.category = .declarationKeyword kind ↔
      label.named = false ∧ label.kind = kind.keyword := by
  rw [← DeclarationKind.ofKeyword?_eq_some_iff, category, NodeKind.ofGrammar]
  cases label.named with
  | false =>
    simp only [Bool.false_eq_true, if_false, true_and, NodeKind.ofToken]
    cases DeclarationKind.ofKeyword? label.kind with
    | some found => simp
    | none => cases Operator.ofToken? label.kind <;> simp
  | true =>
    simp only [if_true, Bool.true_eq_false, false_and, iff_false, NodeKind.ofRule]
    cases hlookup : NodeKind.ruleKinds.lookup label.kind with
    | none => simp
    | some category =>
      have hmem := (NodeKind.lookup_ruleKinds_iff label.kind category).mp hlookup
      obtain ⟨-, hkeyword, -⟩ := NodeKind.of_mem_ruleKinds _ hmem
      intro heq
      rw [Option.getD_some] at heq
      rw [heq] at hkeyword
      simp [NodeKind.keyword?] at hkeyword

theorem category_mem_headed_iff (label : Label) :
    label.category ∈ NodeKind.headed ↔
      label.isRule ["lexical_declaration", "variable_declaration", "for_in_statement"] = true := by
  have hlist : ["lexical_declaration", "variable_declaration", "for_in_statement"] =
      NodeKind.rulesOf .lexicalDeclaration ++
        (NodeKind.rulesOf .variableDeclaration ++ NodeKind.rulesOf .forInStatement) := by decide
  rw [hlist, isRule_append, isRule_append, Bool.or_eq_true, Bool.or_eq_true,
    ← label.category_eq_iff .lexicalDeclaration (by decide),
    ← label.category_eq_iff .variableDeclaration (by decide),
    ← label.category_eq_iff .forInStatement (by decide)]
  simp [NodeKind.headed]

end Grammar.Label

theorem Grammar.Tree.readsLabels_keywordAt (kind : DeclarationKind) :
    ReadsLabels (keywordAt kind) := by
  intro above above' tree tree' habove hlabel _
  have hany (p : Label → Bool) : (above.any fun tree => p tree.label) =
      above'.any fun tree => p tree.label := by
    have hmap := congrArg (Option.any p) habove
    rw [Option.any_map, Option.any_map] at hmap
    exact hmap
  have hrule := hany fun label => label.isRule
    ["lexical_declaration", "variable_declaration", "for_in_statement"]
  simp only [keywordAt, hlabel, hrule]

namespace Submission

theorem Shows.keyword_at {submission : Submission} {tree : Tree} (h : submission.Shows tree)
    (kind : DeclarationKind) (address : List Nat) (subtree : Tree)
    (hat : tree.at? address = some subtree) :
    (if submission.kind (tree.position address) == .declarationKeyword kind &&
        (submission.parent (tree.position address)).any (fun parent =>
          NodeKind.headed.contains (submission.kind parent)) then
        [submission.span (tree.position address)] else []) =
      Tree.keywordAt kind (tree.above? address) subtree := by
  obtain ⟨-, -, hspan, -⟩ := h.laysOut.node_at address subtree hat
  have hkind : (submission.kind (tree.position address) == .declarationKeyword kind) =
      (!subtree.label.named && subtree.label.kind == kind.keyword) := by
    rw [h.kind_at address subtree hat, Bool.eq_iff_iff, beq_iff_eq,
      Label.category_eq_declarationKeyword_iff]
    simp
  have hparent : ((submission.parent (tree.position address)).any fun parent =>
      NodeKind.headed.contains (submission.kind parent)) =
      (tree.above? address).any fun above => above.label.isRule
        ["lexical_declaration", "variable_declaration", "for_in_statement"] := by
    have hmap := congrArg (Option.any id) (h.map_parent
      (fun i => NodeKind.headed.contains (submission.kind i))
      (fun label => label.isRule
        ["lexical_declaration", "variable_declaration", "for_in_statement"])
      (fun address subtree hat => by
        rw [h.kind_at address subtree hat, Bool.eq_iff_iff, List.contains_iff_mem,
          Label.category_mem_headed_iff])
      address subtree hat)
    rw [Option.any_map, Option.any_map] at hmap
    exact hmap
  rw [hkind, hspan, hparent, Tree.keywordAt]

/-- The keywords that count are those that a visit of the parser's tree meets. -/
theorem map_span_headKeywords (source : String) (parse : Parse) (kind : DeclarationKind) :
    ((ofParse source parse).headKeywords kind).map (ofParse source parse).span =
      Tree.visitForest (Tree.keywordAt kind) none [parse.tree] := by
  rw [headKeywords, map_filter_eq_flatMap]
  cases hmissing : parse.tree.label.missing with
  | true =>
    have hnone := (Tree.prune_eq_none_iff parse.tree).mpr hmissing
    rw [indices, size_ofParse_of_prune_eq_none source parse hnone]
    simp [Tree.visitForest, hmissing]
  | false =>
    rw [flatMap_indices_ofParse source parse hmissing _ (Tree.keywordAt kind)
      (Tree.readsLabels_keywordAt kind)
      fun kept hshows address subtree hat => hshows.keyword_at kind address subtree hat]
    simp [Tree.visitForest, hmissing]

theorem nodup_children_ofParse (source : String) (parse : Parse) (i : Nat) :
    ((ofParse source parse).children i).Nodup := by
  cases hprune : parse.tree.prune with
  | none =>
    have hsize := size_ofParse_of_prune_eq_none source parse hprune
    rw [children_of_size_le _ i (by omega)]
    exact List.nodup_nil
  | some kept =>
    have hpairwise := (laysOut_ofParse source parse kept hprune).pairwise_children i
    exact hpairwise.of_cons.imp Nat.ne_of_lt

/-- A node counts as often as it has keywords if it can be headed by one, and else not at all. -/
theorem countP_headKeywords (source : String) (parse : Parse) (kind : DeclarationKind)
    (parent : Nat) :
    let submission := ofParse source parse
    ((submission.headKeywords kind).countP fun i => submission.parent i == some parent) =
      if submission.kind parent ∈ NodeKind.headed then
        (submission.children parent).countP fun i =>
          submission.kind i == .declarationKeyword kind
      else 0 := by
  intro submission
  have hlinked := linked_ofParse source parse
  split
  · next hheaded =>
    rw [List.countP_eq_length_filter, List.countP_eq_length_filter]
    apply List.Perm.length_eq
    refine (List.perm_ext_iff_of_nodup ((List.nodup_range.filter _).filter _)
      ((nodup_children_ofParse source parse parent).filter _)).mpr ?_
    intro i
    simp only [List.mem_filter, Bool.and_eq_true, beq_iff_eq]
    constructor
    · intro hi
      obtain ⟨⟨-, hkind, -⟩, hparent⟩ := hi
      exact ⟨(hlinked parent i).mp hparent, hkind⟩
    · intro hi
      obtain ⟨hchild, hkind⟩ := hi
      have hparent := (hlinked parent i).mpr hchild
      have hlt := submission.lt_size_of_parent parent i hparent
      refine ⟨⟨List.mem_range.mpr hlt, hkind, ?_⟩, hparent⟩
      rw [hparent, Option.any_some, List.contains_iff_mem]
      exact hheaded
  · next hheaded =>
    apply List.countP_eq_zero.mpr
    intro i hi hparent
    rw [beq_iff_eq] at hparent
    have hany := (Bool.and_eq_true_iff.mp (List.mem_filter.mp hi).2).2
    rw [hparent, Option.any_some, List.contains_iff_mem] at hany
    exact hheaded hany

end Submission

namespace Check

variable (submission : Submission)

/-! Findings and their keywords -/

theorem headsDeclaration_eq (i : Nat) :
    headsDeclaration submission i =
      (submission.parent i).any fun parent =>
        NodeKind.headed.contains (submission.kind parent) := by
  unfold headsDeclaration
  cases submission.parent i with
  | none => rfl
  | some parent =>
    cases hkind : submission.kind parent <;>
      simp [NodeKind.headed, hkind, NodeKind.isDeclaration]

/-- Grouping the keywords by kind is looking for the keywords of each kind. -/
theorem filter_declarationKeywords (kind : DeclarationKind) :
    ((declarationKeywords submission).filter fun keyword => keyword.1 == kind) =
      (submission.headKeywords kind).map fun i => (kind, i) := by
  rw [declarationKeywords, List.filter_filterMap, Submission.headKeywords,
    ← List.filterMap_eq_map, List.filterMap_filter]
  congr 1
  funext i
  rw [← headsDeclaration_eq]
  cases hkind : submission.kind i with
  | declarationKeyword found =>
    by_cases hheads : headsDeclaration submission i = true
    · by_cases hsame : found = kind <;> simp [hheads, hsame]
    · simp [hheads]
  | _ => simp

theorem declarationsOf_eq (kind : DeclarationKind) :
    declarationsOf submission (declarationKeywords submission) kind =
      (submission.headKeywords kind).map fun i => declarationFinding submission (kind, i) := by
  rw [declarationsOf, filter_declarationKeywords, List.map_map]
  rfl

theorem bindingsEnd_lastBinding? (parent : Nat) :
    submission.BindingsEnd parent (match lastBinding? submission parent with
      | some last => (submission.span last).stop
      | none => (submission.span parent).stop) := by
  by_cases hloop : submission.kind parent = .forInStatement
  · have hbinding (child : Nat) : submission.IsBinding parent child ↔
        (submission.field child == some "left") = true := by
      rw [Submission.IsBinding, if_pos hloop, beq_iff_eq]
    rw [lastBinding?, if_pos hloop]
    cases hfind : submission.childByField parent "left" with
    | some left =>
      apply Submission.BindingsEnd.loop left hloop
      have hfirst := (find?_eq_some_iff_firstWith _ _ _).mp hfind
      simpa only [FirstWith, hbinding] using hfirst
    | none =>
      apply Submission.BindingsEnd.whole
      intro child hchild
      rw [hbinding]
      exact List.find?_eq_none.mp hfind child hchild
  · have hbinding (child : Nat) : submission.IsBinding parent child ↔
        (submission.kind child == .variableDeclarator) = true := by
      rw [Submission.IsBinding, if_neg hloop, beq_iff_eq]
    rw [lastBinding?, if_neg hloop]
    cases hfind : (submission.children parent).reverse.find? fun child =>
        submission.kind child == .variableDeclarator with
    | some last =>
      apply Submission.BindingsEnd.declaration last hloop
      have hlast := (find?_reverse_eq_some_iff_lastWith _ _ _).mp hfind
      simpa only [LastWith, hbinding] using hlast
    | none =>
      apply Submission.BindingsEnd.whole
      intro child hchild
      rw [hbinding]
      exact List.find?_eq_none.mp hfind child (List.mem_reverse.mpr hchild)

theorem declaredBy_declarationFinding (kind : DeclarationKind) (keyword : Nat)
    (h : keyword ∈ submission.headKeywords kind) :
    submission.DeclaredBy kind keyword (declarationFinding submission (kind, keyword)) := by
  have hheads := (Bool.and_eq_true_iff.mp (List.mem_filter.mp h).2).2
  cases hparent : submission.parent keyword with
  | none => simp [hparent] at hheads
  | some parent =>
    have hend := bindingsEnd_lastBinding? submission parent
    refine ⟨parent, declarationSpan submission keyword, hparent, declarationSpan_start keyword,
      ?_, rfl⟩
    simp only [declarationSpan, hparent]
    exact hend

/-! The check -/

variable (rules : Rules)

/-- With no valid kind at all, the groups are those of all keywords. -/
theorem declared_validDeclarations_none (kind : DeclarationKind) :
    Finding.declared kind (validDeclarations submission
        { rules with validDeclarations := some [] }) =
      (submission.headKeywords kind).map fun i => declarationFinding submission (kind, i) := by
  rw [declared_validDeclarations, ← declarationsOf_eq]
  simp [Rules.allowsDeclaration]

/-- Allowing kinds takes their findings away. -/
theorem validDeclarations_eq_filter (other : Rules) (kinds : List DeclarationKind) :
    validDeclarations submission { rules with validDeclarations := some kinds } =
      (validDeclarations submission { other with validDeclarations := some [] }).filter
        fun finding => kinds.all fun kind => !finding.violation.declares kind := by
  rw [validDeclarations_eq_flatMap, validDeclarations_eq_flatMap, List.filter_flatMap]
  congr 1
  funext kind
  have hnone : ({ other with validDeclarations := some [] } : Rules).allowsDeclaration kind =
      false := rfl
  have hkinds : ({ rules with validDeclarations := some kinds } : Rules).allowsDeclaration kind =
      kinds.contains kind := rfl
  rw [hnone, hkinds, if_neg Bool.false_ne_true]
  -- The findings of a group are of one kind, so the filter keeps the group or drops it.
  have hgroup (finding : Finding) (hfinding : finding ∈
      declarationsOf submission (declarationKeywords submission) kind) :
      (kinds.all fun other => !finding.violation.declares other) = !kinds.contains kind := by
    simp only [declares_of_mem_declarationsOf _ _ kind finding hfinding]
    rw [Bool.eq_iff_iff, List.all_eq_true, Bool.not_eq_true', List.contains_eq_mem,
      decide_eq_false_iff_not]
    simp only [Bool.not_eq_true', beq_eq_false_iff_ne]
    exact ⟨fun h hmem => h kind hmem rfl, fun h other hother heq => h (heq ▸ hother)⟩
  by_cases hallowed : kinds.contains kind = true
  · rw [if_pos hallowed, eq_comm, List.filter_eq_nil_iff]
    intro finding hfinding
    rw [hgroup finding hfinding, hallowed]
    exact Bool.false_ne_true
  · rw [if_neg hallowed, eq_comm, List.filter_eq_self]
    intro finding hfinding
    rw [hgroup finding hfinding, Bool.eq_false_iff.mpr hallowed]
    rfl

theorem validDeclarations_eq_groups :
    validDeclarations submission { rules with validDeclarations := some [] } =
      DeclarationKind.all.flatMap fun kind => Finding.declared kind
        (validDeclarations submission { rules with validDeclarations := some [] }) := by
  simp only [declared_validDeclarations]
  exact validDeclarations_eq_flatMap submission _

end Check

/-- Findings on declarations that follow the keywords of a parser's tree: each keyword that counts
has one finding, in the group of its kind and in the order of the nodes. -/
structure Finding.FollowKeywords (submission : Submission) (tree : Tree)
    (findings : List Finding) : Prop where
  grouped : findings = DeclarationKind.all.flatMap fun kind => Finding.declared kind findings
  counted : ∀ kind, (Finding.declared kind findings).length =
    (Tree.visitForest (Tree.keywordAt kind) none [tree]).length
  byKeyword : ∀ kind, List.Forall₂ (submission.DeclaredBy kind) (submission.headKeywords kind)
    (Finding.declared kind findings)
  perNode : ∀ kind parent,
    ((submission.headKeywords kind).countP fun i => submission.parent i == some parent) =
      if submission.kind parent ∈ NodeKind.headed then
        (submission.children parent).countP fun i =>
          submission.kind i == .declarationKeyword kind
      else 0
  code : tree.Everywhere (Tree.WellPlaced submission.source) → ∀ finding ∈ findings,
    ∃ span code, finding.span = some span ∧ finding.violation.code? = some code ∧
      Text.slice? submission.source span.start span.stop = some code

namespace Check

theorem forall₂_declaredBy (submission : Submission) (rules : Rules) (kind : DeclarationKind) :
    List.Forall₂ (submission.DeclaredBy kind) (submission.headKeywords kind)
      (Finding.declared kind
        (validDeclarations submission { rules with validDeclarations := some [] })) := by
  rw [declared_validDeclarations_none, List.forall₂_map_right_iff, List.forall₂_same]
  exact declaredBy_declarationFinding submission kind

/-- Over a well placed tree the code of a finding is a range of the text. -/
theorem slice?_of_mem_validDeclarations {submission : Submission} (hplaced : submission.Placed)
    (rules : Rules) (finding : Finding) (h : finding ∈ validDeclarations submission rules) :
    ∃ span code, finding.span = some span ∧ finding.violation.code? = some code ∧
      Text.slice? submission.source span.start span.stop = some code := by
  have htag := tag_of_mem_validDeclarations submission rules finding h
  have hfaithful := Finding.faithful_of_reported hplaced finding
    (reported_of_mem_validDeclarations submission rules finding h)
  cases hspan : finding.span with
  | none =>
    have hwhole := hfaithful.wholeFile.mp hspan
    rw [htag] at hwhole
    simp at hwhole
  | some span =>
    obtain ⟨code, hcode, hslice⟩ := hfaithful.code span hspan (by rw [htag]; simp)
    exact ⟨span, code, rfl, hcode, hslice⟩

/-- Where no kind of declaration is valid, each keyword that heads a declaration or a loop over a
collection is reported. Making kinds valid takes their findings away and no other. -/
theorem declarations_reported_by_keyword (source : String) (parse : Parse) (rules other : Rules)
    (kinds : List DeclarationKind) :
    let submission := Submission.ofParse source parse
    let findings := Detector.validDeclarations.detect submission
      { other with validDeclarations := some [] }
    Detector.validDeclarations.detect submission
        { rules with validDeclarations := some kinds } =
      findings.filter (fun finding => kinds.all fun kind => !finding.violation.declares kind) ∧
    Finding.FollowKeywords submission parse.tree findings := by
  intro submission findings
  have hkeywords := forall₂_declaredBy submission other
  refine ⟨validDeclarations_eq_filter submission rules other kinds, ?_⟩
  exact
    { grouped := validDeclarations_eq_groups submission other
      counted := by
        intro kind
        rw [← Submission.map_span_headKeywords source parse kind, List.length_map]
        exact (hkeywords kind).length_eq.symm
      byKeyword := hkeywords
      perNode := Submission.countP_headKeywords source parse
      code := by
        intro hplaced
        exact slice?_of_mem_validDeclarations (Submission.placed_ofParse source parse hplaced) _ }

/-- Two variables after one keyword, a constant in the header of a loop, and a keyword that heads
nothing. -/
theorem declarations_reported_by_keyword_loop_header :
    let rule (kind : String) (field : Option String) (start stop : Nat) : List Tree → Tree :=
      .node ⟨kind, true, false, field, ⟨start, stop⟩⟩
    let token (kind : String) (start stop : Nat) : Tree :=
      .node ⟨kind, false, false, none, ⟨start, stop⟩⟩ []
    let pair := rule "lexical_declaration" none 0 9
      [token "let" 0 3, rule "variable_declarator" none 4 5 [], token "," 5 6,
        rule "variable_declarator" none 7 8 [], token ";" 8 9]
    let loop := rule "for_in_statement" none 10 31
      [token "for" 10 13, token "(" 14 15, token "const" 15 20,
        rule "identifier" (some "left") 21 22 [], token "of" 23 25,
        rule "identifier" (some "right") 26 27 [], token ")" 27 28,
        rule "statement_block" (some "body") 29 31 []]
    let cast := rule "as_expression" none 32 42
      [rule "identifier" none 32 33 [], token "as" 34 36, token "const" 37 42]
    let source := "let a, b; for (const x of y) \x7b\x7d z as const"
    let parse : Parse := ⟨rule "program" none 0 42
      [pair, loop, rule "expression_statement" none 32 42 [cast]], false⟩
    let submission := Submission.ofParse source parse
    let findings (kinds : List DeclarationKind) := Detector.validDeclarations.detect submission
      { validDeclarations := some kinds }
    parse.tree.Everywhere (Tree.WellPlaced source) ∧
      findings [] = [Finding.at (.declaration .constDecl "const x") ⟨15, 22⟩,
        Finding.at (.declaration .letDecl "let a, b") ⟨0, 8⟩] ∧
      findings [.constDecl] = [Finding.at (.declaration .letDecl "let a, b") ⟨0, 8⟩] ∧
      Finding.FollowKeywords submission parse.tree (findings []) := by
  intro rule token pair loop cast source parse submission findings
  obtain ⟨hfilter, hfollow⟩ :=
    declarations_reported_by_keyword source parse Rules.empty Rules.empty [.constDecl]
  have hall : findings [] = [Finding.at (.declaration .constDecl "const x") ⟨15, 22⟩,
      Finding.at (.declaration .letDecl "let a, b") ⟨0, 8⟩] := by decide +kernel
  refine ⟨by decide +kernel, hall, ?_, hfollow⟩
  calc findings [.constDecl] = (findings []).filter
        (fun finding => [DeclarationKind.constDecl].all fun kind =>
          !finding.violation.declares kind) := hfilter
    _ = [Finding.at (.declaration .letDecl "let a, b") ⟨0, 8⟩] := by
        rw [hall]
        rfl

end Check

end Rubric
