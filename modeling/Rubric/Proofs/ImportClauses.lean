import Mathlib.Data.List.Forall2
import Rubric.Proofs.Descendants
import Rubric.Proofs.ImportReports
import Rubric.Proofs.PlacedNodes

/-!
Names that an import statement binds. A clause has a form: a default name, then either one name
for the whole module or a list of specifiers, each with the name that is imported and perhaps a
local one. Other tokens may stand anywhere between. The names of a clause are read off that form,
and they are what is collected from the nodes below it; a local name never counts. So the verdict
on a statement depends on the module and these names alone.
-/
namespace Rubric

open Grammar

namespace Grammar.Tree

/-! The form of a clause -/

/-- There is no identifier in the tree, as in a bracket, a keyword or a comment. -/
def Silent (tree : Tree) : Prop := tree.Everywhere fun subtree => subtree.category ≠ .identifier

instance (tree : Tree) : Decidable tree.Silent :=
  inferInstanceAs (Decidable (tree.Everywhere fun subtree => subtree.category ≠ .identifier))

/-- Items in their order among trees, with nothing but silent trees around them. -/
inductive Amid : List Tree → List Tree → Prop where
  | nil : Amid [] []
  | silent {tree : Tree} {trees items : List Tree} (h : tree.Silent) (rest : Amid trees items) :
      Amid (tree :: trees) items
  | item {tree : Tree} {trees items : List Tree} (rest : Amid trees items) :
      Amid (tree :: trees) (tree :: items)

/-- An identifier with no other inside it. -/
structure IsIdentifier (tree : Tree) : Prop where
  category : tree.category = .identifier
  children : ∀ child ∈ tree.children, child.Silent

/-- A specifier of an import, the name it imports and perhaps a local name. -/
structure Specifies (specifier name : Tree) : Prop where
  category : specifier.category = .importSpecifier
  identifier : name.IsIdentifier
  field : name.label.field = some "name"
  children : ∃ (localName : Option Tree) (items : List Tree), Amid specifier.children items ∧
    items.Perm (name :: localName.toList) ∧
    ∀ other ∈ localName, other.IsIdentifier ∧ other.label.field = some "alias"

/-- What follows the default name of a clause: the whole module under one name, or specifiers. -/
inductive BindsAfterDefault (tail : Tree) : List Tree → Prop where
  | whole (name : Tree) (h : tail.category = .namespaceImport) (identifier : name.IsIdentifier)
      (children : Amid tail.children [name]) : BindsAfterDefault tail [name]
  | listed (specifiers names : List Tree) (h : tail.category = .namedImports)
      (children : Amid tail.children specifiers)
      (specified : List.Forall₂ Specifies specifiers names) : BindsAfterDefault tail names

/-- The names of an import clause, under which its module exports them except for the default
name and the name of the whole module. -/
inductive Binds (clause : Tree) : List Tree → Prop where
  | only (first : Option Tree) (children : Amid clause.children first.toList)
      (identifier : ∀ name ∈ first, name.IsIdentifier) : Binds clause first.toList
  | followed (first : Option Tree) (tail : Tree) (names : List Tree)
      (children : Amid clause.children (first.toList ++ [tail]))
      (identifier : ∀ name ∈ first, name.IsIdentifier)
      (others : BindsAfterDefault tail names) : Binds clause (first.toList ++ names)

def importClause? (statement : Tree) : Option Tree :=
  statement.children.find? fun child => child.category == .importClause

/-! What the nodes of a clause contribute -/

/-- The text of an identifier. Inside a specifier it counts only in the field for the name. -/
def importedName (text : Tree → String) (above : Option Tree) (tree : Tree) : List String :=
  if tree.category = .identifier ∧
      (above.map category = some .importSpecifier → tree.label.field = some "name") then
    [text tree]
  else []

section

variable (text : Tree → String)

theorem importedName_of_ne (above : Option Tree) (tree : Tree)
    (h : tree.category ≠ .identifier) : importedName text above tree = [] := by
  rw [importedName, if_neg fun hboth => h hboth.1]

theorem gather_of_silent (above : Option Tree) (tree : Tree) (h : tree.Silent) :
    gather (importedName text) above tree = [] :=
  gather_eq_nil _ _ (importedName_of_ne text) above tree h

theorem gatherForest_of_amid (above : Option Tree) (trees items : List Tree)
    (h : Amid trees items) :
    gatherForest (importedName text) above trees =
      items.flatMap (gather (importedName text) above) := by
  induction h with
  | nil => rfl
  | silent hsilent _ ih =>
    rw [gatherForest, gather_of_silent text above _ hsilent, List.nil_append, ih]
  | item _ ih => rw [gatherForest, List.flatMap_cons, ih]

/-- A node that is no identifier contributes what the items among its children do. -/
theorem gather_of_amid (above : Option Tree) (tree : Tree) (items : List Tree)
    (hne : tree.category ≠ .identifier) (h : Amid tree.children items) :
    gather (importedName text) above tree =
      items.flatMap (gather (importedName text) (some tree)) := by
  rw [gather_eq, importedName_of_ne text above tree hne, List.nil_append,
    gatherForest_of_amid text (some tree) tree.children items h]

theorem gather_of_isIdentifier (above : Option Tree) (tree : Tree) (h : tree.IsIdentifier) :
    gather (importedName text) above tree = importedName text above tree := by
  rw [gather_eq, gatherForest_eq_nil _ _ (importedName_of_ne text) (some tree) tree.children
    h.children, List.append_nil]

theorem gather_of_outside (above tree : Tree) (h : tree.IsIdentifier)
    (habove : above.category ≠ .importSpecifier) :
    gather (importedName text) (some above) tree = [text tree] := by
  rw [gather_of_isIdentifier text _ tree h, importedName, if_pos]
  refine ⟨h.category, ?_⟩
  intro hspecifier
  exact absurd (Option.some.inj hspecifier) habove

/-- A specifier contributes the name that it imports and nothing else. -/
theorem gather_of_specifies (above : Option Tree) (specifier name : Tree)
    (h : Specifies specifier name) :
    gather (importedName text) above specifier = [text name] := by
  obtain ⟨localName, items, hchildren, hperm, hlocal⟩ := h.children
  have hne : specifier.category ≠ .identifier := by simp [h.category]
  have hname : gather (importedName text) (some specifier) name = [text name] := by
    rw [gather_of_isIdentifier text _ name h.identifier, importedName,
      if_pos ⟨h.identifier.category, fun _ => h.field⟩]
  have hother : ∀ other ∈ localName.toList,
      gather (importedName text) (some specifier) other = [] := by
    intro other hmem
    obtain ⟨hidentifier, hfield⟩ := hlocal other (Option.mem_toList.mp hmem)
    rw [gather_of_isIdentifier text _ other hidentifier, importedName, if_neg]
    rintro ⟨-, hrequired⟩
    have hwrong := hrequired (congrArg some h.category)
    rw [hfield] at hwrong
    simp at hwrong
  have hitems : (name :: localName.toList).flatMap (gather (importedName text) (some specifier)) =
      [text name] := by
    rw [List.flatMap_cons, hname, List.flatMap_eq_nil_iff.mpr hother]
    rfl
  -- The local name contributes nothing, so it may stand on either side.
  have hsame := hperm.flatMap_right (gather (importedName text) (some specifier))
  rw [hitems] at hsame
  rw [gather_of_amid text above specifier items hne hchildren, List.perm_singleton.mp hsame]

theorem gather_of_bindsAfterDefault (above : Option Tree) (tail : Tree) (names : List Tree)
    (h : BindsAfterDefault tail names) :
    gather (importedName text) above tail = names.map text := by
  cases h with
  | whole name htail hname hchildren =>
    rw [gather_of_amid text above tail [name] (by simp [htail]) hchildren, List.flatMap_singleton,
      gather_of_outside text tail name hname (by simp [htail])]
    rfl
  | listed specifiers _ htail hchildren hspecified =>
    rw [gather_of_amid text above tail specifiers (by simp [htail]) hchildren]
    clear hchildren
    induction hspecified with
    | nil => rfl
    | cons hfirst _ ih =>
      rw [List.flatMap_cons, gather_of_specifies text (some tail) _ _ hfirst, ih]
      rfl

/-- A clause contributes its names, in their order. -/
theorem gather_of_binds (above : Option Tree) (clause : Tree) (names : List Tree)
    (hclause : clause.category = .importClause) (h : Binds clause names) :
    gather (importedName text) above clause = names.map text := by
  have hne : clause.category ≠ .identifier := by simp [hclause]
  have hfirst : ∀ first : Option Tree, (∀ name ∈ first, name.IsIdentifier) →
      first.toList.flatMap (gather (importedName text) (some clause)) =
        first.toList.map text := by
    intro first hidentifier
    cases first with
    | none => rfl
    | some name =>
      rw [Option.toList_some, List.flatMap_singleton,
        gather_of_outside text clause name (hidentifier name rfl) (by simp [hclause])]
      rfl
  cases h with
  | only first hchildren hidentifier =>
    rw [gather_of_amid text above clause _ hne hchildren, hfirst first hidentifier]
  | followed first tail names hchildren hidentifier hothers =>
    rw [gather_of_amid text above clause _ hne hchildren, List.flatMap_append,
      hfirst first hidentifier, List.flatMap_singleton,
      gather_of_bindsAfterDefault text (some clause) tail names hothers, List.map_append]

end

end Grammar.Tree

/-! Names of statements of a submission -/

namespace Submission

def textOf (submission : Submission) (tree : Tree) : String := submission.slice tree.label.span

/-- A statement whose first import clause has the usual form and binds names with these texts. -/
def ImportsAs (submission : Submission) (statement : Nat) (names : List String) : Prop :=
  ∃ tree address node clause bound, submission.LaysOut tree ∧
    tree.at? address = some node ∧ tree.position address = statement ∧
    node.importClause? = some clause ∧ clause.Binds bound ∧
    names = bound.map submission.textOf

theorem LaysOut.kind_at {submission : Submission} {tree : Tree} (h : submission.LaysOut tree)
    (address : List Nat) (subtree : Tree) (hat : tree.at? address = some subtree) :
    submission.kind (tree.position address) = subtree.category :=
  (h.node_at address subtree hat).1

/-- A node names something imported exactly when its tree contributes a name. -/
theorem LaysOut.importedName_at {submission : Submission} {tree : Tree}
    (h : submission.LaysOut tree) (address : List Nat) (subtree : Tree)
    (hat : tree.at? address = some subtree) :
    (if Check.isImportedName submission (tree.position address) then
      [submission.text (tree.position address)] else []) =
      Tree.importedName submission.textOf (tree.above? address) subtree := by
  obtain ⟨hkind, hfield, hspan, -⟩ := h.node_at address subtree hat
  have htext : submission.text (tree.position address) = submission.textOf subtree := by
    rw [text, hspan, textOf]
  rw [htext, Tree.importedName]
  congr 1
  rcases List.eq_nil_or_concat address with rfl | ⟨init, k, rfl⟩
  · have hroot : submission.parent (tree.position []) = none := h.parent_root
    simp [Check.isImportedName, hkind, hroot, Tree.above?, Tree.category]
  · rw [List.concat_eq_append] at hat hkind hfield ⊢
    obtain ⟨above, habove, -⟩ := Tree.at?_concat tree subtree init k hat
    have hparent := h.parent_concat init k subtree hat
    have hkindAbove := h.kind_at init above habove
    simp [Check.isImportedName, hkind, hfield, hparent, hkindAbove, Tree.above?_concat, habove,
      Tree.category, imp_iff_not_or]

end Submission

namespace Check

theorem boundNames_of_none (submission : Submission) (statement : Nat)
    (h : (submission.children statement).find?
      (fun child => submission.kind child == .importClause) = none) :
    boundNames submission statement = [] := by
  rw [boundNames, h]

/-- The names below a clause, collected by recursion on it. -/
theorem boundNames_eq_gather (submission : Submission) (tree : Tree)
    (h : submission.LaysOut tree) (address : List Nat) (node clause : Tree)
    (hat : tree.at? address = some node) (hclause : node.importClause? = some clause) :
    boundNames submission (tree.position address) =
      Tree.gather (Tree.importedName submission.textOf) (some node) clause := by
  rcases h.find?_children (fun child => submission.kind child == .importClause)
      (fun child => child.category == .importClause)
      (fun address subtree hat => by rw [h.kind_at address subtree hat]) address node hat with
    ⟨hnone, -⟩ | ⟨k, child, hchild, hbelow, hfind⟩
  · rw [Tree.importClause?, hnone] at hclause
    simp at hclause
  · obtain rfl : child = clause := Option.some.inj (hchild.symm.trans hclause)
    have hgather := h.flatMap_descendants
      (fun i => if isImportedName submission i then [submission.text i] else [])
      (Tree.importedName submission.textOf) h.importedName_at (address ++ [k]) child hbelow
    rw [Tree.above?_concat, hat] at hgather
    rw [boundNames, hfind, ← hgather]
    exact map_filter_eq_flatMap _ _ _

theorem boundNames_of_importsAs (submission : Submission) (statement : Nat)
    (names : List String) (h : submission.ImportsAs statement names) :
    boundNames submission statement = names := by
  obtain ⟨tree, address, node, clause, bound, hlays, hat, rfl, hclause, hbinds, rfl⟩ := h
  have hcategory : clause.category = .importClause := by
    simpa using List.find?_some hclause
  rw [boundNames_eq_gather submission tree hlays address node clause hat hclause,
    Tree.gather_of_binds submission.textOf (some node) clause bound hcategory hbinds]

/-- Without names, a statement is judged by whether its module is listed. -/
theorem verdictOn_of_boundNames_eq_nil (submission : Submission) (allowed : Imports.AllowList)
    (statement : Nat) (module : String) (h : boundNames submission statement = []) :
    verdictOn submission allowed statement module =
      if allowed.parts? module = none then
        [(statement, Finding.at (.importRefused module (submission.text statement))
          (submission.span statement))]
      else [] := by
  rw [verdictOn, h, Imports.AllowList.allows]
  cases allowed.parts? module <;> simp

/-- The names of a statement whose import clause has the usual form are those of the form, without
local names. So the check reports on it what it reports on any statement with the same names and
module, whatever the local names. A statement without a clause binds no names, and it is reported,
once and with its whole text, exactly when its module is not listed. -/
theorem boundNames_are_original_names (submission : Submission) (rules : Rules)
    (statement : Nat) :
    Detector.allowedImports.detect submission rules =
      (importReports submission rules).map Prod.snd ∧
    (∀ names, submission.ImportsAs statement names →
      boundNames submission statement = names ∧
      (submission.kind statement = .importStatement →
        ∀ (other : Submission) (twin : Nat), other.kind twin = .importStatement →
          other.ImportsAs twin names → module? other twin = module? submission statement →
          refusalsOn other rules twin = refusalsOn submission rules statement)) ∧
    ((∀ child ∈ submission.children statement, submission.kind child ≠ .importClause) →
      boundNames submission statement = [] ∧
      (submission.kind statement = .importStatement →
        ∀ patterns module, rules.allowedImports = some patterns →
          module? submission statement = some module →
          let reports := (importReports submission rules).filter fun entry => entry.1 = statement
          let listed := (Imports.AllowList.ofPatterns patterns).parts? module
          (reports = [(statement, Finding.at (.importRefused module (submission.text statement))
            (submission.span statement))] ↔ listed = none) ∧
          (reports = [] ↔ listed ≠ none))) := by
  refine ⟨(map_snd_importReports submission rules).symm, ?_, ?_⟩
  · intro names hnames
    have hbound := boundNames_of_importsAs submission statement names hnames
    refine ⟨hbound, ?_⟩
    intro hkind other twin htwinKind htwin hmodule
    rw [refusalsOn_eq other rules twin htwinKind, refusalsOn_eq submission rules statement hkind,
      hmodule, hbound, boundNames_of_importsAs other twin names htwin]
  · intro hnone
    have hfind : (submission.children statement).find?
        (fun child => submission.kind child == .importClause) = none := by
      rw [List.find?_eq_none]
      intro child hchild
      simpa using hnone child hchild
    have hbound := boundNames_of_none submission statement hfind
    refine ⟨hbound, ?_⟩
    intro hkind patterns module hrules hmodule reports listed
    have hreports : reports = _ :=
      (filter_importReports_of_module submission rules patterns statement module hrules hkind
        hmodule).trans (verdictOn_of_boundNames_eq_nil submission _ statement module hbound)
    by_cases hlisted : listed = none
    · rw [if_pos hlisted] at hreports
      simp [hreports, hlisted]
    · rw [if_neg hlisted] at hreports
      simp [hreports, hlisted]

/-- A default name and two specifiers, with a local name for one of them and without, and a bare
import. -/
theorem boundNames_are_original_names_local_name :
    let rule (kind : String) (field : Option String) (start stop : Nat) : List Tree → Tree :=
      .node ⟨kind, true, false, field, ⟨start, stop⟩⟩
    let token (kind : String) (start stop : Nat) : Tree :=
      .node ⟨kind, false, false, none, ⟨start, stop⟩⟩ []
    let renamed := rule "import_specifier" none 12 18 [rule "identifier" (some "name") 12 13 [],
      token "as" 14 16, rule "identifier" (some "alias") 17 18 []]
    let direct := rule "import_specifier" none 12 13 [rule "identifier" (some "name") 12 13 []]
    let clause (specifier : Tree) : Tree := rule "import_clause" none 7 23
      [rule "identifier" none 7 8 [], token "," 8 9, rule "named_imports" none 10 23
        [token "\x7b" 10 11, specifier, token "," 18 19,
          rule "import_specifier" none 20 21 [rule "identifier" (some "name") 20 21 []],
          token "\x7d" 22 23]]
    let parse (children : List Tree) : Parse :=
      ⟨rule "program" none 0 32 [rule "import_statement" none 0 32
        (token "import" 0 6 :: children ++ [rule "string" (some "source") 29 32 []])], false⟩
    let named := Submission.ofParse "import d, \x7b a as b, c \x7d from 'm'"
      (parse [clause renamed, token "from" 24 28])
    let plain := Submission.ofParse "import d, \x7b a     , c \x7d from \"m\""
      (parse [clause direct, token "from" 24 28])
    let bare := Submission.ofParse "import                       'm'" (parse [])
    let rules (patterns : List String) : Rules := { allowedImports := some patterns }
    let refused (submission : Submission) : List Finding :=
      [Finding.at (.importRefused "m" submission.source) ⟨0, 32⟩]
    named.ImportsAs 1 ["d", "a", "c"] ∧ plain.ImportsAs 1 ["d", "a", "c"] ∧
      boundNames named 1 = ["d", "a", "c"] ∧
      (∀ patterns, refusalsOn plain (rules patterns) 1 = refusalsOn named (rules patterns) 1) ∧
      Detector.allowedImports.detect named (rules ["m.d", "m.a"]) = refused named ∧
      Detector.allowedImports.detect plain (rules ["m.d", "m.a"]) = refused plain ∧
      Detector.allowedImports.detect named (rules ["m.d", "m.a", "m.c"]) = [] ∧
      Detector.allowedImports.detect plain (rules ["m.d", "m.a", "m.c"]) = [] ∧
      boundNames bare 1 = [] ∧
      (∀ patterns, (importReports bare (rules patterns)).filter (fun entry => entry.1 = 1) = [] ↔
        (Imports.AllowList.ofPatterns patterns).parts? "m" ≠ none) ∧
      Detector.allowedImports.detect bare (rules ["n"]) = refused bare ∧
      Detector.allowedImports.detect bare (rules ["m.d"]) = [] := by
  intro rule token renamed direct clause parse named plain bare rules refused
  have hidentifier : NodeKind.ofGrammar "identifier" true = .identifier := by decide +kernel
  have hnamedImports : NodeKind.ofGrammar "named_imports" true = .namedImports := by
    decide +kernel
  have hspecifier : NodeKind.ofGrammar "import_specifier" true = .importSpecifier := by
    decide +kernel
  have hname : ∀ field start stop, (rule "identifier" field start stop []).IsIdentifier :=
    fun _ _ _ => ⟨hidentifier, nofun⟩
  have hunrenamed : ∀ start stop, Tree.Specifies
      (rule "import_specifier" none start stop [rule "identifier" (some "name") start stop []])
      (rule "identifier" (some "name") start stop []) :=
    fun _ _ => ⟨hspecifier, hname _ _ _, rfl, none, _, .item .nil, List.Perm.refl _, nofun⟩
  have hbinds : ∀ item, Tree.Specifies item (rule "identifier" (some "name") 12 13 []) →
      (clause item).Binds [rule "identifier" none 7 8 [], rule "identifier" (some "name") 12 13 [],
        rule "identifier" (some "name") 20 21 []] := by
    intro item hitem
    refine .followed (some (rule "identifier" none 7 8 [])) _
      [rule "identifier" (some "name") 12 13 [], rule "identifier" (some "name") 20 21 []]
      (.item (.silent (by decide +kernel) (.item .nil))) ?_ ?_
    · rintro name ⟨⟩
      exact hname _ _ _
    · exact .listed [item, _] _ hnamedImports
        (.silent (by decide +kernel) (.item (.silent (by decide +kernel)
          (.item (.silent (by decide +kernel) .nil)))))
        (.cons hitem (.cons (hunrenamed 20 21) .nil))
  have hrenamed : renamed.Specifies (rule "identifier" (some "name") 12 13 []) := by
    refine ⟨hspecifier, hname _ _ _, rfl, some _, _,
      .item (.silent (by decide +kernel) (.item .nil)), List.Perm.refl _, ?_⟩
    rintro other ⟨⟩
    exact ⟨hname _ _ _, rfl⟩
  have hnamed : named.ImportsAs 1 ["d", "a", "c"] :=
    ⟨_, [0], _, _, _, Submission.laysOut_ofParse _ _ _ rfl, rfl, rfl, rfl,
      hbinds renamed hrenamed, by decide +kernel⟩
  have hplain : plain.ImportsAs 1 ["d", "a", "c"] :=
    ⟨_, [0], _, _, _, Submission.laysOut_ofParse _ _ _ rfl, rfl, rfl, rfl,
      hbinds direct (hunrenamed 12 13), by decide +kernel⟩
  have hmodule : module? plain 1 = module? named 1 := by decide +kernel
  have hnamedKind : named.kind 1 = .importStatement := by decide +kernel
  have hplainKind : plain.kind 1 = .importStatement := by decide +kernel
  have hbareKind : bare.kind 1 = .importStatement := by decide +kernel
  have hsame (patterns : List String) :
      refusalsOn plain (rules patterns) 1 = refusalsOn named (rules patterns) 1 :=
    ((boundNames_are_original_names named (rules patterns) 1).2.1 _ hnamed).2 hnamedKind plain 1
      hplainKind hplain hmodule
  have hbare (patterns : List String) :=
    (boundNames_are_original_names bare (rules patterns) 1).2.2 (by decide +kernel)
  have hunlisted (patterns : List String) :=
    ((hbare patterns).2 hbareKind patterns "m" rfl (by decide +kernel)).2
  exact ⟨hnamed, hplain, ((boundNames_are_original_names named (rules []) 1).2.1 _ hnamed).1, hsame,
    by decide +kernel, by decide +kernel, by decide +kernel, by decide +kernel, (hbare []).1,
    hunlisted, by decide +kernel, by decide +kernel⟩

end Check

end Rubric
