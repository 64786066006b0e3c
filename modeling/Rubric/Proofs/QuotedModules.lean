import Mathlib.Data.List.DropRight
import Rubric.Proofs.ImportVerdicts

/-!
The module between the quotes of an import. A literal loses every quote at its two ends, of either
kind, and not only the pair that delimits it. What is left is the text between the delimiters
without the runs of the other quote around it. So an import is judged by the module that is
written, as long as that neither begins nor ends with the other quote; if it does, the import is
judged by a shorter text.
-/
namespace Rubric.Check

open Grammar

def otherQuote (quote : Char) : Char := if quote = '"' then '\x27' else '"'

/-- A text without the runs of a character at its two ends. -/
structure Unwraps (c : Char) (text inner : String) : Prop where
  runs : ∃ before after : Nat, text.toList =
    List.replicate before c ++ inner.toList ++ List.replicate after c
  first : inner.toList.head? ≠ some c
  last : inner.toList.getLast? ≠ some c

/-- A run can be taken off only where the text begins or ends with the character. -/
theorem Unwraps.inner_eq_iff {c : Char} {text inner : String} (h : Unwraps c text inner) :
    inner = text ↔ text.toList.head? ≠ some c ∧ text.toList.getLast? ≠ some c := by
  constructor
  · rintro rfl
    exact ⟨h.first, h.last⟩
  · rintro ⟨hfirst, hlast⟩
    obtain ⟨before, after, htext⟩ := h.runs
    have hbefore : before = 0 := by
      cases before with
      | zero => rfl
      | succ n =>
        rw [htext, List.replicate_succ] at hfirst
        simp at hfirst
    have hafter : after = 0 := by
      cases after with
      | zero => rfl
      | succ n =>
        rw [htext, List.replicate_succ', ← List.append_assoc, List.getLast?_concat] at hlast
        exact absurd rfl hlast
    subst hbefore hafter
    rw [List.replicate_zero, List.nil_append, List.append_nil] at htext
    exact String.toList_inj.mp htext.symm

theorem toList_stripQuotes (literal : String) :
    (stripQuotes literal).toList = (literal.toList.dropWhile isQuote).rdropWhile isQuote := by
  rw [stripQuotes, String.toList_ofList, List.rdropWhile]

/-- The delimiters make no difference to what is stripped. -/
theorem stripQuotes_delimited (literal text : String) (quote : Char)
    (hquote : isQuote quote = true)
    (hliteral : literal.toList = quote :: text.toList ++ [quote]) :
    stripQuotes literal = stripQuotes text := by
  apply String.toList_inj.mp
  rw [toList_stripQuotes, toList_stripQuotes, hliteral, List.cons_append,
    List.dropWhile_cons_of_pos hquote, List.dropWhile_append]
  split
  · next hnil =>
    rw [List.isEmpty_iff] at hnil
    rw [hnil, List.dropWhile_cons_of_pos hquote, List.dropWhile_nil]
  · rw [List.rdropWhile_concat_pos isQuote _ quote hquote]

/-- In a text without one of the quotes, every quote is the other one. -/
theorem eq_otherQuote (quote c : Char) (hquote : isQuote quote = true) (hc : isQuote c = true)
    (hne : c ≠ quote) : c = otherQuote quote := by
  unfold isQuote at hquote hc
  unfold otherQuote
  simp only [Bool.or_eq_true, decide_eq_true_eq] at hquote hc
  split
  · next hdouble => exact hc.resolve_left fun heq => hne (heq.trans hdouble.symm)
  · next hsingle =>
    refine hc.resolve_right fun heq => ?_
    exact hne (heq.trans (hquote.resolve_left hsingle).symm)

theorem isQuote_otherQuote (quote : Char) : isQuote (otherQuote quote) = true := by
  unfold otherQuote
  split <;> rfl

/-- Quotes from a text without one of the two are a run of the other. -/
theorem exists_run (text run : List Char) (quote : Char) (hquote : isQuote quote = true)
    (hfree : quote ∉ text) (hsub : run ⊆ text) (hall : ∀ c ∈ run, isQuote c = true) :
    ∃ n, run = List.replicate n (otherQuote quote) := by
  refine ⟨run.length, List.eq_replicate_of_mem ?_⟩
  intro c hc
  exact eq_otherQuote quote c hquote (hall c hc) fun heq => hfree (heq ▸ hsub hc)

/-- What is left of a text without one of the quotes is the text less the runs of the other. -/
theorem unwraps_stripQuotes (text : String) (quote : Char) (hquote : isQuote quote = true)
    (hfree : quote ∉ text.toList) :
    Unwraps (otherQuote quote) text (stripQuotes text) := by
  have hinner : (stripQuotes text).toList ++ (text.toList.dropWhile isQuote).rtakeWhile isQuote =
      text.toList.dropWhile isQuote := by
    rw [toList_stripQuotes, List.rdropWhile_append_rtakeWhile]
  obtain ⟨before, hbefore⟩ := exists_run text.toList (text.toList.takeWhile isQuote) quote hquote
    hfree (List.takeWhile_prefix isQuote).subset fun c hc => List.mem_takeWhile_imp hc
  obtain ⟨after, hafter⟩ := exists_run text.toList
    ((text.toList.dropWhile isQuote).rtakeWhile isQuote) quote hquote hfree
    (List.Subset.trans (List.rtakeWhile_suffix isQuote _).subset
      (List.dropWhile_suffix isQuote).subset)
    fun c hc => List.mem_rtakeWhile_imp hc
  refine ⟨⟨before, after, ?_⟩, ?_, ?_⟩
  · rw [← hbefore, ← hafter, List.append_assoc, hinner, List.takeWhile_append_dropWhile]
  · intro hfirst
    -- What is left begins the text after the first run, which begins with no quote.
    have hhead := List.head?_dropWhile_not isQuote text.toList
    rw [← hinner, List.head?_append, hfirst] at hhead
    simp [isQuote_otherQuote] at hhead
  · intro hlast
    have hhead := List.head?_dropWhile_not isQuote (text.toList.dropWhile isQuote).reverse
    rw [toList_stripQuotes, List.rdropWhile, List.getLast?_reverse] at hlast
    rw [hlast] at hhead
    simp [isQuote_otherQuote] at hhead

/-- An import whose source is written between two quotes, with none of their kind between them, is
judged by what is written there less the runs of the other quote around it, and a report names
that. This is the module as it is written exactly when it neither begins nor ends with the other
quote. -/
theorem import_judged_between_quotes (submission : Submission) (rules : Rules)
    (patterns : List String) (statement source : Nat) (quote : Char) (written : String)
    (hrules : rules.allowedImports = some patterns)
    (hkind : submission.kind statement = .importStatement)
    (hsource : submission.childByField statement "source" = some source)
    (hquote : quote = '"' ∨ quote = '\x27')
    (htext : (submission.text source).toList = quote :: written.toList ++ [quote])
    (hfree : quote ∉ written.toList) :
    let verdict := verdictOn submission (.ofPatterns patterns) statement
    let reports := (importReports submission rules).filter fun entry => entry.1 = statement
    let clean := written.toList.head? ≠ some (otherQuote quote) ∧
      written.toList.getLast? ≠ some (otherQuote quote)
    Detector.allowedImports.detect submission rules =
        (importReports submission rules).map Prod.snd ∧
      (∃ module, Unwraps (otherQuote quote) written module ∧ reports = verdict module ∧
        (module = written ↔ clean)) ∧
      (clean → reports = verdict written) := by
  intro verdict reports clean
  have hisQuote : isQuote quote = true := by simpa [isQuote] using hquote
  have hunwraps := unwraps_stripQuotes written quote hisQuote hfree
  have hreports : reports = verdict (stripQuotes written) := by
    rw [← stripQuotes_delimited _ written quote hisQuote htext]
    apply filter_importReports_of_module submission rules patterns statement _ hrules hkind
    rw [module?, hsource, Option.map_some]
  refine ⟨(map_snd_importReports submission rules).symm,
    ⟨_, hunwraps, hreports, hunwraps.inner_eq_iff⟩, ?_⟩
  intro hclean
  rw [hreports, hunwraps.inner_eq_iff.mpr hclean]

/-- A module with the other quote inside its name, which patterns do not list. -/
theorem import_judged_between_quotes_inner_quote :
    let rule (kind : String) (field : Option String) (start stop : Nat) : List Tree → Tree :=
      .node ⟨kind, true, false, field, ⟨start, stop⟩⟩
    let token (kind : String) (start stop : Nat) : Tree :=
      .node ⟨kind, false, false, none, ⟨start, stop⟩⟩ []
    let clause := rule "import_clause" none 7 8 [rule "identifier" none 7 8 []]
    let parse : Parse := ⟨rule "program" none 0 19 [rule "import_statement" none 0 19
      [token "import" 0 6, clause, token "from" 9 13, rule "string" (some "source") 14 19 []]],
      false⟩
    let submission := Submission.ofParse "import a from \"m'n\"" parse
    let rules : Rules := { allowedImports := some ["m", "mn"] }
    (submission.text 6).toList = '"' :: "m'n".toList ++ ['"'] ∧ '"' ∉ "m'n".toList ∧
      (importReports submission rules).filter (fun entry => entry.1 = 1) =
        [(1, Finding.at (.importRefused "m'n" (submission.text 1)) (submission.span 1))] := by
  intro rule token clause parse submission rules
  have hkind : submission.kind 1 = .importStatement := by decide +kernel
  have hsource : submission.childByField 1 "source" = some 6 := by decide +kernel
  have htext : (submission.text 6).toList = '"' :: "m'n".toList ++ ['"'] := by decide +kernel
  have hfree : '"' ∉ "m'n".toList := by decide +kernel
  have hrefused : (Imports.AllowList.ofPatterns ["m", "mn"]).allows "m'n"
      (boundNames submission 1) = false := by decide +kernel
  obtain ⟨-, -, hclean⟩ := import_judged_between_quotes submission rules ["m", "mn"] 1 6 '"' "m'n"
    rfl hkind hsource (Or.inl rfl) htext hfree
  refine ⟨htext, hfree, (hclean (by decide +kernel)).trans ?_⟩
  rw [verdictOn, hrefused, if_neg Bool.false_ne_true]

/-- A module whose name stands in the other quotes is taken for the one without them. It is not
listed, and yet it is not reported. -/
theorem quoted_name_passes_as_module :
    let rule (kind : String) (field : Option String) (start stop : Nat) : List Tree → Tree :=
      .node ⟨kind, true, false, field, ⟨start, stop⟩⟩
    let token (kind : String) (start stop : Nat) : Tree :=
      .node ⟨kind, false, false, none, ⟨start, stop⟩⟩ []
    let clause := rule "import_clause" none 7 8 [rule "identifier" none 7 8 []]
    let string := rule "string" (some "source") 14 19
      [token "\"" 14 15, rule "string_fragment" none 15 18 [], token "\"" 18 19]
    let parse : Parse := ⟨rule "program" none 0 19 [rule "import_statement" none 0 19
      [token "import" 0 6, clause, token "from" 9 13, string]], false⟩
    let submission := Submission.ofParse "import a from \"'m'\"" parse
    let rules : Rules := { allowedImports := some ["m"] }
    submission.kind 1 = .importStatement ∧
      submission.childByField 1 "source" = some 6 ∧
      (submission.text 6).toList = '"' :: "'m'".toList ++ ['"'] ∧ '"' ∉ "'m'".toList ∧
      (Imports.AllowList.ofPatterns ["m"]).allows "'m'" (boundNames submission 1) = false ∧
      Detector.allowedImports.detect submission rules = [] := by
  intro rule token clause string parse submission rules
  exact ⟨by decide +kernel, by decide +kernel, by decide +kernel, by decide +kernel,
    by decide +kernel, by decide +kernel⟩

end Rubric.Check
