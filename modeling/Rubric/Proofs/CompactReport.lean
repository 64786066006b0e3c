import Mathlib.Algebra.GroupWithZero.Nat
import Rubric.Command.Report
import Rubric.Proofs.FunctionNames
import Rubric.Proofs.ImportClauses
import Rubric.Proofs.TextLines

/-!
Compact reports. A line names the submission, a position and a message. Positions of different
places are different, and they are told apart where they are printed. A message takes over names
of functions and of modules as they are, so a finding has one line exactly when none of these has
a newline of its own; each newline makes one line more.
-/
namespace Rubric

namespace Violation

/-- Texts that a message takes over as they are. -/
def quoted : Violation → List String
  | missingFunctions missing => missing
  | importRefused module _ => [module]
  | _ => []

def newlines (violation : Violation) : Nat :=
  (violation.quoted.map fun text => text.toList.count '\n').sum

theorem newlines_eq_zero_iff (violation : Violation) :
    violation.newlines = 0 ↔ ∀ text ∈ violation.quoted, '\n' ∉ text.toList := by
  simp only [newlines, List.sum_eq_zero_iff_forall_eq_nat, List.forall_mem_map, List.count_eq_zero]

theorem count_newline_intercalate (texts : List String) :
    (", ".intercalate texts).toList.count '\n' =
      (texts.map fun text => text.toList.count '\n').sum := by
  rw [String.toList_intercalate]
  induction texts with
  | nil => rfl
  | cons text texts ih =>
    cases texts with
    | nil => simp
    | cons next texts =>
      rw [List.map_cons, List.map_cons, List.intercalate_cons_cons, List.count_append,
        List.count_append, ← List.map_cons, ih]
      simp

theorem count_newline_append (left right : String) :
    (left ++ right).toList.count '\n' = left.toList.count '\n' + right.toList.count '\n' := by
  rw [String.toList_append, List.count_append]

theorem count_newline_of_not_mem (text : String) (h : '\n' ∉ text.toList) :
    text.toList.count '\n' = 0 :=
  List.count_eq_zero.mpr h

/-- All else in a message is on one line. -/
theorem count_newline_message (violation : Violation) :
    violation.message.toList.count '\n' = violation.newlines := by
  cases violation with
  | missingFunctions missing =>
    have hlead : "missing expected function(s): ".toList.count '\n' = 0 := by decide
    calc _ = _ := count_newline_append "missing expected function(s): " (", ".intercalate missing)
      _ = 0 + _ := congrArg₂ (· + ·) hlead (count_newline_intercalate missing)
      _ = _ := Nat.zero_add _
  | importRefused module code =>
    have hlead : "import from `".toList.count '\n' = 0 := by decide
    have hend : "` is not allowed".toList.count '\n' = 0 := by decide
    calc _ = _ := count_newline_append ("import from `" ++ module) "` is not allowed"
      _ = _ + 0 := congrArg₂ (· + ·) (count_newline_append "import from `" module) hend
      _ = 0 + module.toList.count '\n' := congrArg (· + module.toList.count '\n') hlead
      _ = _ := Nat.add_comm _ _
  | declaration kind code =>
    have hkind (kind : DeclarationKind) :
        ("`" ++ kind.keyword ++ "` declarations are not allowed").toList.count '\n' = 0 := by
      cases kind <;> decide
    exact hkind kind
  | reassignment code => exact count_newline_of_not_mem "reassignment is not allowed" (by decide)
  | loop code => exact count_newline_of_not_mem "loops are not allowed" (by decide)
  | ifStatement code => exact count_newline_of_not_mem "if statements are not allowed" (by decide)
  | console code => exact count_newline_of_not_mem "console is not allowed" (by decide)
  | helperFunction code =>
    exact count_newline_of_not_mem "helper functions are not allowed" (by decide)

theorem count_newline_taggedMessage (violation : Violation) :
    violation.taggedMessage.toList.count '\n' = violation.newlines := by
  have htag : ("[" ++ violation.tag.name ++ "] ").toList.count '\n' = 0 := by
    cases violation.tag <;> decide
  rw [taggedMessage, count_newline_append, htag, count_newline_message, Nat.zero_add]

end Violation

/-! What messages take over -/

namespace Check

variable (submission : Submission) (rules : Rules)

theorem expected_of_quoted (finding : Finding) (text : String)
    (h : finding ∈ expectedFunctions submission rules)
    (htext : text ∈ finding.violation.quoted) :
    ∃ expected, rules.expectedFunctions = some expected ∧ text ∈ expected := by
  unfold expectedFunctions at h
  split at h
  · simp at h
  · next expected hexpected =>
    obtain ⟨violation, hviolation, rfl⟩ := List.mem_map.mp h
    rw [Option.mem_toList] at hviolation
    unfold Violation.missingFunctions? at hviolation
    split at hviolation
    · simp at hviolation
    · obtain rfl := Option.some.inj hviolation
      exact ⟨expected, hexpected, ((mem_missingNames _ _ _).mp htext).1⟩

theorem module_of_quoted (finding : Finding) (text : String)
    (h : finding ∈ allowedImports submission rules) (htext : text ∈ finding.violation.quoted) :
    ∃ statement, submission.kind statement = .importStatement ∧
      module? submission statement = some text := by
  unfold allowedImports at h
  split at h
  · simp at h
  · obtain ⟨statement, hstatement, hfinding⟩ := List.mem_filterMap.mp h
    have hkind : submission.kind statement = .importStatement := by
      simpa using (List.mem_filter.mp hstatement).2
    unfold importFinding? at hfinding
    split at hfinding
    · simp at hfinding
    · next literal hliteral =>
      dsimp only at hfinding
      split at hfinding
      · simp at hfinding
      · obtain rfl := Option.some.inj hfinding
        obtain rfl := List.mem_singleton.mp htext
        exact ⟨statement, hkind, by rw [module?, hliteral, Option.map_some]⟩

end Check

/-- A message of a check takes over expected names and modules of imports, and nothing else. -/
theorem Engine.quoted_of_mem_check (engine : Engine) (submission : Submission) (rules : Rules)
    (finding : Finding) (text : String) (h : finding ∈ engine.check submission rules)
    (htext : text ∈ finding.violation.quoted) :
    (∃ expected, rules.expectedFunctions = some expected ∧ text ∈ expected) ∨
      ∃ statement, submission.kind statement = .importStatement ∧
        Check.module? submission statement = some text := by
  cases hviolation : finding.violation with
  | missingFunctions missing =>
    have htag : finding.violation.tag = Detector.expectedFunctions.tag := by
      rw [hviolation]
      rfl
    obtain ⟨-, hfound⟩ :=
      (mem_check_and_tag submission rules engine .expectedFunctions finding).mp ⟨h, htag⟩
    exact Or.inl (Check.expected_of_quoted submission rules finding text hfound htext)
  | importRefused module code =>
    have htag : finding.violation.tag = Detector.allowedImports.tag := by
      rw [hviolation]
      rfl
    obtain ⟨-, hfound⟩ :=
      (mem_check_and_tag submission rules engine .allowedImports finding).mp ⟨h, htag⟩
    exact Or.inr (Check.module_of_quoted submission rules finding text hfound htext)
  | _ =>
    rw [hviolation] at htext
    simp [Violation.quoted] at htext

namespace Report

/-! Lines -/

theorem toList_compactLine (name source : String) (finding : Finding) :
    (compactLine name source finding).toList =
      name.toList ++ ':' :: (Nat.toDigits 10 (positionOf source finding).line ++
        ':' :: (Nat.toDigits 10 (positionOf source finding).column ++
          ':' :: ' ' :: finding.violation.taggedMessage.toList)) := by
  simp [compactLine]

theorem not_mem_toDigits (n : Nat) (c : Char) (hc : c.isDigit = false) :
    c ∉ Nat.toDigits 10 n := by
  intro hmem
  rw [Nat.isDigit_of_mem_toDigits (by omega) (by omega) hmem] at hc
  simp at hc

/-- Texts without a colon are told apart where a colon follows them. -/
theorem colon_inj (left right s t : List Char) (hleft : ':' ∉ left) (hright : ':' ∉ right)
    (h : left ++ ':' :: s = right ++ ':' :: t) : left = right ∧ s = t := by
  rcases List.append_eq_append_iff.mp h with ⟨between, hlong, hrest⟩ | ⟨between, hlong, hrest⟩
  · cases between with
    | nil => exact ⟨by simpa using hlong.symm, (List.cons.inj hrest).2⟩
    | cons c between =>
      rw [hlong, ← (List.cons.inj hrest).1] at hright
      simp at hright
  · cases between with
    | nil => exact ⟨by simpa using hlong, (List.cons.inj hrest).2.symm⟩
    | cons c between =>
      rw [hlong, ← (List.cons.inj hrest).1] at hleft
      simp at hleft

theorem toDigits_colon_inj (m n : Nat) (s t : List Char)
    (h : Nat.toDigits 10 m ++ ':' :: s = Nat.toDigits 10 n ++ ':' :: t) : m = n ∧ s = t := by
  obtain ⟨hdigits, hrest⟩ := colon_inj _ _ s t (not_mem_toDigits m ':' rfl)
    (not_mem_toDigits n ':' rfl) h
  have hnumber : Nat.ofDigitChars 10 (Nat.toDigits 10 m) 0 = n := by
    rw [hdigits, Nat.ofDigitChars_ten_toDigits]
  exact ⟨Nat.ofDigitChars_ten_toDigits.symm.trans hnumber, hrest⟩

/-- Findings with the same line have the same position. -/
theorem positionOf_eq_of_compactLine (name source : String) (left right : Finding)
    (h : compactLine name source left = compactLine name source right) :
    positionOf source left = positionOf source right := by
  have hlist := congrArg String.toList h
  rw [toList_compactLine, toList_compactLine] at hlist
  have hnumbers := (List.cons.inj (List.append_cancel_left hlist)).2
  obtain ⟨hline, hrest⟩ := toDigits_colon_inj _ _ _ _ hnumbers
  obtain ⟨hcolumn, -⟩ := toDigits_colon_inj _ _ _ _ hrest
  calc positionOf source left
      = ⟨(positionOf source left).line, (positionOf source left).column⟩ := rfl
    _ = ⟨(positionOf source right).line, (positionOf source right).column⟩ := by
      rw [hline, hcolumn]

/-- The position of a place leads back to it, by whole lines and then by characters of its line;
that line is a slice of the text before the place, and the slice is always there. Of two places the
later one has the greater position, so findings at different places have different lines. -/
theorem compact_positions_identify_offsets (source : String) (a b : Span)
    (ha : Text.IsPlace source a.start) (hb : Text.IsPlace source b.start) :
    (∀ position, Text.Position.ofOffset source a.start = position ↔
      position.LeadsTo source a.start) ∧
    (∀ before, ∃ lines, Text.splitAtByte (Text.lineStart before) before =
      some (lines, Text.lastLine before)) ∧
    (a.start < b.start → (Text.Position.ofOffset source a.start).Before
      (Text.Position.ofOffset source b.start)) ∧
    (a.start ≠ b.start → ∀ name left right, compactLine name source (.at left a) ≠
      compactLine name source (.at right b)) := by
  refine ⟨Text.Position.ofOffset_eq_iff_leadsTo source a.start ha, ?_, ?_, ?_⟩
  · intro before
    obtain ⟨lines, rest, hlines⟩ := Text.exists_isLines before
    rw [hlines.splitAtByte_lineStart, hlines.lastLine_eq]
    exact ⟨_, rfl⟩
  · exact Text.Position.ofOffset_before source a.start b.start ha hb
  · intro hne name left right hline
    exact hne (Text.Position.ofOffset_inj source a.start b.start ha hb
      (positionOf_eq_of_compactLine name source _ _ hline))

/-- Places on one line after a newline, with characters of several bytes before them. -/
theorem compact_positions_identify_offsets_wide :
    let source := "é\n日本x"
    Text.IsPlace source 3 ∧ Text.IsPlace source 9 ∧
      Text.Position.ofOffset source 9 = ⟨2, 3⟩ ∧
      Text.Position.LeadsTo ⟨2, 3⟩ source 9 ∧
      (Text.Position.ofOffset source 3).Before (Text.Position.ofOffset source 9) ∧
      compactLine "s.ts" source (.at (.loop "日本x") ⟨3, 10⟩) ≠
        compactLine "s.ts" source (.at (.loop "日本x") ⟨9, 10⟩) := by
  intro source
  have hfirst : Text.IsPlace source 3 := by decide
  have hsecond : Text.IsPlace source 9 := by decide
  have hposition : Text.Position.ofOffset source 9 = ⟨2, 3⟩ := by decide
  obtain ⟨hleads, -, -, -⟩ :=
    compact_positions_identify_offsets source ⟨9, 10⟩ ⟨3, 10⟩ hsecond hfirst
  obtain ⟨-, -, hbefore, hlines⟩ :=
    compact_positions_identify_offsets source ⟨3, 10⟩ ⟨9, 10⟩ hfirst hsecond
  exact ⟨hfirst, hsecond, hposition, (hleads _).mp hposition, hbefore (by decide),
    hlines (by decide) "s.ts" _ _⟩

/-! Reports -/

theorem toList_compact (name source : String) (findings : List Finding) :
    (compact name source findings).toList =
      (findings.map fun finding => (compactLine name source finding).toList).flatMap
        (· ++ ['\n']) := by
  simp [compact, String.toList_join, List.flatMap_map]

theorem count_newline_compactLine (name source : String) (hname : '\n' ∉ name.toList)
    (finding : Finding) :
    (compactLine name source finding).toList.count '\n' = finding.violation.newlines := by
  have hline := not_mem_toDigits (positionOf source finding).line '\n' rfl
  have hcolumn := not_mem_toDigits (positionOf source finding).column '\n' rfl
  rw [toList_compactLine]
  simp [List.count_eq_zero.mpr hname, List.count_eq_zero.mpr hline, List.count_eq_zero.mpr hcolumn,
    Violation.count_newline_taggedMessage]

theorem count_newline_compact (name source : String) (hname : '\n' ∉ name.toList)
    (findings : List Finding) :
    (compact name source findings).toList.count '\n' =
      findings.length + (findings.map fun finding => finding.violation.newlines).sum := by
  rw [toList_compact]
  induction findings with
  | nil => rfl
  | cons finding findings ih =>
    rw [List.map_cons, List.flatMap_cons, List.count_append, ih, List.count_append,
      count_newline_compactLine name source hname, List.count_singleton_self, List.length_cons,
      List.map_cons, List.sum_cons]
    omega

/-- The lines are those of the findings when no message takes over a newline. -/
theorem isLines_compact_iff (name source : String) (hname : '\n' ∉ name.toList)
    (findings : List Finding) :
    Text.IsLines (compact name source findings).toList
        (findings.map fun finding => (compactLine name source finding).toList) [] ↔
      ∀ finding ∈ findings, ∀ text ∈ finding.violation.quoted, '\n' ∉ text.toList := by
  have hfinding (finding : Finding) : '\n' ∉ (compactLine name source finding).toList ↔
      ∀ text ∈ finding.violation.quoted, '\n' ∉ text.toList := by
    rw [← List.count_eq_zero, count_newline_compactLine name source hname,
      Violation.newlines_eq_zero_iff]
  constructor
  · intro hlines finding hmem
    exact (hfinding finding).mp (hlines.line _ (List.mem_map_of_mem hmem))
  · intro hquoted
    refine ⟨by rw [toList_compact, List.append_nil], ?_, by simp⟩
    intro line hline
    obtain ⟨finding, hmem, rfl⟩ := List.mem_map.mp hline
    exact (hfinding finding).mpr (hquoted finding hmem)

/-- Each newline that a message takes over makes one line more. -/
theorem exists_isLines_compact (name source : String) (hname : '\n' ∉ name.toList)
    (findings : List Finding) :
    ∃ lines, Text.IsLines (compact name source findings).toList lines [] ∧
      lines.length =
        findings.length + (findings.map fun finding => finding.violation.newlines).sum := by
  obtain ⟨lines, hlines⟩ := Text.exists_isLines_of_ended
    (findings.map fun finding => (compactLine name source finding).toList)
  rw [← toList_compact] at hlines
  exact ⟨lines, hlines, by rw [← hlines.count_newline, count_newline_compact name source hname]⟩

/-- A compact report has one line for each finding, in their order, exactly when no message takes
over a newline, and one more for each newline taken over. There is none to take over when the names
of expected functions and the modules of imports are without newlines. -/
theorem compact_lines_as_findings (name source : String) (submission : Submission) (rules : Rules)
    (hname : '\n' ∉ name.toList) :
    let findings := Engine.standard.check submission rules
    let lines := findings.map fun finding => (compactLine name source finding).toList
    (Text.IsLines (compact name source findings).toList lines [] ↔
      ∀ finding ∈ findings, ∀ text ∈ finding.violation.quoted, '\n' ∉ text.toList) ∧
    (∃ written, Text.IsLines (compact name source findings).toList written [] ∧
      written.length =
        findings.length + (findings.map fun finding => finding.violation.newlines).sum) ∧
    ((∀ expected, rules.expectedFunctions = some expected →
        ∀ text ∈ expected, '\n' ∉ text.toList) →
      (∀ statement module, submission.kind statement = .importStatement →
        Check.module? submission statement = some module → '\n' ∉ module.toList) →
      Text.IsLines (compact name source findings).toList lines []) := by
  intro findings lines
  refine ⟨isLines_compact_iff name source hname findings,
    exists_isLines_compact name source hname findings, ?_⟩
  intro hexpected hmodules
  apply (isLines_compact_iff name source hname findings).mpr
  intro finding hfinding text htext
  rcases Engine.quoted_of_mem_check _ submission rules finding text hfinding htext with
    ⟨expected, hrules, hmem⟩ | ⟨statement, hkind, hmodule⟩
  · exact hexpected expected hrules text hmem
  · exact hmodules statement text hkind hmodule

/-- Two functions are missing in one message, and a loop has a line of its own. -/
theorem compact_lines_as_findings_loop :
    let source := "\nwhile(1);"
    let submission := Submission.ofParse source
      ⟨.node ⟨"program", true, false, none, ⟨1, 10⟩⟩
        [.node ⟨"while_statement", true, false, none, ⟨1, 10⟩⟩ []], false⟩
    let rules : Rules := { expectedFunctions := some ["f", "g"], disallow := some [.loops] }
    let findings := Engine.standard.check submission rules
    '\n' ∉ "s.ts".toList ∧ findings.length = 2 ∧
      (∀ finding ∈ findings, ∀ text ∈ finding.violation.quoted, '\n' ∉ text.toList) ∧
      Text.IsLines (compact "s.ts" source findings).toList
        (findings.map fun finding => (compactLine "s.ts" source finding).toList) [] := by
  intro source submission rules findings
  have hname : '\n' ∉ "s.ts".toList := by decide
  have hquoted : ∀ finding ∈ findings, ∀ text ∈ finding.violation.quoted,
      '\n' ∉ text.toList := by decide +kernel
  obtain ⟨hlines, -, -⟩ := compact_lines_as_findings "s.ts" source submission rules hname
  exact ⟨hname, by decide +kernel, hquoted, hlines.mpr hquoted⟩

/-- A name with a newline in it breaks its line: there is one finding, and not one line. -/
theorem expected_name_breaks_line :
    let submission := Submission.ofParse ""
      ⟨.node ⟨"program", true, false, none, ⟨0, 0⟩⟩ [], false⟩
    let rules : Rules := { expectedFunctions := some ["a\nb"] }
    let findings := Engine.standard.check submission rules
    '\n' ∉ "s.ts".toList ∧ findings.length = 1 ∧
      compact "s.ts" "" findings =
        "s.ts:1:1: [MissingExpectedFunction] missing expected function(s): a\nb\n" ∧
      ¬ ∃ lines, Text.IsLines (compact "s.ts" "" findings).toList lines [] ∧
        lines.length = findings.length := by
  intro submission rules findings
  have hlength : findings.length = 1 := by decide +kernel
  have htext : compact "s.ts" "" findings =
      "s.ts:1:1: [MissingExpectedFunction] missing expected function(s): a\nb\n" := by
    decide +kernel
  refine ⟨by decide, hlength, htext, ?_⟩
  intro hlines
  obtain ⟨lines, hlines, hsame⟩ := hlines
  have hcount := hlines.count_newline
  rw [hsame, hlength, htext] at hcount
  exact absurd hcount (by decide)

end Report

end Rubric
