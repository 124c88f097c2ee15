import EntryLint.Proofs.Check.Order

/-!
# The lines of a report

The text of a report is taken line by line, each line with what it is about, so that what the text
shows can be listed and counted even where a message holds a line feed (`text_eq_render`). The
reports of runs count each of their diagnostics once (`Counted`), and their texts agree with them
(`Shows`).
-/

namespace EntryLint

/-- A line in the text of a report. -/
inductive ReportLine where
  | file (name : String)
  | entry (d : Diagnostic)
  | skipped (s : SkippedFile)
  | summary (problems errors warnings : Int)
  | blank

namespace ReportLine

/-- A number of things; only one of them is singular. -/
def numbered (n : Int) (one many : String) : String :=
  if n = 1 then "1 " ++ one else toString n ++ " " ++ many

/-- The text of a line. -/
def text : ReportLine → String
  | file name => name
  | entry d => d.shown
  | skipped s => "skipped " ++ s.file ++ ": " ++ s.reason
  | summary problems errors warnings =>
    numbered problems "problem" "problems" ++ " (" ++ numbered errors "error" "errors" ++ ", " ++
      numbered warnings "warning" "warnings" ++ ")"
  | blank => ""

/-- Lines as a text, each with a line feed behind it. -/
def render (lines : List ReportLine) : String :=
  String.join (lines.map fun l => l.text ++ "\n")

/-- The diagnostic that a line shows. -/
def entry? : ReportLine → Option Diagnostic
  | entry d => some d
  | _ => none

/-- The diagnostics that lines show. -/
def entries (lines : List ReportLine) : List Diagnostic :=
  lines.filterMap entry?

/-- The number of diagnostics of a severity that lines show. -/
def entryCount (severity : Severity) (lines : List ReportLine) : Nat :=
  ((entries lines).filter fun d => d.severity = severity).length

end ReportLine

namespace CheckReport

/-- The lines about one file. -/
def fileBlock (ds : List Diagnostic) : List ReportLine :=
  (ds.head?.map fun d => .file d.file).toList ++ ds.map .entry ++ [.blank]

/-- The lines about diagnostics. -/
def diagnosticBlock (r : CheckReport) : List ReportLine :=
  ((Diagnostic.sorted r.diagnostics).splitBy fun a b => a.file = b.file).flatMap fileBlock

/-- The lines about skipped files. -/
def skippedBlock (r : CheckReport) : List ReportLine :=
  if r.skipped.isEmpty then [] else r.skipped.map .skipped ++ [.blank]

/-- The line with the counts. -/
def summaryBlock (r : CheckReport) : List ReportLine :=
  if r.errorCount + r.warningCount = 0 then []
  else [.summary (r.errorCount + r.warningCount) r.errorCount r.warningCount]

/-- The lines of a report. -/
def printed (r : CheckReport) : List ReportLine :=
  r.diagnosticBlock ++ r.skippedBlock ++ r.summaryBlock

/-- The counts of a report are those of its diagnostics, which are errors and warnings. -/
structure Counted (r : CheckReport) : Prop where
  errors : r.errorCount = (r.diagnostics.filter fun d => d.severity = .error).length
  warnings : r.warningCount = (r.diagnostics.filter fun d => d.severity = .warn).length
  total : r.errorCount + r.warningCount = r.diagnostics.length

/-- An output shows a report: line by line its diagnostics and what was skipped, and at the end how
many diagnostics the lines before have shown. -/
structure Shows (r : CheckReport) (output : String) : Prop where
  lines : output = ReportLine.render r.printed
  entries : ReportLine.entries r.printed = r.diagnostics
  summary_iff : (∃ p e w, .summary p e w ∈ r.printed) ↔ r.diagnostics ≠ []
  counts : ∀ p e w : Int, .summary p e w ∈ r.printed →
    p = (ReportLine.entries r.printed).length ∧
    e = ReportLine.entryCount .error r.printed ∧ w = ReportLine.entryCount .warn r.printed
  last : ∀ p e w : Int, .summary p e w ∈ r.printed → ∃ body, r.printed = body ++ [.summary p e w] ∧
    ∀ p' e' w', .summary p' e' w' ∉ body
  empty_iff : output = "" ↔ r.diagnostics = [] ∧ r.skipped = []

end CheckReport

/-! ## The text of lines -/

/-- A separator behind joined texts is one behind each of them. -/
lemma Text.join_append_sep (sep : String) {parts : List String} (h : parts ≠ []) :
    join sep parts ++ sep = String.join (parts.map (· ++ sep)) := by
  rw [← String.toList_inj]
  obtain ⟨part, parts, rfl⟩ := List.exists_cons_of_ne_nil h
  rw [String.toList_append, toList_join, List.map_cons, intercalate_cons_eq, String.toList_join]
  clear h
  induction parts generalizing part with
  | nil => simp
  | cons next parts ih =>
    have hrest := ih next
    simp only [List.map_cons, List.flatMap_cons, List.append_assoc, String.toList_append] at hrest ⊢
    rw [hrest]

lemma Diagnostic.sorted_perm (ds : List Diagnostic) : (sorted ds).Perm ds :=
  List.mergeSort_perm ds _

namespace ReportLine

lemma render_eq_empty_iff (lines : List ReportLine) : render lines = "" ↔ lines = [] := by
  cases lines with
  | nil => simp [render]
  | cons l lines =>
    -- the first line brings a line feed
    have hne : render (l :: lines) ≠ "" := by
      rw [render, ne_eq, ← String.toList_inj, String.toList_join]
      simp
    simp [hne]

lemma entries_append (ls ls' : List ReportLine) : entries (ls ++ ls') = entries ls ++ entries ls' :=
  List.filterMap_append

end ReportLine

namespace CheckReport

open ReportLine

variable (r : CheckReport)

lemma counted_eq_numbered (n : Int) (noun : String) :
    counted n noun = numbered n noun (noun ++ "s") := by
  unfold counted numbered
  by_cases hone : n = 1
  · rw [if_pos hone, if_pos hone, hone, String.append_empty]
    rfl
  · rw [if_neg hone, if_neg hone, String.append_assoc]

lemma map_text_fileBlock (ds : List Diagnostic) :
    (fileBlock ds).map ReportLine.text = fileLines ds := by
  cases ds with
  | nil => rfl
  | cons d ds => simp [fileBlock, fileLines, ReportLine.text, Diagnostic.line_eq_shown]

lemma map_text_printed : r.printed.map ReportLine.text =
    r.diagnosticLines ++ r.skippedLines ++ r.summaryLines := by
  have hdiagnostics : r.diagnosticBlock.map ReportLine.text = r.diagnosticLines := by
    rw [diagnosticBlock, diagnosticLines, List.map_flatMap]
    congr 1
    exact funext map_text_fileBlock
  have hskipped : r.skippedBlock.map ReportLine.text = r.skippedLines := by
    rw [skippedBlock, skippedLines, apply_ite (List.map ReportLine.text), List.map_append,
      List.map_map]
    rfl
  have hsummary : r.summaryBlock.map ReportLine.text = r.summaryLines := by
    rw [summaryBlock, summaryLines, apply_ite (List.map ReportLine.text), counted_eq_numbered,
      counted_eq_numbered, counted_eq_numbered]
    rfl
  rw [printed, List.map_append, List.map_append, hdiagnostics, hskipped, hsummary]

/-- The text of a report is made of its lines. -/
lemma text_eq_render : r.text = render r.printed := by
  rw [text, ← map_text_printed]
  by_cases hnil : r.printed = []
  · rw [hnil]
    rfl
  · have hne : r.printed.map ReportLine.text ≠ [] := by simpa using hnil
    show (if (r.printed.map ReportLine.text).isEmpty then _ else _) = _
    rw [if_neg (by simpa using hnil), Text.join_append_sep "\n" hne, List.map_map]
    rfl

/-! ## What the lines show -/

lemma entries_fileBlock (ds : List Diagnostic) : entries (fileBlock ds) = ds := by
  have hentries : (ds.map ReportLine.entry).filterMap entry? = ds := by
    rw [List.filterMap_map]
    exact List.filterMap_some
  have hname : ((ds.head?.map fun d => ReportLine.file d.file).toList).filterMap entry? = [] := by
    cases ds with
    | nil => rfl
    | cons d ds => rfl
  rw [fileBlock, entries, List.filterMap_append, List.filterMap_append, hname, hentries]
  exact List.append_nil ds

/-- Sorted and split by file, every diagnostic is still shown once. -/
lemma entries_diagnosticBlock : entries r.diagnosticBlock = Diagnostic.sorted r.diagnostics := by
  -- how the diagnostics are split does not matter
  have hflatten : ∀ groups : List (List Diagnostic),
      entries (groups.flatMap fileBlock) = groups.flatten := by
    intro groups
    induction groups with
    | nil => rfl
    | cons g groups ih =>
      rw [List.flatMap_cons, entries_append, entries_fileBlock, ih, List.flatten_cons]
  rw [diagnosticBlock, hflatten, List.flatten_splitBy]

lemma entries_printed : entries r.printed = Diagnostic.sorted r.diagnostics := by
  have hskipped : entries r.skippedBlock = [] := by
    rw [entries, List.filterMap_eq_nil_iff, skippedBlock]
    intro l hl
    split at hl
    · cases hl
    · rw [List.mem_append, List.mem_map, List.mem_singleton] at hl
      rcases hl with ⟨s, -, rfl⟩ | rfl
      · rfl
      · rfl
  have hsummary : entries r.summaryBlock = [] := by
    rw [summaryBlock]
    split
    · rfl
    · rfl
  rw [printed, entries_append, entries_append, entries_diagnosticBlock, hskipped, hsummary,
    List.append_nil, List.append_nil]

variable {r}

/-- Counts stand in the last lines only. -/
lemma summary_not_mem_front {p e w : Int} :
    ReportLine.summary p e w ∉ r.diagnosticBlock ++ r.skippedBlock := by
  intro hmem
  rcases List.mem_append.mp hmem with hmem | hmem
  · rw [diagnosticBlock, List.mem_flatMap] at hmem
    obtain ⟨ds, -, hmem⟩ := hmem
    simp [fileBlock] at hmem
  · rw [skippedBlock] at hmem
    split at hmem
    · cases hmem
    · simp at hmem

lemma summary_mem_printed_iff {p e w : Int} :
    ReportLine.summary p e w ∈ r.printed ↔ r.errorCount + r.warningCount ≠ 0 ∧
      p = r.errorCount + r.warningCount ∧ e = r.errorCount ∧ w = r.warningCount := by
  rw [printed, List.mem_append, or_iff_right summary_not_mem_front, summaryBlock]
  by_cases htotal : r.errorCount + r.warningCount = 0
  · simp [htotal]
  · simp [htotal]

lemma printed_eq_concat {p e w : Int} (h : ReportLine.summary p e w ∈ r.printed) :
    r.printed = r.diagnosticBlock ++ r.skippedBlock ++ [.summary p e w] := by
  obtain ⟨htotal, rfl, rfl, rfl⟩ := summary_mem_printed_iff.mp h
  rw [printed, summaryBlock, if_neg htotal]

lemma printed_eq_nil_iff : r.printed = [] ↔
    r.diagnostics = [] ∧ r.skipped = [] ∧ r.errorCount + r.warningCount = 0 := by
  have hdiagnostics : r.diagnosticBlock = [] ↔ r.diagnostics = [] := by
    constructor
    · intro hnil
      have hperm := Diagnostic.sorted_perm r.diagnostics
      rw [← entries_diagnosticBlock, hnil] at hperm
      exact List.nil_perm.mp hperm
    · intro hnil
      rw [diagnosticBlock, hnil, Diagnostic.sorted, List.mergeSort_nil, List.splitBy_nil,
        List.flatMap_nil]
  have hskipped : r.skippedBlock = [] ↔ r.skipped = [] := by
    rw [skippedBlock]
    by_cases hnil : r.skipped = []
    · simp [hnil]
    · simp [hnil]
  have hsummary : r.summaryBlock = [] ↔ r.errorCount + r.warningCount = 0 := by
    rw [summaryBlock]
    by_cases htotal : r.errorCount + r.warningCount = 0
    · simp [htotal]
    · simp [htotal]
  rw [printed, List.append_eq_nil_iff, List.append_eq_nil_iff, hdiagnostics, hskipped, hsummary,
    and_assoc]

/-- The text of a report that is in order and counts its diagnostics shows it. -/
lemma shows_text (horder : r.InOrder) (hcounted : r.Counted) : r.Shows r.text := by
  have hentries : entries r.printed = r.diagnostics := by rw [entries_printed, horder.sorted]
  -- every diagnostic is counted, so a sum of nothing means that there is none
  have htotal : r.errorCount + r.warningCount = 0 ↔ r.diagnostics = [] := by
    rw [hcounted.total, Int.natCast_eq_zero, List.length_eq_zero_iff]
  constructor
  case lines => exact text_eq_render r
  case entries => exact hentries
  case summary_iff =>
    simp only [summary_mem_printed_iff, ne_eq, htotal]
    constructor
    · rintro ⟨p, e, w, hne, -⟩
      exact hne
    · intro hne
      exact ⟨_, _, _, hne, rfl, rfl, rfl⟩
  case counts =>
    intro p e w hmem
    obtain ⟨-, rfl, rfl, rfl⟩ := summary_mem_printed_iff.mp hmem
    rw [entryCount, entryCount, hentries]
    exact ⟨hcounted.total, hcounted.errors, hcounted.warnings⟩
  case last =>
    intro p e w hmem
    exact ⟨_, printed_eq_concat hmem, fun _ _ _ => summary_not_mem_front⟩
  case empty_iff =>
    rw [text_eq_render, render_eq_empty_iff, printed_eq_nil_iff, htotal]
    constructor
    · rintro ⟨hnone, hskipped, -⟩
      exact ⟨hnone, hskipped⟩
    · rintro ⟨hnone, hskipped⟩
      exact ⟨hnone, hskipped, hnone⟩

end CheckReport

/-! ## The counts of a run -/

namespace Check

variable {libs : Libraries} {cf : ConfigFile} {cfg : LintConfig} {tree : FileTree} {root : Path}
  {targets : List Path} {report : CheckReport} {memory memory' : Memory libs.parser}

/-- Whatever the severities of its rules are, a run counts the errors and the warnings. -/
lemma counts_of_outcome_run
    (h : (run libs tree root cfg targets memory).outcome = .ok (report, memory')) :
    report.errorCount = (report.diagnostics.filter fun d => d.severity = .error).length ∧
      report.warningCount = (report.diagnostics.filter fun d => d.severity = .warn).length := by
  obtain ⟨-, results, -, rfl⟩ := exists_discovers_of_run h
  exact ⟨errorCount_reportOf root cfg results, warningCount_reportOf root cfg results⟩

/-- Rules are switched on as errors or as warnings, so every diagnostic counts as one of them. -/
lemma counted_of_outcome_run (hparser : libs.parser.IsSound) (hcfg : Config.Resolved cf cfg)
    (hcf : cf.HasKnownSeverities) (hmemory : memory.IsTrue)
    (h : (run libs tree root cfg targets memory).outcome = .ok (report, memory')) :
    report.Counted := by
  obtain ⟨herrors, hwarnings⟩ := counts_of_outcome_run h
  obtain ⟨rules, files, result, hrules, -, -, hjudged, rfl⟩ :=
    exists_reportBy_of_run hparser hcfg hcf hmemory h
  have hlength := length_filter_severity (severity_diagnostics cfg files hparser hrules hjudged)
  exact ⟨herrors, hwarnings, by omega⟩

end Check

end EntryLint
