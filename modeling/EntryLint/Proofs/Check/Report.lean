import EntryLint.Proofs.Check.Binding
import EntryLint.Proofs.Check.Linting
import EntryLint.Proofs.Discovery.Contents
import Mathlib.Data.List.Basic

/-!
# Reports on a project

`IsReport` says what a report on some files holds: which files are skipped, where the diagnostics
come from, and what the counts count. A report is put together from the results of single files
(`reportBy`): it is such a report whenever the files are files of the project (`isReport_reportBy`),
and what it says about a file comes from the result of that file (`agreesExcept_reportBy`).
-/

namespace EntryLint.Check

open Scan (Yields)

/-! ## What a report says -/

/-- A report on some files that were found, checked by some rules. -/
structure IsReport (parser : ParserLibrary) (tree : FileTree) (root : Path) (cfg : LintConfig)
    (rules : List BoundRule) (files : List String) (report : CheckReport) : Prop where
  found : ∀ f ∈ files, ∃ bytes, tree.find? (root.under (Path.ofText f)) = some (.file bytes)
  skipped : report.skipped.map (·.file) = files.filter fun f => ¬ IsText tree root f
  checked : report.filesChecked + report.skipped.length = files.length
  diagnostics : ∃ (text : String → String) (linted : String → List Diagnostic),
    (∀ f ∈ files, IsText tree root f → HoldsText tree root f (text f) ∧
      Yields (lintText parser cfg.policy rules f (nameSuffix (lastSegment f))
        (withLineFeeds (text f))) (linted f)) ∧
    report.diagnostics = (files.filter fun f => IsText tree root f).flatMap linted
  off : (∀ e ∈ cfg.rules, e.2 = .off) → report.diagnostics = []
  severity : ∀ d ∈ report.diagnostics, d.severity = .error ∨ d.severity = .warn
  errors : report.errorCount = (report.diagnostics.filter fun d => d.severity = .error).length
  warnings : report.warningCount = (report.diagnostics.filter fun d => d.severity = .warn).length
  total : report.errorCount + report.warningCount = report.diagnostics.length

/-- Two reports say the same about all files but one. -/
structure AgreesExcept (g : String) (report report' : CheckReport) : Prop where
  diagnostics : report.diagnostics.filter (fun d => d.file ≠ g) =
    report'.diagnostics.filter fun d => d.file ≠ g
  skipped : report.skipped.filter (fun s => s.file ≠ g) =
    report'.skipped.filter fun s => s.file ≠ g

/-! ## Names of files -/

section Names

variable {tree : FileTree} {root : Path} {names : List String}

lemma under_ofText_join (hnames : ∀ n ∈ names, IsFileName n) :
    root.under (Path.ofText (Text.join "/" names)) =
      { root with parts := root.parts ++ names } := by
  rw [Path.ofText_join hnames, Path.under_relative]

lemma dots_not_mem_root (hp : IsProject tree root) : ".." ∉ root.parts := by
  rw [← hp.resolved]
  exact Path.dots_not_mem_resolve root

lemma dots_not_mem (hp : IsProject tree root) (hnames : ∀ n ∈ names, IsFileName n) :
    ".." ∉ root.parts ++ names := by
  intro hmem
  rcases List.mem_append.mp hmem with hmem | hmem
  · exact dots_not_mem_root hp hmem
  · exact (hnames _ hmem).ne_dots rfl

lemma find?_under_join (hp : IsProject tree root) (hnames : ∀ n ∈ names, IsFileName n)
    (t : FileTree) : t.find? (root.under (Path.ofText (Text.join "/" names))) =
      t.descend (root.parts ++ names) := by
  rw [under_ofText_join hnames, FileTree.find?_eq_descend (dots_not_mem hp hnames)]

/-- A file is not the root, so it has a name. -/
lemma ne_nil_of_descend (hp : IsProject tree root) {bytes : List UInt8}
    (h : tree.descend (root.parts ++ names) = some (.file bytes)) : names ≠ [] := by
  rintro rfl
  obtain ⟨entries, hroot⟩ := hp.descend_root
  rw [List.append_nil, hroot] at h
  cases h

lemma lastSegment_join (hne : names ≠ []) (hnames : ∀ n ∈ names, IsFileName n) :
    lastSegment (Text.join "/" names) = names.getLast?.getD "" := by
  rw [lastSegment, split_join_names hne hnames]

lemma getLast?_under_join (hne : names ≠ []) (hnames : ∀ n ∈ names, IsFileName n) :
    (root.under (Path.ofText (Text.join "/" names))).parts.getLast?.getD "" =
      lastSegment (Text.join "/" names) := by
  rw [lastSegment_join hne hnames, under_ofText_join hnames]
  show (root.parts ++ names).getLast?.getD "" = _
  rw [List.getLast?_append, List.getLast?_eq_some_getLast hne, Option.some_or]

end Names

/-! ## Reports -/

section Report

variable (root : Path) (cfg : LintConfig) (files : List String) (result : String → FileResult)

/-- The entry of a file among those that were skipped. -/
def skippedEntry (f : String) : FileResult → Option SkippedFile
  | .error reason => some { file := f, reason }
  | .ok _ => none

/-- The report on files by their results. -/
def reportBy : CheckReport :=
  reportOf root cfg (files.map fun f => (f, result f))

lemma diagnostics_reportBy :
    (reportBy root cfg files result).diagnostics =
      files.flatMap fun f => (result f).toOption.getD [] := by
  show ((files.map fun f => (f, result f)).filterMap fun e => e.2.toOption).flatten = _
  rw [List.filterMap_map]
  induction files with
  | nil => rfl
  | cons f files ih =>
    rw [List.filterMap_cons, List.flatMap_cons, ← ih]
    cases hresult : result f with
    | error reason => simp [hresult, Except.toOption]
    | ok ds => simp [hresult, Except.toOption]

lemma skipped_reportBy :
    (reportBy root cfg files result).skipped =
      files.filterMap fun f => skippedEntry f (result f) := by
  show (files.map fun f => (f, result f)).filterMap _ = _
  rw [List.filterMap_map]
  rfl

/-- Every file is checked or skipped. -/
lemma filesChecked_reportBy :
    (reportBy root cfg files result).filesChecked +
      (reportBy root cfg files result).skipped.length = files.length := by
  rw [skipped_reportBy]
  show ((((files.map fun f => (f, result f)).filterMap fun e => e.2.toOption).length : Nat) : Int)
      + _
    = _
  rw [List.filterMap_map]
  have hcount : (files.filterMap ((fun e : String × FileResult => e.2.toOption) ∘
      fun f => (f, result f))).length +
      (files.filterMap fun f => skippedEntry f (result f)).length = files.length := by
    induction files with
    | nil => rfl
    | cons f files ih =>
      rw [List.filterMap_cons, List.filterMap_cons, List.length_cons, ← ih]
      cases hresult : result f with
      | error reason =>
        simp only [Function.comp_apply, hresult, Except.toOption, skippedEntry, List.length_cons]
        omega
      | ok ds =>
        simp only [Function.comp_apply, hresult, Except.toOption, skippedEntry, List.length_cons]
        omega
  omega

lemma countOf_eq (severity : Severity) (ds : List Diagnostic) :
    countOf severity ds = (ds.filter fun d => d.severity = severity).length := by
  rw [countOf, List.countP_eq_length_filter]

lemma errorCount_reportOf (results : List (String × FileResult)) :
    (reportOf root cfg results).errorCount =
      ((reportOf root cfg results).diagnostics.filter fun d => d.severity = .error).length :=
  countOf_eq _ _

lemma warningCount_reportOf (results : List (String × FileResult)) :
    (reportOf root cfg results).warningCount =
      ((reportOf root cfg results).diagnostics.filter fun d => d.severity = .warn).length :=
  countOf_eq _ _

/-- Diagnostics that are errors or warnings are counted once. -/
lemma length_filter_severity {ds : List Diagnostic}
    (h : ∀ d ∈ ds, d.severity = .error ∨ d.severity = .warn) :
    (ds.filter fun d => d.severity = .error).length +
        (ds.filter fun d => d.severity = .warn).length =
      ds.length := by
  induction ds with
  | nil => rfl
  | cons d ds ih =>
    rw [List.forall_mem_cons] at h
    have hrest := ih h.2
    rcases h.1 with hd | hd
    · simp [hd]
      omega
    · simp [hd]
      omega

end Report

/-! ## Reports on the files of a project -/

section Project

open Discovery (NamesFile)

variable {parser : ParserLibrary} {tree tree' : FileTree} {root : Path} {cfg : LintConfig}
  {policy : PathPolicy} {rules : List BoundRule} {files : List String} {f : String}
  {result result' : String → FileResult}

lemma suffixOf_of_namesFile (hp : IsProject tree root) (hf : NamesFile tree root f) :
    suffixOf (root.under (Path.ofText f)) = nameSuffix (lastSegment f) := by
  obtain ⟨names, bytes, hnames, hfile, rfl⟩ := hf
  rw [suffixOf, getLast?_under_join (ne_nil_of_descend hp hfile) hnames]

/-- The diagnostics of a result are about its file and have the severity of a rule. -/
lemma forall_mem_of_judged (hparser : parser.IsSound) (hrules : Reportable rules)
    (h : Judged parser tree root policy rules f (result f)) :
    ∀ d ∈ (result f).toOption.getD [], d.file = f ∧ ∃ b ∈ rules, d.severity = b.severity := by
  cases hresult : result f with
  | error reason => exact fun d hd => absurd hd List.not_mem_nil
  | ok ds =>
    rw [hresult] at h
    exact h.forall_mem hparser hrules

lemma skipped_map_file (h : ∀ f, Judged parser tree root policy rules f (result f)) :
    (reportBy root cfg files result).skipped.map (·.file) =
      files.filter fun f => ¬ IsText tree root f := by
  rw [skipped_reportBy, List.map_filterMap, ← List.filterMap_eq_filter]
  apply List.filterMap_congr
  intro f _
  have hjudged := h f
  cases hresult : result f with
  | error reason =>
    rw [hresult] at hjudged
    cases hjudged with
    | skipped noText => simp [skippedEntry, Option.guard, noText]
  | ok ds =>
    rw [hresult] at hjudged
    obtain ⟨holds, -⟩ := hjudged
    have hsome : IsText tree root f := ⟨_, holds⟩
    simp [skippedEntry, Option.guard, hsome]

lemma diagnostics_eq_flatMap (h : ∀ f, Judged parser tree root policy rules f (result f)) :
    (reportBy root cfg files result).diagnostics =
      (files.filter fun f => IsText tree root f).flatMap fun f => (result f).toOption.getD [] := by
  rw [diagnostics_reportBy]
  induction files with
  | nil => rw [List.flatMap_nil, List.filter_nil, List.flatMap_nil]
  | cons f files ih =>
    rw [List.flatMap_cons, ih]
    by_cases hf : IsText tree root f
    · rw [List.filter_cons_of_pos (by simpa using hf), List.flatMap_cons]
    · have hjudged := h f
      cases hresult : result f with
      | error reason =>
        rw [List.filter_cons_of_neg (by simpa using hf), Except.toOption, Option.getD_none,
          List.nil_append]
      | ok ds =>
        rw [hresult] at hjudged
        obtain ⟨holds, -⟩ := hjudged
        exact absurd ⟨_, holds⟩ hf

/-- The diagnostics of a text file are those of its text. -/
lemma exists_text_of_judged (hp : IsProject tree root) (hf : NamesFile tree root f)
    (htext : IsText tree root f) (h : Judged parser tree root policy rules f (result f)) :
    ∃ s, HoldsText tree root f s ∧
      Yields (lintText parser policy rules f (nameSuffix (lastSegment f)) (withLineFeeds s))
        ((result f).toOption.getD []) := by
  rw [← suffixOf_of_namesFile hp hf]
  cases hresult : result f with
  | error reason =>
    rw [hresult] at h
    cases h with
    | skipped noText => exact absurd htext noText
  | ok ds =>
    rw [hresult] at h
    obtain ⟨holds, yields⟩ := h
    exact ⟨_, holds, yields⟩

lemma mem_diagnostics (hparser : parser.IsSound) (hrules : Reportable rules)
    (h : ∀ f, Judged parser tree root policy rules f (result f)) :
    ∀ d ∈ (reportBy root cfg files result).diagnostics, ∃ b ∈ rules, d.severity = b.severity := by
  intro d hd
  rw [diagnostics_reportBy, List.mem_flatMap] at hd
  obtain ⟨f, -, hd⟩ := hd
  exact (forall_mem_of_judged hparser hrules (h f) d hd).2

lemma severity_diagnostics (cfg : LintConfig) (files : List String) (hparser : parser.IsSound)
    (hrules : Reportable rules) (h : ∀ f, Judged parser tree root policy rules f (result f)) :
    ∀ d ∈ (reportBy root cfg files result).diagnostics, d.severity = .error ∨
        d.severity = .warn := by
  intro d hd
  obtain ⟨b, hb, hseverity⟩ := mem_diagnostics hparser hrules h d hd
  rw [hseverity]
  exact hrules b hb

lemma isReport_reportBy (hparser : parser.IsSound) (hp : IsProject tree root)
    (hfiles : ∀ f ∈ files, NamesFile tree root f) (hrules : Reportable rules)
    (hoff : (∀ e ∈ cfg.rules, e.2 = .off) → rules = [])
    (h : ∀ f, Judged parser tree root cfg.policy rules f (result f)) :
    IsReport parser tree root cfg rules files (reportBy root cfg files result) := by
  have hknown := severity_diagnostics cfg files hparser hrules h
  -- the texts of the files that hold one
  have hexists : ∀ f, ∃ s, f ∈ files → IsText tree root f → HoldsText tree root f s ∧
      Yields (lintText parser cfg.policy rules f (nameSuffix (lastSegment f)) (withLineFeeds s))
        ((result f).toOption.getD []) := by
    intro f
    by_cases hf : f ∈ files ∧ IsText tree root f
    · obtain ⟨s, hs⟩ := exists_text_of_judged hp (hfiles f hf.1) hf.2 (h f)
      exact ⟨s, fun _ _ => hs⟩
    · exact ⟨"", fun hmem htext => absurd ⟨hmem, htext⟩ hf⟩
  choose text htext using hexists
  have herrors := errorCount_reportOf root cfg (files.map fun f => (f, result f))
  have hwarnings := warningCount_reportOf root cfg (files.map fun f => (f, result f))
  refine
    { found := ?_
      skipped := skipped_map_file h
      checked := filesChecked_reportBy root cfg files result
      diagnostics := ⟨text, _, htext, diagnostics_eq_flatMap h⟩
      off := ?_
      severity := hknown
      errors := herrors
      warnings := hwarnings
      total := ?_ }
  · intro f hf
    obtain ⟨names, bytes, hnames, hfile, rfl⟩ := hfiles f hf
    exact ⟨bytes, by rw [find?_under_join hp hnames, hfile]⟩
  · intro hcfg
    obtain rfl := hoff hcfg
    refine List.eq_nil_iff_forall_not_mem.mpr fun d hd => ?_
    obtain ⟨b, hb, -⟩ := mem_diagnostics hparser hrules h d hd
    exact absurd hb List.not_mem_nil
  · rw [reportBy, herrors, hwarnings]
    exact_mod_cast length_filter_severity hknown

/-- Without what is said about a file, nothing is left of its diagnostics. -/
lemma filter_diagnostics_self (hparser : parser.IsSound) (hrules : Reportable rules) {g : String}
    (h : Judged parser tree root policy rules g (result g)) :
    ((result g).toOption.getD []).filter (fun d => d.file ≠ g) = [] := by
  rw [List.filter_eq_nil_iff]
  intro d hd
  simp [(forall_mem_of_judged hparser hrules h d hd).1]

lemma filter_skippedEntry_self (g : String) (result : FileResult) :
    (skippedEntry g result).filter (fun s => s.file ≠ g) = none := by
  cases result with
  | error reason => simp [skippedEntry]
  | ok ds => rfl

/-- Reports on the same files agree but for one file if all others give the same results. -/
lemma agreesExcept_reportBy (hparser : parser.IsSound) (hrules : Reportable rules) {g : String}
    (h : Judged parser tree root policy rules g (result g))
    (h' : Judged parser tree' root policy rules g (result' g))
    (hsame : ∀ f ∈ files, f ≠ g → result f = result' f) :
    AgreesExcept g (reportBy root cfg files result) (reportBy root cfg files result') := by
  constructor
  · rw [diagnostics_reportBy, diagnostics_reportBy, List.filter_flatMap, List.filter_flatMap]
    apply List.flatMap_congr
    intro f hf
    by_cases hfg : f = g
    · rw [hfg, filter_diagnostics_self hparser hrules h, filter_diagnostics_self hparser hrules h']
    · rw [hsame f hf hfg]
  · rw [skipped_reportBy, skipped_reportBy, List.filter_filterMap, List.filter_filterMap]
    apply List.filterMap_congr
    intro f hf
    by_cases hfg : f = g
    · rw [hfg, filter_skippedEntry_self, filter_skippedEntry_self]
    · rw [hsame f hf hfg]

end Project

end EntryLint.Check
