import EntryLint.Proofs.Check.Lines
import EntryLint.Proofs.Command.Endings

/-!
# The verdict of a check

A check fails when it finds an error, or more warnings than are allowed. The exit code, the counts
in a document, the last line of a text and the diagnostics that are listed come from different parts
of a report. The main result is `check_concludes`: they agree on every report of a check, and the
form of the report changes no exit code.
-/

namespace EntryLint.Command

/-- Diagnostics fail a check: there is an error, or there are more warnings than are allowed. A
negative number sets no limit. -/
def Fails (maxWarnings : Int) (ds : List Diagnostic) : Prop :=
  (∃ d ∈ ds, d.severity = .error) ∨
    0 ≤ maxWarnings ∧ maxWarnings < (ds.filter fun d => d.severity = .warn).length

/-- An exit code says whether diagnostics fail a check. -/
structure Verdict (maxWarnings : Int) (ds : List Diagnostic) (code : Nat) : Prop where
  one_iff : code = 1 ↔ Fails maxWarnings ds
  zero_iff : code = 0 ↔ ¬ Fails maxWarnings ds

/-- A check finds its configuration and its files, and reports on them. -/
def Finds (libs : Libraries) (s : Surroundings) (request : CheckRequest) (report : CheckReport) :
    Prop :=
  ∃ cfg registry memory, loaded libs s request = .ok (cfg, registry) ∧
    (Check.run libs s.tree (request.projectRoot s.workingDirectory) cfg request.targets
      { registry }).outcome = .ok (report, memory)

/-- What is left by a check with a report: a verdict, and the report in the form that is asked for.
-/
structure Concludes (request : CheckRequest) (report : CheckReport) (r : RunResult) : Prop where
  verdict : Verdict request.maxWarnings report.diagnostics r.code
  text : request.json = false → report.Shows r.stdout
  document : request.json = true → ∃ fields : NameMap JsonDoc,
    r.stdout = (JsonDoc.object fields).render ∧
    fields.get? "errorCount" =
      some (.int (report.diagnostics.filter fun d => d.severity = .error).length) ∧
    fields.get? "warningCount" =
      some (.int (report.diagnostics.filter fun d => d.severity = .warn).length) ∧
    fields.get? "diagnostics" = some (.array (report.diagnostics.map Diagnostic.json))

variable {libs : Libraries} {s : Surroundings} {request : CheckRequest} {report : CheckReport}

lemma verdict_exitCode
    (herrors : report.errorCount = (report.diagnostics.filter fun d => d.severity = .error).length)
    (hwarnings : report.warningCount =
      (report.diagnostics.filter fun d => d.severity = .warn).length)
    (maxWarnings : Int) :
    Verdict maxWarnings report.diagnostics (exitCode maxWarnings report) := by
  have hsome : report.errorCount ≠ 0 ↔ ∃ d ∈ report.diagnostics, d.severity = .error := by
    rw [herrors, ne_eq, Int.natCast_eq_zero, List.length_eq_zero_iff, List.filter_eq_nil_iff]
    simp
  have hone : exitCode maxWarnings report = 1 ↔ Fails maxWarnings report.diagnostics := by
    rw [Fails, ← hsome, ← hwarnings, exitCode]
    by_cases hnone : report.errorCount = 0
    · simp [hnone]
    · simp [hnone]
  refine ⟨hone, ?_⟩
  -- there is no third code
  rw [← hone]
  rcases exitCode_eq maxWarnings report with hcode | hcode
  · simp [hcode]
  · simp [hcode]

section Reports

variable (hparser : libs.parser.IsSound)

include hparser

/-- What a check leaves agrees with the report that it finds. -/
lemma Finds.concludes (h : Finds libs s request report) {r : RunResult}
    (hcode : r.code = exitCode request.maxWarnings report)
    (hstdout : r.stdout = reportText request.json report) : Concludes request report r := by
  obtain ⟨cfg, registry, memory, hload, hrun⟩ := h
  obtain ⟨cf, hcf, hcfg, hmemory⟩ := exists_resolved_of_load libs hload
  have hcounted := Check.counted_of_outcome_run hparser hcfg hcf hmemory hrun
  constructor
  case verdict =>
    rw [hcode]
    exact verdict_exitCode hcounted.errors hcounted.warnings _
  case text =>
    intro hjson
    rw [hstdout, hjson]
    have horder := Check.pairwise_diagnostics hparser hcfg hcf hmemory hrun
    exact CheckReport.shows_text (CheckReport.inOrder_of_increasing horder) hcounted
  case document =>
    intro hjson
    rw [hstdout, hjson, ← hcounted.errors, ← hcounted.warnings]
    exact ⟨_, rfl, rfl, rfl, rfl⟩

variable {args : List String}

lemma Finds.exists_run (hargs : Invocation.ofArguments args = .ok (.check request))
    (h : Finds libs s request report) :
    ∃ r, run libs s args = .ok r ∧ Concludes request report r := by
  have hcheck : (check libs s request).outcome =
      .ok (exitCode request.maxWarnings report, reportText request.json report) := by
    obtain ⟨cfg, registry, memory, hload, hrun⟩ := h
    exact outcome_check_eq_ok_iff.mpr ⟨cfg, registry, report, memory, hload, hrun, rfl, rfl⟩
  rw [run_of_check hargs, hcheck]
  exact ⟨_, rfl, h.concludes hparser rfl rfl⟩

/-- A check that ends without a line for the user has a report. -/
lemma exists_finds_of_run (hargs : Invocation.ofArguments args = .ok (.check request))
    {r : RunResult} (h : run libs s args = .ok r) (hcode : r.code ≠ 2) :
    ∃ report, Finds libs s request report ∧ Concludes request report r := by
  rw [run_of_check hargs] at h
  cases hcheck : (check libs s request).outcome with
  | ok result =>
    obtain ⟨cfg, registry, report, memory, hload, hrun, hexit, houtput⟩ :=
      outcome_check_eq_ok_iff.mp hcheck
    rw [hcheck] at h
    obtain rfl := Except.ok.inj h
    have hfinds : Finds libs s request report := ⟨cfg, registry, memory, hload, hrun⟩
    exact ⟨report, hfinds, hfinds.concludes hparser hexit houtput⟩
  | error err =>
    rw [hcheck] at h
    cases err with
    | user message =>
      obtain rfl := Except.ok.inj h
      exact absurd rfl hcode
    | breakdown b => cases h

/-- The form of a report decides nothing about how a check ends. -/
lemma map_code_run {args' : List String} {json : Bool}
    (hargs : Invocation.ofArguments args = .ok (.check request))
    (hargs' : Invocation.ofArguments args' = .ok (.check { request with json })) :
    (run libs s args').map RunResult.code = (run libs s args).map RunResult.code := by
  rw [run_of_check hargs, run_of_check hargs']
  cases hcheck : (check libs s request).outcome with
  | ok result =>
    obtain ⟨report, -, hforms⟩ := exists_report_of_check hparser hcheck
    rw [hforms json]
    rfl
  | error err =>
    -- what goes wrong goes wrong before the report is written
    have hfails := outcome_check_eq_error_iff.mp hcheck
    have hsame : (check libs s { request with json }).outcome = .error err :=
      outcome_check_eq_error_iff.mpr hfails
    rw [hsame]
    cases err with
    | user message => rfl
    | breakdown b => rfl

end Reports

/-- With a configuration that was resolved, a report fails a check exactly if it has an error or
more warnings than are allowed, and its text shows it. A check from the command line that finds a
report ends with the verdict on it and the report in the form that is asked for, and one that ends
without a line for the user has found a report. Asking for another form changes no exit code. -/
theorem check_concludes (libs : Libraries) (hparser : libs.parser.IsSound) :
    (∀ (cf : ConfigFile) (overrides : Overrides) (source : Option String) (cfg : LintConfig),
      (Config.build .builtIn .builtIn cf overrides source).1 = .ok cfg →
      ∀ (tree : FileTree) (root : Path) (targets : List Path) (memory : Memory libs.parser)
        (report : CheckReport) (memory' : Memory libs.parser),
        (Check.run libs tree root cfg targets memory).outcome = .ok (report, memory') →
        (∀ maxWarnings, Verdict maxWarnings report.diagnostics (exitCode maxWarnings report)) ∧
        (cf.HasKnownSeverities → memory.IsTrue → report.Shows report.text)) ∧
    ∀ (s : Surroundings) (args : List String) (request : CheckRequest),
      Invocation.ofArguments args = .ok (.check request) →
      (∀ report, Finds libs s request report →
        ∃ r, run libs s args = .ok r ∧ Concludes request report r) ∧
      (∀ r, run libs s args = .ok r → r.code ≠ 2 →
        ∃ report, Finds libs s request report ∧ Concludes request report r) ∧
      ∀ args' json, Invocation.ofArguments args' = .ok (.check { request with json }) →
        (run libs s args').map RunResult.code = (run libs s args).map RunResult.code := by
  constructor
  · intro cf overrides source cfg hbuild tree root targets memory report memory' hrun
    obtain ⟨herrors, hwarnings⟩ := Check.counts_of_outcome_run hrun
    refine ⟨verdict_exitCode herrors hwarnings, fun hcf hmemory => ?_⟩
    have hcfg := Config.resolved_of_build hbuild
    have horder := Check.pairwise_diagnostics hparser hcfg hcf hmemory hrun
    exact CheckReport.shows_text (CheckReport.inOrder_of_increasing horder)
      (Check.counted_of_outcome_run hparser hcfg hcf hmemory hrun)
  · intro s args request hargs
    refine ⟨fun report hfinds => hfinds.exists_run hparser hargs, ?_, ?_⟩
    · exact fun r hr hcode => exists_finds_of_run hparser hargs hr hcode
    · exact fun args' json hargs' => map_code_run hparser hargs hargs'

theorem check_concludes_sample :
    ∃ report r r',
      (∃ memory : Memory Lexer.library, memory.IsTrue ∧ ∃ memory',
        (Check.run .included Check.unorderedTree Check.sampleRoot Check.defaultConfig []
          memory).outcome = .ok (report, memory')) ∧
      Verdict 2 report.diagnostics (exitCode 2 report) ∧ report.Shows report.text ∧
      run .included sampleSurroundings ["check"] = .ok r ∧ Concludes {} report r ∧
      run .included sampleSurroundings ["check", "--format", "json"] = .ok r' ∧
      Concludes { json := true } report r' ∧ r'.code = r.code := by
  obtain ⟨hreports, hchecks⟩ := check_concludes .included Lexer.isSound_library
  obtain ⟨hmemory, report, memory', hrun⟩ := exists_outcome_run_sample
  have hbuild : (Config.build .builtIn .builtIn {} {} none).1 = .ok Check.defaultConfig := by rfl
  obtain ⟨hverdict, hshows⟩ := hreports _ _ _ _ hbuild _ _ _ _ _ _ hrun
  have hjson : Invocation.ofArguments ["check", "--format", "json"] =
      .ok (.check { json := true }) := by
    rfl
  have hfinds : Finds .included sampleSurroundings {} report := ⟨_, _, memory', loaded_sample, hrun⟩
  obtain ⟨hends, -, hforms⟩ := hchecks sampleSurroundings _ _ ofArguments_check
  obtain ⟨r, hr, hconcludes⟩ := hends report hfinds
  obtain ⟨r', hr', hconcludes'⟩ := (hchecks sampleSurroundings _ _ hjson).1 report hfinds
  have hcode := hforms _ true hjson
  rw [hr, hr'] at hcode
  exact ⟨report, r, r', ⟨_, hmemory, memory', hrun⟩, hverdict 2, hshows nofun hmemory, hr,
    hconcludes,
    hr', hconcludes', Except.ok.inj hcode⟩

end EntryLint.Command
