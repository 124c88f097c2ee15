import EntryLint.Command.Run
import EntryLint.Proofs.Check.Run
import EntryLint.Proofs.Config.File
import Mathlib.Data.List.SplitBy

/-!
# The order of diagnostics

Files, imports and rules are each taken in order, so a run finds diagnostics in the order in which a
text shows them: by file, line, column and rule (`pairwise_diagnostics`). Sorting them for the text
changes nothing, and both forms of a report list the same diagnostics (`inOrder_run_check`).
-/

namespace EntryLint

/-! ## The order of a text -/

namespace Diagnostic

variable {a b : Diagnostic}

lemma before_iff : a.before b = true ↔
    a.file < b.file ∨ a.file = b.file ∧ (a.span.StartsBefore b.span ∨
      a.span.line = b.span.line ∧ a.span.column = b.span.column ∧ a.ruleId < b.ruleId) := by
  rw [before, Span.StartsBefore]
  by_cases hfile : a.file = b.file
  · rw [if_neg (not_not_intro hfile)]
    by_cases hline : a.span.line = b.span.line
    · rw [if_neg (not_not_intro hline)]
      by_cases hcolumn : a.span.column = b.span.column
      · simp [hfile, hline, hcolumn]
      · simp [hfile, hline, hcolumn]
    · simp [hfile, hline]
  · simp [hfile]

lemma before_asymm (h : a.before b = true) : b.before a = false := by
  rw [← Bool.not_eq_true]
  intro h'
  rw [before_iff, Span.StartsBefore] at h h'
  rcases h with hlt | ⟨hfile, h⟩
  · rcases h' with hlt' | ⟨hfile', -⟩
    · exact String.lt_asymm hlt hlt'
    · exact String.lt_irrefl _ (hfile' ▸ hlt)
  · rcases h' with hlt' | ⟨-, h'⟩
    · exact String.lt_irrefl _ (hfile ▸ hlt')
    · rcases h with hstart | ⟨hline, hcolumn, hlt⟩
      · rcases h' with hstart' | ⟨hline', hcolumn', -⟩
        · omega
        · omega
      · rcases h' with hstart' | ⟨-, -, hlt'⟩
        · omega
        · exact String.lt_asymm hlt hlt'

/-- Sorting changes nothing where everything is in order. -/
lemma sorted_eq_self {ds : List Diagnostic} (h : ds.Pairwise fun a b => a.before b = true) :
    sorted ds = ds := by
  apply List.mergeSort_of_pairwise
  refine h.imp ?_
  intro a b hab
  rw [before_asymm hab]
  rfl

end Diagnostic

namespace Check

variable {libs : Libraries} {parser : ParserLibrary} {tree : FileTree} {root : Path}
  {policy : PathPolicy} {cf : ConfigFile} {cfg : LintConfig} {rules : List BoundRule}
  {files : List String} {targets : List Path} {report : CheckReport}
  {result : String → FileResult} {memory memory' : Memory libs.parser}

/-- The diagnostics of an import are in the order of their rules. -/
lemma pairwise_diagnosticsOf (hnames : rules.Pairwise fun a b => a.rule.name < b.rule.name)
    (file : String) (source : ImportSource) :
    (diagnosticsOf policy rules file source).Pairwise fun a b => a.before b = true := by
  rw [diagnosticsOf, List.pairwise_filterMap]
  refine hnames.imp ?_
  intro b₁ b₂ hlt d₁ hd₁ d₂ hd₂
  obtain ⟨hit₁, -, rfl⟩ := Option.map_eq_some_iff.mp hd₁
  obtain ⟨hit₂, -, rfl⟩ := Option.map_eq_some_iff.mp hd₂
  exact Diagnostic.before_iff.mpr (.inr ⟨rfl, .inr ⟨rfl, rfl, hlt⟩⟩)

/-- The diagnostics of a file are in the order of its imports. -/
lemma Judged.pairwise (hparser : parser.IsSound) (hrules : Reportable rules)
    (hnames : rules.Pairwise fun a b => a.rule.name < b.rule.name) {f : String}
    {ds : List Diagnostic} (h : Judged parser tree root policy rules f (.ok ds)) :
    ds.Pairwise fun a b => a.before b = true := by
  cases h with
  | @text s _ holds yields =>
    obtain ⟨sources, hsources, hyields⟩ := exists_yields_lintText hparser hrules policy f
      (suffixOf (root.under (Path.ofText f))) (withLineFeeds s)
    obtain rfl := yields.unique hyields
    rw [List.pairwise_flatMap]
    refine ⟨fun source _ => pairwise_diagnosticsOf hnames f source, hsources.imp ?_⟩
    -- of two imports the first starts earlier, whatever the rules say about them
    intro s₁ s₂ hspans d₁ hd₁ d₂ hd₂
    obtain ⟨hfile₁, hspan₁, -⟩ := mem_diagnosticsOf hd₁
    obtain ⟨hfile₂, hspan₂, -⟩ := mem_diagnosticsOf hd₂
    rw [Diagnostic.before_iff, hfile₁, hfile₂, hspan₁, hspan₂]
    exact .inr ⟨rfl, .inl hspans⟩

/-- The diagnostics of a report are in the order of its files. -/
lemma pairwise_reportBy (hparser : parser.IsSound) (hrules : Reportable rules)
    (hnames : rules.Pairwise fun a b => a.rule.name < b.rule.name)
    (hfiles : files.Pairwise (· < ·))
    (h : ∀ f, Judged parser tree root policy rules f (result f)) :
    (reportBy root cfg files result).diagnostics.Pairwise fun a b => a.before b = true := by
  rw [diagnostics_reportBy, List.pairwise_flatMap]
  constructor
  · intro f _
    have hjudged := h f
    cases hresult : result f with
    | error reason => exact List.Pairwise.nil
    | ok ds =>
      rw [hresult] at hjudged
      exact hjudged.pairwise hparser hrules hnames
  · refine hfiles.imp ?_
    intro f₁ f₂ hlt d₁ hd₁ d₂ hd₂
    rw [Diagnostic.before_iff, (forall_mem_of_judged hparser hrules (h f₁) d₁ hd₁).1,
      (forall_mem_of_judged hparser hrules (h f₂) d₂ hd₂).1]
    exact .inl hlt

/-! ## Runs -/

lemma increasing_of_discovers {patterns : PatternLibrary}
    (h : Discovers patterns tree root cfg targets files) : files.Pairwise (· < ·) := by
  obtain ⟨d, -, hfiles⟩ := h
  rw [Discovery.files, Traced.outcome_bind_eq_ok_iff] at hfiles
  obtain ⟨found, -, hsorted⟩ := hfiles
  rw [← Except.ok.inj hsorted]
  exact Discovery.pairwise_sortedOnce found.1

/-- A run reports when all patterns can be read and all targets are there. -/
lemma exists_run (hparser : libs.parser.IsSound) (hcfg : Config.Resolved cf cfg)
    (hcf : cf.HasKnownSeverities) (hmemory : memory.IsTrue) (hp : IsProject tree root)
    (hpatterns : HasPatterns libs.patterns tree root cfg)
    (htargets : ∀ t ∈ targets, IsTarget tree root t) :
    ∃ report memory', (run libs tree root cfg targets memory).outcome = .ok (report, memory') := by
  obtain ⟨files, hfiles⟩ := exists_discovers hp hpatterns htargets
  obtain ⟨rules, hrules, hseverity⟩ := exists_bindRules_of_resolved hcfg
  choose result hresult _ using exists_judged hparser (hseverity hcf) tree root cfg.policy
  obtain ⟨memory', -, hrun⟩ := outcome_run hmemory hrules hfiles hresult
  exact ⟨_, memory', hrun⟩

/-- A run that reports has found its files, and put together what it found in some. -/
lemma exists_discovers_of_run
    (h : (run libs tree root cfg targets memory).outcome = .ok (report, memory')) :
    ∃ files results, Discovers libs.patterns tree root cfg targets files ∧
      report = reportOf root cfg results := by
  rw [run] at h
  generalize bindRules .builtIn cfg memory.registry = bound at h
  obtain ⟨bound, registry⟩ := bound
  -- rules, discovery, files and results are found in this order
  simp only [Traced.outcome_bind_eq_ok_iff] at h
  obtain ⟨rules, -, d, hd, files, hfiles, -, -, ⟨results, compiled⟩, -, hreport⟩ := h
  rw [Traced.outcome_mapError_eq_ok_iff] at hd hfiles
  exact ⟨files, results, ⟨d, hd, hfiles⟩, (Prod.mk.inj (Except.ok.inj hreport)).1.symm⟩

/-- A run that reports has put together the results of its files, by rules in the order of their
names. -/
lemma exists_reportBy_of_run (hparser : libs.parser.IsSound) (hcfg : Config.Resolved cf cfg)
    (hcf : cf.HasKnownSeverities) (hmemory : memory.IsTrue)
    (h : (run libs tree root cfg targets memory).outcome = .ok (report, memory')) :
    ∃ rules files result, Reportable rules ∧
      rules.Pairwise (fun a b => a.rule.name < b.rule.name) ∧ files.Pairwise (· < ·) ∧
      (∀ f, Judged libs.parser tree root cfg.policy rules f (result f)) ∧
      report = reportBy root cfg files result := by
  obtain ⟨rules, hrules, hseverity⟩ := exists_bindRules_of_resolved hcfg
  obtain ⟨files, -, hfiles, -⟩ := exists_discovers_of_run h
  choose result hresult hjudged using
    exists_judged hparser (hseverity hcf) tree root cfg.policy
  obtain ⟨memory'', -, hrun⟩ := outcome_run hmemory hrules hfiles hresult
  refine ⟨rules, files, result, hseverity hcf, ?_, increasing_of_discovers hfiles, hjudged, ?_⟩
  · exact pairwise_bindRules (Registry.sound_builtIn _) hcfg.nodup_names hrules
  · exact (Prod.mk.inj (Except.ok.inj (h.symm.trans hrun))).1

lemma pairwise_diagnostics (hparser : libs.parser.IsSound) (hcfg : Config.Resolved cf cfg)
    (hcf : cf.HasKnownSeverities) (hmemory : memory.IsTrue)
    (h : (run libs tree root cfg targets memory).outcome = .ok (report, memory')) :
    report.diagnostics.Pairwise fun a b => a.before b = true := by
  obtain ⟨rules, files, result, hrules, hnames, hfiles, hjudged, rfl⟩ :=
    exists_reportBy_of_run hparser hcfg hcf hmemory h
  exact pairwise_reportBy hparser hrules hnames hfiles hjudged

end Check

/-! ## Both forms of a report -/

/-- The line of a diagnostic: its place, its severity, its message and its rule. -/
def Diagnostic.shown (d : Diagnostic) : String :=
  String.join ["  ", toString d.span.line, ":", toString d.span.column, "  ", d.severity.name, "  ",
    d.message, "  ", d.ruleId]

lemma Diagnostic.line_eq_shown (d : Diagnostic) : d.line = d.shown := by
  simp [line, shown, String.join]

/-- The diagnostics of a report are in order, and both of its forms list them in this order, the
text under the name of each file and the document one after the other. -/
structure CheckReport.InOrder (report : CheckReport) : Prop where
  increasing : report.diagnostics.Pairwise fun a b => a.before b = true
  sorted : Diagnostic.sorted report.diagnostics = report.diagnostics
  text : ∃ groups : List (List Diagnostic), groups.flatten = report.diagnostics ∧
    (∀ g ∈ groups, g ≠ [] ∧ ∃ f, ∀ d ∈ g, d.file = f) ∧
    report.diagnosticLines = groups.flatMap fun g =>
      (g.head?.map Diagnostic.file).toList ++ g.map Diagnostic.shown ++ [""]
  json : ∃ fields : NameMap JsonDoc, report.json = .object fields ∧
    fields.get? "diagnostics" = some (.array (report.diagnostics.map Diagnostic.json))

/-- Diagnostics that are split where the file changes are about one file each. -/
lemma Diagnostic.exists_file_of_mem_splitBy {ds g : List Diagnostic}
    (h : g ∈ ds.splitBy fun a b => a.file = b.file) : ∃ f, ∀ d ∈ g, d.file = f := by
  have hchain : g.IsChain fun a b => a.file = b.file :=
    (List.isChain_of_mem_splitBy h).imp fun _ _ hab => of_decide_eq_true hab
  have htrans : IsTrans Diagnostic fun a b => a.file = b.file := ⟨fun _ _ _ => Eq.trans⟩
  cases g with
  | nil => exact ⟨"", fun d hd => absurd hd List.not_mem_nil⟩
  | cons first g =>
    have hsame := (List.pairwise_cons.mp hchain.pairwise).1
    refine ⟨first.file, List.forall_mem_cons.mpr ⟨rfl, ?_⟩⟩
    exact fun d hd => (hsame d hd).symm

lemma CheckReport.inOrder_of_increasing {report : CheckReport}
    (h : report.diagnostics.Pairwise fun a b => a.before b = true) : report.InOrder where
  increasing := h
  sorted := Diagnostic.sorted_eq_self h
  text := by
    refine ⟨_, List.flatten_splitBy (fun a b => a.file = b.file) report.diagnostics, ?_, ?_⟩
    · exact fun g hg => ⟨List.ne_nil_of_mem_splitBy hg, Diagnostic.exists_file_of_mem_splitBy hg⟩
    · rw [diagnosticLines, Diagnostic.sorted_eq_self h]
      apply List.flatMap_congr
      intro g _
      rw [fileLines, List.map_congr_left fun d _ => Diagnostic.line_eq_shown d]
  json := ⟨_, rfl, rfl⟩

/-! ## Checks from the command line -/

namespace Config

variable {yaml : YamlReader} {registry registry' : Registry} {cfg : LintConfig}
  {overrides : Overrides}

lemma outcome_buildLogged_eq_ok_iff {cf : ConfigFile} {source : Option String} :
    (buildLogged registry cf overrides source).outcome = .ok (cfg, registry') ↔
      build .builtIn registry cf overrides source = (.ok cfg, registry') := by
  rw [buildLogged]
  generalize build .builtIn registry cf overrides source = built
  obtain ⟨built, found⟩ := built
  cases built with
  | error e =>
    constructor
    · intro h
      cases h
    · intro h
      cases (Prod.mk.inj h).1
  | ok cfg' =>
    show Except.ok (cfg', found) = _ ↔ _
    rw [Except.ok.injEq, Prod.mk.injEq, Prod.mk.injEq, Except.ok.injEq]

/-- A configuration that was loaded was resolved from a file that was read, or from the defaults.
Either has known severities only. -/
lemma exists_build_of_load {tree : FileTree} {root : Path} {file : Option Path}
    (h : (load yaml registry tree root file overrides).outcome = .ok (cfg, registry')) :
    ∃ cf source, cf.HasKnownSeverities ∧
      build .builtIn registry cf overrides source = (.ok cfg, registry') := by
  have hloadFile : ∀ path,
      (loadFile yaml registry tree path overrides).outcome = .ok (cfg, registry') →
      ∃ cf source, cf.HasKnownSeverities ∧
        build .builtIn registry cf overrides source = (.ok cfg, registry') := by
    intro path hload
    simp only [loadFile, Traced.outcome_bind_eq_ok_iff] at hload
    obtain ⟨-, -, raw, -, cf, hparse, hbuild⟩ := hload
    exact ⟨cf, _, ConfigFile.hasKnownSeverities_of_parse hparse,
      outcome_buildLogged_eq_ok_iff.mp hbuild⟩
  cases file with
  | some named =>
    rw [load] at h
    split at h
    · exact hloadFile _ h
    · cases h
  | none =>
    rw [load] at h
    split at h
    · exact hloadFile _ h
    · rw [Traced.outcome_bind_eq_ok_iff] at h
      obtain ⟨-, -, hbuild⟩ := h
      exact ⟨{}, none, nofun, outcome_buildLogged_eq_ok_iff.mp hbuild⟩

end Config

namespace Command

variable {libs : Libraries} {s : Surroundings} {request : CheckRequest} {code : Nat}
  {output : String}

/-- A check loads a configuration, runs and writes the report. -/
lemma outcome_check_eq_ok_iff : (check libs s request).outcome = .ok (code, output) ↔
    ∃ cfg registry report memory,
      (Config.load libs.yaml .builtIn s.tree (request.projectRoot s.workingDirectory) request.config
        { rootAlias := request.rootAlias
          gitignore := if request.noGitignore then some false else none }).outcome =
        .ok (cfg, registry) ∧
      (Check.run libs s.tree (request.projectRoot s.workingDirectory) cfg request.targets
        { registry }).outcome = .ok (report, memory) ∧
      code = exitCode request.maxWarnings report ∧ output = reportText request.json report := by
  simp only [check, Traced.outcome_bind_eq_ok_iff, Traced.outcome_mapError_eq_ok_iff]
  constructor
  · rintro ⟨⟨cfg, registry⟩, hload, ⟨report, memory⟩, hrun, hresult⟩
    obtain ⟨hcode, houtput⟩ := Prod.mk.inj (Except.ok.inj hresult)
    exact ⟨cfg, registry, report, memory, hload, hrun, hcode.symm, houtput.symm⟩
  · rintro ⟨cfg, registry, report, memory, hload, hrun, rfl, rfl⟩
    exact ⟨(cfg, registry), hload, (report, memory), hrun, rfl⟩

/-- What a check has loaded was resolved, and leaves a true memory. -/
lemma exists_resolved_of_load (libs : Libraries) {tree : FileTree} {root : Path}
    {file : Option Path} {overrides : Overrides} {cfg : LintConfig} {registry : Registry}
    (h : (Config.load libs.yaml .builtIn tree root file overrides).outcome = .ok (cfg, registry)) :
    ∃ cf, cf.HasKnownSeverities ∧ Config.Resolved cf cfg ∧
      Memory.IsTrue ({ registry } : Memory libs.parser) := by
  obtain ⟨cf, source, hcf, hbuild⟩ := Config.exists_build_of_load h
  have hanswers := Config.answersAs_build .builtIn .builtIn cf overrides source
  rw [hbuild] at hanswers
  exact ⟨cf, hcf, Config.resolved_of_build (congrArg Prod.fst hbuild), hanswers,
    QueryCache.isTrue_nil⟩

/-- A check gives the same report in either form. -/
lemma exists_report_of_check (hparser : libs.parser.IsSound)
    (h : (check libs s request).outcome = .ok (code, output)) :
    ∃ report : CheckReport, report.InOrder ∧
      ∀ json, (check libs s { request with json }).outcome =
        .ok (code, reportText json report) := by
  obtain ⟨cfg, registry, report, memory, hload, hrun, hcode, -⟩ := outcome_check_eq_ok_iff.mp h
  obtain ⟨cf, hcf, hcfg, hmemory⟩ := exists_resolved_of_load libs hload
  refine ⟨report, CheckReport.inOrder_of_increasing
    (Check.pairwise_diagnostics hparser hcfg hcf hmemory hrun), fun json => ?_⟩
  exact outcome_check_eq_ok_iff.mpr ⟨cfg, registry, report, memory, hload, hrun, hcode, rfl⟩

end Command

namespace Check

/-- A project at `/p` with three broken rules in two files, the later file first. -/
def unorderedTree : FileTree :=
  .dir [("p", .dir [("b.ts", .file "import x from '@/a/b'; import y from '@/c/d';".toUTF8.toList),
    ("a.ts", .file "\nimport z from '@/e/f';".toUTF8.toList)])]

/-- The configuration of a project without a file for it. -/
def defaultConfig : LintConfig :=
  { policy := {}, lintExtensions := Config.lintExtensionsOf {}, exclude := [], gitignore := true
    rules := [(EntryImports.ruleName, .error)], source := none }

lemma isProject_unorderedTree : IsProject unorderedTree sampleRoot :=
  ⟨by decide +kernel, by decide, by decide +kernel⟩

lemma readable_unorderedTree : Ignore.Readable IgnorePattern.library unorderedTree sampleRoot :=
  Ignore.readable_of_everyFile (by decide +kernel)

end Check

end EntryLint
