import EntryLint.Included
import EntryLint.Proofs.Check.Report
import EntryLint.Proofs.Text.Lower

/-!
# Runs over a project

The main result is `run_reports`: with a configuration that was resolved, a check of targets that
are there gives a report as `IsReport` describes it, on the files that are found. What the report
says about a file depends neither on what other files hold nor on what earlier runs looked up and
compiled: `AgreesExcept` relates the reports of two runs between which one file that is searched for
imports was written to, and both may start from any true memory (`Memory.IsTrue`).
-/

namespace EntryLint

/-- A memory holds what would be found and compiled again. -/
structure Memory.IsTrue {parser : ParserLibrary} (memory : Memory parser) : Prop where
  registry : memory.registry.AnswersAs .builtIn .builtIn
  compiled : QueryCache.IsTrue memory.compiled

/-- The memory that a process starts with. -/
lemma Memory.isTrue_start (parser : ParserLibrary) :
    Memory.IsTrue ({ registry := .builtIn } : Memory parser) :=
  ⟨fun _ => rfl, QueryCache.isTrue_nil⟩

namespace Check

/-- A configuration searches files with the extension of a path. -/
def Searches (cfg : LintConfig) (rel : String) : Prop :=
  Text.lower (pathExtension rel) ∈ cfg.lintExtensions.map Text.lower

instance (cfg : LintConfig) (rel : String) : Decidable (Searches cfg rel) :=
  inferInstanceAs (Decidable (_ ∈ _))

/-- The files that the targets of a run stand for. -/
def Discovers (patterns : PatternLibrary) (tree : FileTree) (root : Path) (cfg : LintConfig)
    (targets : List Path) (files : List String) : Prop :=
  ∃ d, (Discovery.ofConfig patterns tree root cfg).outcome = .ok d ∧
    (d.files targets).outcome = .ok files

section Run

variable {libs : Libraries} {patterns : PatternLibrary} {cf : ConfigFile} {cfg : LintConfig}
  {tree : FileTree} {root : Path} {targets : List Path} {files : List String}

/-! ## Runs -/

lemma exists_discovers (hp : IsProject tree root) (hpatterns : HasPatterns patterns tree root cfg)
    (htargets : ∀ t ∈ targets, IsTarget tree root t) :
    ∃ files, Discovers patterns tree root cfg targets files := by
  obtain ⟨d, hd, hchooses⟩ := Discovery.exists_ofConfig hpatterns
  have hj := hchooses.judges hpatterns
  have hknows := hchooses.knows
  obtain rfl := hchooses.tree_eq
  obtain rfl := hchooses.root_eq
  obtain ⟨files, hfiles, -⟩ := Discovery.exists_files hknows hp hj htargets
  exact ⟨files, d, hd, hfiles⟩

lemma namesFile_of_discovers (hp : IsProject tree root)
    (h : Discovers patterns tree root cfg targets files) :
    ∀ f ∈ files, Discovery.NamesFile tree root f := by
  obtain ⟨d, hd, hfound⟩ := h
  have hchooses := Discovery.chooses_of_ofConfig hd
  have hknows := hchooses.knows
  obtain rfl := hchooses.tree_eq
  obtain rfl := hchooses.root_eq
  exact fun f hf => Discovery.namesFile_of_mem_files hknows hp hfound hf

/-- With its rules and files found, a run cannot fail: what goes wrong with a file is reported. -/
lemma outcome_run {rules : List BoundRule} {result : String → FileResult}
    {memory : Memory libs.parser} (hmemory : memory.IsTrue)
    (hrules : (bindRules .builtIn cfg .builtIn).1 = .ok rules)
    (hfiles : Discovers libs.patterns tree root cfg targets files)
    (h : ∀ f, Scan.Yields (checkFile libs.parser tree root cfg.policy rules f) (result f)) :
    ∃ memory' : Memory libs.parser, memory'.IsTrue ∧
      (run libs tree root cfg targets memory).outcome =
        .ok (reportBy root cfg files result, memory') := by
  obtain ⟨d, hd, hfound⟩ := hfiles
  have hbound : (bindRules .builtIn cfg memory.registry).1 = .ok rules := by
    rw [bindRules_congr hmemory.registry, hrules]
  have hanswers := (answersAs_bindRules .builtIn cfg memory.registry).trans hmemory.registry
  obtain ⟨compiled, hchecked, hcompiled⟩ :=
    yields_checkFiles files h memory.compiled hmemory.compiled
  rw [run]
  generalize bindRules .builtIn cfg memory.registry = bound at hbound hanswers ⊢
  obtain ⟨bound, registry⟩ := bound
  obtain rfl : bound = .ok rules := hbound
  refine ⟨{ registry, compiled }, ⟨hanswers, hcompiled⟩, ?_⟩
  show (Traced.ofExcept (.ok rules) >>= _).outcome = _
  rw [Traced.ofExcept_ok_bind, Traced.outcome_bind_ok (Traced.outcome_mapError_eq_ok_iff.mpr hd),
    Traced.outcome_bind_ok (Traced.outcome_mapError_eq_ok_iff.mpr hfound),
    Traced.outcome_bind_ok (x := Logged.debug _) rfl,
    Traced.outcome_bind_ok (Traced.outcome_mapError_eq_ok_iff.mpr hchecked)]
  rfl

/-! ## Writing to a file that is searched -/

variable {names : List String} {old bytes : List UInt8}

/-- A file without an extension is not searched. -/
lemma pathExtension_ne_of_searches (hcfg : Config.Resolved cf cfg) {rel : String}
    (h : Searches cfg rel) : pathExtension rel ≠ "" := by
  intro hext
  rw [Searches, hext, List.mem_map] at h
  obtain ⟨e, he, hlower⟩ := h
  -- an extension is a dot with something after it
  have hproper := hcfg.extensions e he
  rw [Text.lower_eq_empty_iff.mpr rfl, Text.lower_eq_empty_iff] at hlower
  rw [hlower] at hproper
  cases hproper

lemma ne_concat_of_searches (hcfg : Config.Resolved cf cfg) (hnames : ∀ n ∈ names, IsFileName n)
    (h : Searches cfg (Text.join "/" names)) {last : String} (hlast : splitSuffix last = "")
    (dir : List String) : dir ++ [last] ≠ names := by
  rintro rfl
  apply pathExtension_ne_of_searches hcfg h
  rw [pathExtension, lastSegment_join (by simp) hnames, List.getLast?_concat]
  exact hlast

/-- No ignore file is searched, so writing to a file that is keeps them all. -/
lemma sameFiles_insert (hcfg : Config.Resolved cf cfg) (hnames : ∀ n ∈ names, IsFileName n)
    (h : Searches cfg (Text.join "/" names))
    (hfile : tree.descend (root.parts ++ names) = some (.file old)) (bytes : List UInt8) :
    Ignore.SameFiles tree (tree.insert (root.parts ++ names) (.file bytes)) root where
  excluded := by
    have hne : [".git", "info"] ++ ["exclude"] ≠ names :=
      ne_concat_of_searches hcfg hnames h (by decide) _
    symm
    apply FileTree.contents?_insert_of_ne hfile
    exact fun heq => hne (List.append_cancel_left heq)
  ignored := by
    intro dir _
    have hne : dir ++ [".gitignore"] ≠ names :=
      ne_concat_of_searches hcfg hnames h (by decide) _
    symm
    apply FileTree.contents?_insert_of_ne hfile
    rw [List.append_assoc]
    exact fun heq => hne (List.append_cancel_left heq)

/-- The same files are found after a file that is searched was written to. -/
lemma discovers_insert (hp : IsProject tree root)
    (hsame : Ignore.SameFiles tree (tree.insert (root.parts ++ names) (.file bytes)) root)
    (hfile : tree.descend (root.parts ++ names) = some (.file old))
    (hfiles : Discovers patterns tree root cfg targets files) :
    Discovers patterns (tree.insert (root.parts ++ names) (.file bytes)) root cfg
        targets files := by
  obtain ⟨d, hd, hfound⟩ := hfiles
  have hchooses := Discovery.chooses_of_ofConfig hd
  have hknows := hchooses.knows
  obtain rfl := hchooses.tree_eq
  obtain rfl := hchooses.root_eq
  have hroot := dots_not_mem_root hp
  -- neither the shape of the tree nor an ignore file has changed
  have hresembles := Discovery.resembles_of_sameFiles
    (FileTree.shape_insert hp.wellFormed hfile bytes).symm hsame hroot
  have hd' := Discovery.ofConfig_of_sameFiles hsame hroot hd
  exact ⟨_, hd', hresembles.outcome_files hp hknows (Discovery.chooses_of_ofConfig hd').knows
    hfound⟩

/-- A file gives what it gave before another file was written to. -/
lemma checkFile_insert (hp : IsProject tree root)
    (hfile : tree.descend (root.parts ++ names) = some (.file old)) (bytes : List UInt8)
    (parser : ParserLibrary) (policy : PathPolicy) (rules : List BoundRule) {f : String}
    (hf : Discovery.NamesFile tree root f) (hne : f ≠ Text.join "/" names) :
    checkFile parser tree root policy rules f =
      checkFile parser (tree.insert (root.parts ++ names) (.file bytes)) root policy rules f := by
  obtain ⟨names', bytes', hnames', hfile', rfl⟩ := hf
  have hparts : root.parts ++ names' ≠ root.parts ++ names := by
    intro heq
    rw [List.append_cancel_left heq] at hne
    exact hne rfl
  have hkept := FileTree.contents?_insert_of_ne hfile bytes hparts
  rw [FileTree.contents?_eq_some_iff.mpr hfile', FileTree.contents?_eq_some_iff] at hkept
  apply checkFile_congr
  · rw [find?_under_join hp hnames']
    exact hfile'
  · rw [find?_under_join hp hnames']
    exact hkept

end Run

/-! ## The report of a run -/

/-- A run with a configuration that was resolved reports on the files that its targets stand for,
which are found when all patterns can be read and all targets are there. It may start from any true
memory, and leaves one. After one file that is searched was written to, a later run, from whatever
true memory, says the same about all other files. -/
theorem run_reports (libs : Libraries) (hparser : libs.parser.IsSound) {cf : ConfigFile}
    {overrides : Overrides} {source : Option String} {cfg : LintConfig}
    (hbuild : (Config.build .builtIn .builtIn cf overrides source).1 = .ok cfg)
    (hcf : cf.HasKnownSeverities) {tree : FileTree} {root : Path} (hp : IsProject tree root)
    (targets : List Path) :
    (HasPatterns libs.patterns tree root cfg → (∀ t ∈ targets, IsTarget tree root t) →
      ∃ files, Discovers libs.patterns tree root cfg targets files) ∧
    ∀ files, Discovers libs.patterns tree root cfg targets files →
      ∃ rules report, (bindRules .builtIn cfg .builtIn).1 = .ok rules ∧
        IsReport libs.parser tree root cfg rules files report ∧
        (∀ memory : Memory libs.parser, memory.IsTrue → ∃ memory' : Memory libs.parser,
          memory'.IsTrue ∧ (run libs tree root cfg targets memory).outcome =
            .ok (report, memory')) ∧
        ∀ names old bytes, tree.descend (root.parts ++ names) = some (.file old) →
          Searches cfg (Text.join "/" names) →
          ∃ report', AgreesExcept (Text.join "/" names) report report' ∧
            ∀ memory : Memory libs.parser, memory.IsTrue → ∃ memory' : Memory libs.parser,
              memory'.IsTrue ∧
              (run libs (tree.insert (root.parts ++ names) (.file bytes)) root cfg targets
                memory).outcome = .ok (report', memory') := by
  have hcfg := Config.resolved_of_build hbuild
  refine ⟨exists_discovers hp, ?_⟩
  intro files hfiles
  obtain ⟨rules, hrules, hseverity⟩ := exists_bindRules_of_resolved hcfg
  have hreportable : Reportable rules := hseverity hcf
  have hnamed := namesFile_of_discovers hp hfiles
  have hoff : (∀ e ∈ cfg.rules, e.2 = .off) → rules = [] := fun hoff =>
    Except.ok.inj (hrules.symm.trans (bindRules_of_off .builtIn .builtIn hoff))
  -- every file has its result, in every tree
  choose result hresult hjudged using fun tree f =>
    exists_judged hparser hreportable tree root cfg.policy f
  refine ⟨rules, reportBy root cfg files (result tree), hrules,
    isReport_reportBy hparser hp hnamed hreportable hoff (hjudged tree),
    fun memory hmemory => outcome_run hmemory hrules hfiles (hresult tree), ?_⟩
  -- the second run has the same rules and files, and all files but one hold the same
  intro names old bytes hfile hsearches
  have hnames : ∀ n ∈ names, IsFileName n := fun n hn =>
    (hp.wellFormed.descend hfile).2 n (List.mem_append_right _ hn)
  have hsame := sameFiles_insert hcfg hnames hsearches hfile bytes
  have hfiles' := discovers_insert hp hsame hfile hfiles
  refine ⟨_, ?_, fun memory hmemory => outcome_run hmemory hrules hfiles' (hresult _)⟩
  refine agreesExcept_reportBy hparser hreportable (hjudged tree _) (hjudged _ _) ?_
  intro f hf hne
  have hcheck := hresult tree f
  rw [checkFile_insert hp hfile bytes libs.parser cfg.policy rules (hnamed f hf) hne] at hcheck
  exact hcheck.unique (hresult _ f)

/-- A project at `/p` with an ignore file, a text and a file that is no text. -/
def sampleTree : FileTree :=
  .dir [("p", .dir [(".gitignore", .file "*.log\n".toUTF8.toList),
    ("a.ts", .file "import x from '@/a/b'\n".toUTF8.toList), ("b.ts", .file [255])])]

/-- The root of the sample project. -/
def sampleRoot : Path := { anchor := "/", parts := ["p"] }

/-- A configuration file that excludes a directory and lowers the severity of a rule. -/
def sampleFile : ConfigFile :=
  { exclude := ["dist/"], rules := [(EntryImports.ruleName, .warn)] }

/-- What the sample file resolves to. -/
def sampleConfig : LintConfig :=
  { policy := { rootAlias := "@", extensions := sampleFile.extensions }
    lintExtensions := Config.lintExtensionsOf sampleFile
    exclude := ["dist/"], gitignore := true, rules := sampleFile.rules, source := none }

lemma isProject_sampleTree : IsProject sampleTree sampleRoot :=
  ⟨by decide +kernel, by decide, by decide +kernel⟩

lemma hasPatterns_sampleTree :
    HasPatterns IgnorePattern.library sampleTree sampleRoot sampleConfig where
  exclude _ := ⟨_, by rfl⟩
  ignore _ := Ignore.readable_of_everyFile (by decide +kernel)

lemma build_sampleFile :
    (Config.build .builtIn .builtIn sampleFile {} none).1 = .ok sampleConfig := by
  rfl

theorem run_reports_sample :
    ∃ files rules report report',
      Discovers IgnorePattern.library sampleTree sampleRoot sampleConfig [] files ∧
      (bindRules .builtIn sampleConfig .builtIn).1 = .ok rules ∧
      IsReport Lexer.library sampleTree sampleRoot sampleConfig rules files report ∧
      AgreesExcept "b.ts" report report' ∧
      ∃ memory memory' : Memory Lexer.library,
        (run .included sampleTree sampleRoot sampleConfig []
          { registry := .builtIn }).outcome = .ok (report, memory) ∧
        (run .included (sampleTree.insert ["p", "b.ts"] (.file [])) sampleRoot sampleConfig []
          memory).outcome = .ok (report', memory') := by
  obtain ⟨hexists, hreports⟩ := run_reports .included Lexer.isSound_library
    build_sampleFile (by rintro e he; rw [List.mem_singleton.mp he]; exact .inr (.inl rfl))
    isProject_sampleTree []
  obtain ⟨files, hfiles⟩ := hexists hasPatterns_sampleTree (by simp)
  obtain ⟨rules, report, hrules, hreport, hrun, hwrite⟩ := hreports files hfiles
  obtain ⟨report', hagrees, hrun'⟩ := hwrite ["b.ts"] [255] [] rfl (by decide +kernel)
  obtain ⟨memory, hmemory, hfirst⟩ := hrun _ (Memory.isTrue_start _)
  obtain ⟨memory', -, hsecond⟩ := hrun' memory hmemory
  exact ⟨files, rules, report, report', hfiles, hrules, hreport, hagrees, memory, memory', hfirst,
    hsecond⟩

end Check

end EntryLint
