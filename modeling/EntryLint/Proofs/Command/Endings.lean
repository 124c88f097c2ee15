import EntryLint.Proofs.Check.Order
import EntryLint.Proofs.Config.Build

/-!
# How a check ends

A check from the command line ends with a report, or with a line about what the user can mend, or it
breaks off. `Breaks` lists what breaks it off: a configuration file that the library of documents
raises an exception on, or with an integer that is too long for a message; patterns to exclude by
that the library of patterns refuses; and ignore files with a line that it refuses, those below the
root only if a walk comes to an entry that they judge. The main result is `ends_iff_not_breaks`.
-/

namespace EntryLint

/-! ## Loading a configuration -/

namespace Config

/-- Reading a configuration file raises an exception. -/
inductive Raises (yaml : YamlReader) (tree : FileTree) (path : Path) : Raised → Prop
  /-- The file holds a text that the library does not only refuse. -/
  | document {text : String} {e : Raised}
      (holds : tree.find? path = some (.file text.toUTF8.data.toList))
      (raised : yaml (Check.withLineFeeds text) = .error (.raised e)) : Raises yaml tree path e
  /-- The message about the value in the file would quote an integer that is too long to be written.
  -/
  | value {raw : Value} (read : readFile yaml tree path = .ok raw) (overlong : raw.Overlong)
      (raised : ConfigFile.parse raw path.text = .error (.raised .tooLong)) :
      Raises yaml tree path .tooLong

/-- Where the configuration of a project is looked for. -/
def pathOf (root : Path) (file : Option Path) : Path :=
  match file with
  | some named => (root.under named).resolve
  | none => (root.child Tool.configName).resolve

/-- An error that the user can mend. -/
def Mendable (e : ConfigError) : Prop :=
  Command.RunError.ofConfig e = .user e.message

variable {yaml : YamlReader} {registry : Registry} {tree : FileTree} {root path : Path}
  {file : Option Path} {overrides : Overrides} {e : ConfigError}

lemma readFile_of_document {text : String} {r : Raised}
    (holds : tree.find? path = some (.file text.toUTF8.data.toList))
    (raised : yaml (Check.withLineFeeds text) = .error (.raised r)) :
    readFile yaml tree path = .error (.raised r) := by
  rw [Check.withLineFeeds] at raised
  simp only [readFile, FileTree.read_eq_ok_iff.mpr holds, Text.decode_eq_ok_iff.mpr rfl, raised]

lemma readFile_error (h : readFile yaml tree path = .error e) :
    (∃ r, e = .raised r ∧ Raises yaml tree path r) ∨ Mendable e := by
  unfold readFile at h
  cases hread : tree.read path with
  | error err =>
    simp only [hread] at h
    obtain rfl := Except.error.inj h
    exact .inr rfl
  | ok bytes =>
    cases hdecode : Text.decode bytes with
    | error err =>
      simp only [hread, hdecode] at h
      obtain rfl := Except.error.inj h
      exact .inr rfl
    | ok text =>
      simp only [hread, hdecode] at h
      rw [FileTree.read_eq_ok_iff, ← Text.decode_eq_ok_iff.mp hdecode] at hread
      -- malformed text is reported and an exception is not; then the root may be no mapping
      split at h
      · obtain rfl := Except.error.inj h
        exact .inr rfl
      · rename_i r hyaml
        obtain rfl := Except.error.inj h
        exact .inl ⟨r, rfl, .document hread hyaml⟩
      · split at h
        · cases h
        · split at h
          · cases h
          · obtain rfl := Except.error.inj h
            exact .inr rfl

/-- A value that is not read is the user's, or it cannot be quoted. -/
lemma parse_error {raw : Value} {origin : String} (h : ConfigFile.parse raw origin = .error e) :
    (e = .raised .tooLong ∧ raw.Overlong) ∨ Mendable e := by
  rcases ConfigFile.parse_cases raw origin with ⟨cf, hcf, -⟩ | ⟨r, hr⟩ | ⟨hraised, hlong⟩
  · cases h.symm.trans hcf
  · obtain rfl := Except.error.inj (h.symm.trans hr)
    exact .inr rfl
  · exact .inl ⟨Except.error.inj (h.symm.trans hraised), hlong⟩

/-- Every defect of a file is the user's: names that are not known are, and nothing else fails in
the built-in registry. -/
lemma mendable_of_firstDefect {cf : ConfigFile} {rootAlias origin : String}
    (h : FirstDefect registry cf rootAlias origin e) : Mendable e := by
  cases h with
  | text h =>
    cases h with
    | _ => rfl
  | preset _ _ => rfl
  | rule _ _ _ => rfl

lemma mendable_of_buildLogged {cf : ConfigFile} {source : Option String}
    (h : (buildLogged .builtIn cf overrides source).outcome = .error e) : Mendable e := by
  have hbuild : (build .builtIn (Registry.withPresets []) cf overrides source).1 = .error e := by
    rw [buildLogged] at h
    show (build .builtIn .builtIn cf overrides source).1 = .error e
    generalize build .builtIn .builtIn cf overrides source = built at h ⊢
    obtain ⟨built, registry⟩ := built
    cases built with
    | error e' =>
      obtain rfl : e' = e := Except.error.inj h
      rfl
    | ok cfg => cases h
  have hfirst := (build_eq_error_iff (Registry.complete_withPresets [])
    (Registry.remembers_withPresets []) (Registry.withPresets_spec []).2.2).mp hbuild
  exact mendable_of_firstDefect hfirst

lemma loadFile_error (h : (loadFile yaml .builtIn tree path overrides).outcome = .error e) :
    (∃ r, e = .raised r ∧ Raises yaml tree path r) ∨ Mendable e := by
  rw [loadFile, Traced.outcome_bind_ok (a := ()) rfl, Traced.outcome_bind_eq_error_iff] at h
  rcases h with hread | ⟨raw, hread, h⟩
  · exact readFile_error hread
  · rcases Traced.outcome_bind_eq_error_iff.mp h with hparse | ⟨cf, -, hbuild⟩
    · have hparse : ConfigFile.parse raw path.text = .error e := hparse
      rcases parse_error hparse with ⟨rfl, hlong⟩ | hmendable
      · exact .inl ⟨.tooLong, rfl, .value hread hlong hparse⟩
      · exact .inr hmendable
    · exact .inr (mendable_of_buildLogged hbuild)

/-- A configuration that cannot be loaded raises an exception, or the user can mend it. -/
lemma load_error (h : (load yaml .builtIn tree root file overrides).outcome = .error e) :
    (∃ r, e = .raised r ∧ Raises yaml tree (pathOf root file) r) ∨ Mendable e := by
  cases file with
  | some named =>
    rw [load] at h
    split at h
    · exact loadFile_error h
    · obtain rfl := Except.error.inj h
      exact .inr rfl
  | none =>
    rw [load] at h
    split at h
    · exact loadFile_error h
    · rw [Traced.outcome_bind_ok (a := ()) rfl] at h
      exact .inr (mendable_of_buildLogged h)

lemma Raises.isFile {r : Raised} (h : Raises yaml tree path r) : tree.isFile path = true := by
  cases h with
  | document holds _ => rw [FileTree.isFile, holds]
  | value read _ _ =>
    -- what was read was in a file
    cases hread : tree.read path with
    | error err =>
      simp only [readFile, hread] at read
      cases read
    | ok bytes => rw [FileTree.isFile, FileTree.read_eq_ok_iff.mp hread]

lemma Raises.loadFile {r : Raised} (h : Raises yaml tree path r) :
    (loadFile yaml registry tree path overrides).outcome = .error (.raised r) := by
  rw [Config.loadFile, Traced.outcome_bind_ok (a := ()) rfl]
  cases h with
  | document holds raised => exact Traced.outcome_bind_error (readFile_of_document holds raised) _
  | value read _ raised =>
    rw [read, Traced.ofExcept_ok_bind]
    exact Traced.outcome_bind_error raised _

/-- An exception is met before the file is resolved. -/
lemma Raises.load {r : Raised} (h : Raises yaml tree (pathOf root file) r) :
    (load yaml registry tree root file overrides).outcome = .error (.raised r) := by
  have hfile := h.isFile
  have hload : (Config.loadFile yaml registry tree (pathOf root file) overrides).outcome = _ :=
    h.loadFile
  cases file with
  | some named =>
    rw [pathOf] at hfile hload
    rwa [Config.load, if_pos hfile]
  | none =>
    rw [pathOf] at hfile hload
    rwa [Config.load, if_pos hfile]

end Config

/-! ## Checks that fail -/

namespace Check

variable {libs : Libraries} {tree : FileTree} {root : Path} {cf : ConfigFile} {cfg : LintConfig}
  {targets : List Path} {memory : Memory libs.parser}

/-- The search for the files of a run fails. -/
def DiscoveryFails (patterns : PatternLibrary) (tree : FileTree) (root : Path) (cfg : LintConfig)
    (targets : List Path) (e : DiscoveryError) : Prop :=
  (Discovery.ofConfig patterns tree root cfg).outcome = .error e ∨
    ∃ d, (Discovery.ofConfig patterns tree root cfg).outcome = .ok d ∧
      (d.files targets).outcome = .error e

lemma discovers_or_fails (patterns : PatternLibrary) (tree : FileTree) (root : Path)
    (cfg : LintConfig) (targets : List Path) :
    (∃ files, Discovers patterns tree root cfg targets files) ∨
      ∃ e, DiscoveryFails patterns tree root cfg targets e := by
  cases hd : (Discovery.ofConfig patterns tree root cfg).outcome with
  | error e => exact .inr ⟨e, .inl hd⟩
  | ok d =>
    cases hfiles : (d.files targets).outcome with
    | error e => exact .inr ⟨e, .inr ⟨d, hd, hfiles⟩⟩
    | ok files => exact .inl ⟨files, d, hd, hfiles⟩

lemma outcome_run_of_discoveryFails {rules : List BoundRule} {e : DiscoveryError}
    (hrules : (bindRules .builtIn cfg memory.registry).1 = .ok rules)
    (h : DiscoveryFails libs.patterns tree root cfg targets e) :
    (run libs tree root cfg targets memory).outcome = .error (.discovery e) := by
  rw [run]
  generalize bindRules .builtIn cfg memory.registry = bound at hrules ⊢
  obtain ⟨bound, registry⟩ := bound
  obtain rfl : bound = .ok rules := hrules
  show (Traced.ofExcept (.ok rules) >>= _).outcome = _
  rw [Traced.ofExcept_ok_bind]
  have hfail : ∀ {α : Type} {x : Logged DiscoveryError α}, x.outcome = .error e →
      (x.mapError CheckError.discovery).outcome = .error (.discovery e) :=
    fun hx => Traced.outcome_mapError_eq_error_iff.mpr ⟨e, hx, rfl⟩
  rcases h with hd | ⟨d, hd, hfiles⟩
  · exact Traced.outcome_bind_error (hfail hd) _
  · rw [Traced.outcome_bind_ok (Traced.outcome_mapError_eq_ok_iff.mpr hd)]
    exact Traced.outcome_bind_error (hfail hfiles) _

/-- A run with a configuration that was resolved fails while it looks for files, and not after that.
-/
lemma outcome_run_eq_error_iff (hparser : libs.parser.IsSound) (hcfg : Config.Resolved cf cfg)
    (hcf : cf.HasKnownSeverities) (hmemory : memory.IsTrue) {err : CheckError} :
    (run libs tree root cfg targets memory).outcome = .error err ↔
      ∃ e, err = .discovery e ∧ DiscoveryFails libs.patterns tree root cfg targets e := by
  obtain ⟨rules, hrules, hseverity⟩ := exists_bindRules_of_resolved hcfg
  have hbound : (bindRules .builtIn cfg memory.registry).1 = .ok rules := by
    rw [bindRules_congr hmemory.registry, hrules]
  constructor
  · intro h
    rcases discovers_or_fails libs.patterns tree root cfg targets with ⟨files, hfiles⟩ | ⟨e, he⟩
    · choose result hresult _ using exists_judged hparser (hseverity hcf) tree root cfg.policy
      obtain ⟨memory', -, hrun⟩ := outcome_run hmemory hrules hfiles hresult
      cases h.symm.trans hrun
    · have hrun := outcome_run_of_discoveryFails hbound he
      exact ⟨e, Except.error.inj (h.symm.trans hrun), he⟩
  · rintro ⟨e, rfl, he⟩
    exact outcome_run_of_discoveryFails hbound he

end Check

namespace Command

/-- What a request puts in the place of what the configuration says. -/
def CheckRequest.overrides (request : CheckRequest) : Overrides :=
  { rootAlias := request.rootAlias
    gitignore := if request.noGitignore then some false else none }

variable (libs : Libraries) (s : Surroundings) (request : CheckRequest)

/-- What comes of the configuration of the project. -/
def loaded : Except ConfigError (LintConfig × Registry) :=
  (Config.load libs.yaml .builtIn s.tree (request.projectRoot s.workingDirectory) request.config
    request.overrides).outcome

/-- The choice of files that a configuration makes in the project. -/
def chosen (cfg : LintConfig) : Except DiscoveryError (Discovery libs.patterns) :=
  (Discovery.ofConfig libs.patterns s.tree (request.projectRoot s.workingDirectory) cfg).outcome

/-- `t` is the first target of a check that fails. -/
def FailsAt {patterns : PatternLibrary} (d : Discovery patterns) (t : Path) : Prop :=
  FirstFailing d.Passes
    (Discovery.effectiveTargets (request.projectRoot s.workingDirectory) request.targets) t

/-- What breaks a check off. -/
inductive Breaks : Prop
  | config {e : Raised}
      (raises : Config.Raises libs.yaml s.tree
        (Config.pathOf (request.projectRoot s.workingDirectory) request.config) e)
  | exclude {cfg : LintConfig} {registry : Registry} {e : Raised}
      (config : loaded libs s request = .ok (cfg, registry)) (ne_nil : cfg.exclude ≠ [])
      (refused : libs.patterns.select cfg.exclude = .error e)
  | top {cfg : LintConfig} {registry : Registry} {file : List String}
      (config : loaded libs s request = .ok (cfg, registry)) (counts : cfg.gitignore = true)
      (file_eq : file = [".git", "info", "exclude"] ∨ file = [".gitignore"])
      (defective : Ignore.Defective libs.patterns s.tree
        ((request.projectRoot s.workingDirectory).parts ++ file))
  /-- A target before which none fails leads to an entry that a defective ignore file judges. -/
  | nested {cfg : LintConfig} {registry : Registry} {d : Discovery libs.patterns} {t : Path}
      {parts names : List String} {entries : List (String × FileTree)} {node : FileTree} {k : Nat}
      (config : loaded libs s request = .ok (cfg, registry)) (counts : cfg.gitignore = true)
      (choice : chosen libs s request cfg = .ok d) (first : FailsAt s request d t)
      (located : Locates s.tree (request.projectRoot s.workingDirectory) t parts (.dir entries))
      (below : names ≠ []) (leads : d.Leads parts (.dir entries) names node)
      (asks : d.Asks (parts ++ names) node) (pos : 0 < k) (lt : k < (parts ++ names).length)
      (defective : Ignore.Defective libs.patterns s.tree
        ((request.projectRoot s.workingDirectory).parts ++ (parts ++ names).take k ++
          [".gitignore"]))

/-- What a user can mend, and what they are told. -/
inductive Mends : String → Prop
  | config {e : ConfigError} (error : loaded libs s request = .error e)
      (mendable : Config.Mendable e) : Mends e.message
  | target {cfg : LintConfig} {registry : Registry} {d : Discovery libs.patterns} {t : Path}
      {e : DiscoveryError} (config : loaded libs s request = .ok (cfg, registry))
      (choice : chosen libs s request cfg = .ok d) (first : FailsAt s request d t)
      (fails : d.TargetFails t e) (mendable : ∀ y, e ≠ .pattern y) : Mends e.message

/-- What a check that ends leaves: a report and code 0 or 1, or nothing but a line for the user and
code 2. -/
inductive Ends (r : RunResult) : Prop
  | report {cfg : LintConfig} {registry : Registry} {report : CheckReport}
      {memory : Memory libs.parser} (config : loaded libs s request = .ok (cfg, registry))
      (run : (Check.run libs s.tree (request.projectRoot s.workingDirectory) cfg request.targets
        { registry }).outcome = .ok (report, memory))
      (code : r.code = 0 ∨ r.code = 1) (stdout : r.stdout = reportText request.json report)
  | line {message : String} (mends : Mends libs s request message) (code : r.code = 2)
      (stdout : r.stdout = "")
      (stderr : r.stderr = logText (s.debug || request.debug) (check libs s request).trace ++
        Text.dropTrailing Text.isBlank message ++ "\n")

variable {libs s request}

/-- A check fails with the configuration, or with the run. -/
lemma outcome_check_eq_error_iff {err : RunError} :
    (check libs s request).outcome = .error err ↔
      (∃ e, loaded libs s request = .error e ∧ .ofConfig e = err) ∨
      ∃ cfg registry, loaded libs s request = .ok (cfg, registry) ∧ ∃ e, (Check.run libs s.tree
        (request.projectRoot s.workingDirectory) cfg request.targets { registry }).outcome =
          .error e ∧ .ofCheck e = err := by
  simp only [check, Traced.outcome_bind_eq_error_iff, Traced.outcome_mapError_eq_error_iff,
    Traced.outcome_mapError_eq_ok_iff]
  constructor
  · rintro (h | ⟨⟨cfg, registry⟩, hcfg, h | ⟨report, -, hnot⟩⟩)
    · exact .inl h
    · exact .inr ⟨cfg, registry, hcfg, h⟩
    · cases hnot
  · rintro (h | ⟨cfg, registry, hcfg, h⟩)
    · exact .inl h
    · exact .inr ⟨(cfg, registry), hcfg, .inl h⟩

lemma dots_not_mem_projectRoot : ".." ∉ (request.projectRoot s.workingDirectory).parts :=
  Path.dots_not_mem_resolve _

section Loaded

variable {cfg : LintConfig} {registry : Registry}
  (hcfg : loaded libs s request = .ok (cfg, registry))

include hcfg

/-- Once a configuration is loaded, a check fails while it looks for files. -/
lemma outcome_check_of_loaded (hparser : libs.parser.IsSound) {err : RunError} :
    (check libs s request).outcome = .error err ↔
      ∃ e, .ofCheck (.discovery e) = err ∧ Check.DiscoveryFails libs.patterns s.tree
        (request.projectRoot s.workingDirectory) cfg request.targets e := by
  obtain ⟨cf, hcf, hresolved, hmemory⟩ := exists_resolved_of_load libs hcfg
  rw [outcome_check_eq_error_iff]
  constructor
  · rintro (⟨e, he, -⟩ | ⟨cfg', registry', hcfg', e, herror, rfl⟩)
    · cases hcfg.symm.trans he
    · obtain ⟨rfl, rfl⟩ := Prod.mk.inj (Except.ok.inj (hcfg.symm.trans hcfg'))
      obtain ⟨e, rfl, he⟩ :=
        (Check.outcome_run_eq_error_iff hparser hresolved hcf hmemory).mp herror
      exact ⟨e, rfl, he⟩
  · rintro ⟨e, rfl, he⟩
    refine .inr ⟨cfg, registry, hcfg, _, ?_, rfl⟩
    exact (Check.outcome_run_eq_error_iff hparser hresolved hcf hmemory).mpr ⟨e, rfl, he⟩

/-- Without a choice of files, the library of patterns refuses one. -/
lemma breaks_of_chosen_error {e : DiscoveryError} (h : chosen libs s request cfg = .error e) :
    Breaks libs s request := by
  cases Discovery.ofConfig_settles libs.patterns s.tree (request.projectRoot s.workingDirectory)
    cfg with
  | ok eq _ _ => cases h.symm.trans eq
  | error eq hfails =>
    obtain ⟨e', -, ⟨hne, hexclude⟩ | ⟨hcounts, htop⟩⟩ := hfails
    · exact .exclude hcfg hne hexclude
    · rcases (Ignore.rootPatterns_error_iff dots_not_mem_projectRoot).mp ⟨e', htop⟩ with h | h
      · exact .top hcfg hcounts (.inl rfl) h
      · exact .top hcfg hcounts (.inr rfl) h

/-- A pattern that is refused leaves no choice of files, and breaks the check off. -/
lemma outcome_check_of_refused (hparser : libs.parser.IsSound) {e : Raised}
    (h : (cfg.exclude ≠ [] ∧ libs.patterns.select cfg.exclude = .error e) ∨
      (cfg.gitignore = true ∧ (Ignore.rootPatterns libs.patterns s.tree
        (request.projectRoot s.workingDirectory)).outcome = .error e)) :
    ∃ e', (check libs s request).outcome = .error (.breakdown (.raised e')) := by
  cases Discovery.ofConfig_settles libs.patterns s.tree (request.projectRoot s.workingDirectory)
    cfg with
  | ok _ hnone _ => exact absurd ⟨e, rfl, h⟩ (hnone _)
  | error eq hfails =>
    obtain ⟨e', rfl, -⟩ := hfails
    exact ⟨e', (outcome_check_of_loaded hcfg hparser).mpr ⟨_, rfl, .inl eq⟩⟩

end Loaded

lemma isSome_session_iff {patterns : PatternLibrary} {tree : FileTree} {root : Path}
    {cfg : LintConfig} {d : Discovery patterns} (hd : d.Chooses tree root cfg) :
    d.session.isSome = true ↔ cfg.gitignore = true := by
  cases hcounts : cfg.gitignore with
  | true =>
    obtain ⟨session, -, hsession⟩ := hd.ignored hcounts
    simp [hsession]
  | false => simp [hd.not_ignored hcounts]

section Targets

variable (htree : s.tree.WellFormed) {cfg : LintConfig} {registry : Registry}
  {d : Discovery libs.patterns} (hd : chosen libs s request cfg = .ok d)

include htree hd

/-- From a target of the check, a walk gets stuck by the ignore files of the project. -/
lemma getsStuck_iff_of_chosen {t : Path} {parts : List String} {entries : List (String × FileTree)}
    (hloc : Locates s.tree (request.projectRoot s.workingDirectory) t parts (.dir entries)) :
    d.GetsStuck parts (.dir entries) ↔ cfg.gitignore = true ∧
      ∃ names node, names ≠ [] ∧ d.Leads parts (.dir entries) names node ∧
        d.Asks (parts ++ names) node ∧ ∃ k, 0 < k ∧ k < (parts ++ names).length ∧
          Ignore.Defective libs.patterns s.tree ((request.projectRoot s.workingDirectory).parts ++
            (parts ++ names).take k ++ [".gitignore"]) := by
  have hchooses := Discovery.chooses_of_ofConfig hd
  have hdots : ".." ∉ d.root.parts := by
    rw [hchooses.root_eq]
    exact dots_not_mem_projectRoot
  obtain ⟨hdir, hparts⟩ := hloc.wellFormed htree
  rw [Discovery.getsStuck_iff hdots hdir hparts, isSome_session_iff hchooses, hchooses.tree_eq,
    hchooses.root_eq]

/-- What the targets of a check come to, stated for the project. -/
lemma files_settles_of_chosen :
    Settles (d.files request.targets).outcome
      (fun e => ∃ t, FailsAt s request d t ∧ d.TargetFails t e) fun _ => True := by
  have hchooses := Discovery.chooses_of_ofConfig hd
  have hwell : d.tree.WellFormed := by rwa [hchooses.tree_eq]
  have hsettles := Discovery.files_settles hchooses.knows hwell request.targets
  rw [hchooses.root_eq] at hsettles
  exact hsettles.imp fun _ _ => trivial

/-- A target that fails is the user's, or an ignore file is defective. -/
lemma mends_or_breaks_of_targetFails (hcfg : loaded libs s request = .ok (cfg, registry)) {t : Path}
    (hfirst : FailsAt s request d t) {e : DiscoveryError} (h : d.TargetFails t e) :
    (Mends libs s request e.message ∧ RunError.ofCheck (.discovery e) = .user e.message) ∨
      Breaks libs s request := by
  cases h with
  | missing hnone => exact .inl ⟨.target hcfg hd hfirst (.missing hnone) nofun, rfl⟩
  | outside hfound hnone => exact .inl ⟨.target hcfg hd hfirst (.outside hfound hnone) nofun, rfl⟩
  | stuck hloc hstuck =>
    have hchooses := Discovery.chooses_of_ofConfig hd
    rw [hchooses.tree_eq, hchooses.root_eq] at hloc
    obtain ⟨hcounts, names, node, hne, hleads, hasks, k, hk, hlt, hdefective⟩ :=
      (getsStuck_iff_of_chosen htree hd hloc).mp hstuck
    exact .inr (.nested hcfg hcounts hd hfirst hloc hne hleads hasks hk hlt hdefective)

end Targets

/-- What breaks a check off does so whatever else is wrong. -/
lemma Breaks.outcome_check (hparser : libs.parser.IsSound) (htree : s.tree.WellFormed)
    (h : Breaks libs s request) :
    ∃ e, (check libs s request).outcome = .error (.breakdown (.raised e)) := by
  cases h with
  | @config e hraises =>
    have herror : loaded libs s request = .error (.raised e) := hraises.load
    exact ⟨e, outcome_check_eq_error_iff.mpr (.inl ⟨_, herror, rfl⟩)⟩
  | exclude hcfg hne hrefused => exact outcome_check_of_refused hcfg hparser (.inl ⟨hne, hrefused⟩)
  | @top cfg registry file hcfg hcounts hfile hdefective =>
    have hroot : ∃ e, (Ignore.rootPatterns libs.patterns s.tree
        (request.projectRoot s.workingDirectory)).outcome = .error e := by
      rw [Ignore.rootPatterns_error_iff dots_not_mem_projectRoot]
      rcases hfile with rfl | rfl
      · exact .inl hdefective
      · exact .inr hdefective
    obtain ⟨e, he⟩ := hroot
    exact outcome_check_of_refused hcfg hparser (.inr ⟨hcounts, he⟩)
  | @nested cfg registry d t parts names entries node k hcfg hcounts hd hfirst hloc hne hleads hasks
      hk hlt hdefective =>
    have hstuck : d.GetsStuck parts (.dir entries) :=
      (getsStuck_iff_of_chosen htree hd hloc).mpr
        ⟨hcounts, names, node, hne, hleads, hasks, k, hk, hlt, hdefective⟩
    have hchooses := Discovery.chooses_of_ofConfig hd
    rw [← hchooses.tree_eq, ← hchooses.root_eq] at hloc
    -- the target that is reported is this one, and a directory fails by a pattern only
    cases files_settles_of_chosen htree hd with
    | ok _ hnone _ => exact absurd ⟨t, hfirst, .stuck hloc hstuck⟩ (hnone (.pattern .tooLong))
    | error eq hfails =>
      obtain ⟨t', hfirst', hfails⟩ := hfails
      rw [hfirst'.unique hfirst] at hfails
      obtain ⟨-, e, -, rfl, -⟩ := (Discovery.targetFails_iff_of_locates hloc).mp hfails
      exact ⟨e, (outcome_check_of_loaded hcfg hparser).mpr ⟨_, rfl, .inr ⟨d, hd, eq⟩⟩⟩

/-- A check that fails does so with a line for the user, or it breaks off for one of the reasons
that there are. -/
lemma mends_or_breaks (hparser : libs.parser.IsSound) (htree : s.tree.WellFormed) {err : RunError}
    (h : (check libs s request).outcome = .error err) :
    (∃ message, err = .user message ∧ Mends libs s request message) ∨ Breaks libs s request := by
  cases hconfig : loaded libs s request with
  | error e =>
    have herr : RunError.ofConfig e = err := by
      rcases outcome_check_eq_error_iff.mp h with ⟨e', he', herr⟩ | ⟨cfg, registry, hcfg, -⟩
      · rwa [Except.error.inj (hconfig.symm.trans he')]
      · cases hconfig.symm.trans hcfg
    rcases Config.load_error hconfig with ⟨r, -, hraises⟩ | hmendable
    · exact .inr (.config hraises)
    · exact .inl ⟨e.message, herr.symm.trans hmendable, .config hconfig hmendable⟩
  | ok result =>
    obtain ⟨cfg, registry⟩ := result
    -- rules that a configuration holds can be bound, so only the search for files is left to fail
    obtain ⟨e, rfl, hchosen | ⟨d, hd, hfiles⟩⟩ := (outcome_check_of_loaded hconfig hparser).mp h
    · exact .inr (breaks_of_chosen_error hconfig hchosen)
    · cases files_settles_of_chosen htree hd with
      | ok eq _ _ => cases hfiles.symm.trans eq
      | error eq hfails =>
        obtain ⟨t, hfirst, hfails⟩ := hfails
        rw [← Except.error.inj (hfiles.symm.trans eq)] at hfails
        rcases mends_or_breaks_of_targetFails htree hd hconfig hfirst hfails with
          ⟨hmends, herr⟩ | hbreaks
        · exact .inl ⟨e.message, herr, hmends⟩
        · exact .inr hbreaks

lemma exitCode_eq (maxWarnings : Int) (report : CheckReport) :
    exitCode maxWarnings report = 0 ∨ exitCode maxWarnings report = 1 := by
  unfold exitCode
  split
  · exact .inr rfl
  · split
    · exact .inr rfl
    · exact .inl rfl

/-- A run that is asked for a check leaves what the check gives. -/
lemma run_of_check {args : List String} (h : Invocation.ofArguments args = .ok (.check request)) :
    run libs s args =
      match (check libs s request).outcome with
      | .ok (code, output) =>
        .ok { code, stdout := output
              stderr := logText (s.debug || request.debug) (check libs s request).trace }
      | .error (.user message) =>
        .ok { code := 2
              stderr := logText (s.debug || request.debug) (check libs s request).trace ++
                Text.dropTrailing Text.isBlank message ++ "\n" }
      | .error (.breakdown b) => .error b := by
  cases houtcome : (check libs s request).outcome with
  | ok result => simp only [run, h, perform, Invocation.wantsLog, houtcome]
  | error err =>
    cases err with
    | user message => simp only [run, h, perform, Invocation.wantsLog, houtcome]
    | breakdown b => simp only [run, h, perform, houtcome]

/-- Whatever libraries compile patterns and read documents, and with a sound parser: a check ends
unless something breaks it off. It ends with a report and code 0 or 1, or with code 2 and nothing
but a line for the user. What leaves a check that is broken off is an exception of a library or of a
message, never a failure of the registry. -/
theorem ends_iff_not_breaks (libs : Libraries) (hparser : libs.parser.IsSound) (s : Surroundings)
    (args : List String) (request : CheckRequest)
    (hargs : Invocation.ofArguments args = .ok (.check request)) (htree : s.tree.WellFormed) :
    ((∃ r, run libs s args = .ok r) ↔ ¬ Breaks libs s request) ∧
      (∀ r, run libs s args = .ok r → Ends libs s request r) ∧
      ∀ b, run libs s args = .error b → ∃ e, b = .raised e := by
  rw [run_of_check hargs]
  -- a check that ends is not broken off
  have hends : (∀ b, (check libs s request).outcome ≠ .error (.breakdown b)) →
      ¬ Breaks libs s request := by
    intro hnone hbreaks
    obtain ⟨e, he⟩ := hbreaks.outcome_check hparser htree
    exact hnone _ he
  cases hcheck : (check libs s request).outcome with
  | ok result =>
    obtain ⟨cfg, registry, report, memory, hcfg, hrun, hcode, houtput⟩ :=
      outcome_check_eq_ok_iff.mp hcheck
    have hbreaks : ¬ Breaks libs s request := hends (by simp [hcheck])
    refine ⟨⟨fun _ => hbreaks, fun _ => ⟨_, rfl⟩⟩, fun r hr => ?_, nofun⟩
    obtain rfl := Except.ok.inj hr
    exact .report hcfg hrun (hcode ▸ exitCode_eq _ report) houtput
  | error err =>
    rcases mends_or_breaks hparser htree hcheck with ⟨message, rfl, hmends⟩ | hbreaks
    · have hbreaks : ¬ Breaks libs s request := hends (by simp [hcheck])
      refine ⟨⟨fun _ => hbreaks, fun _ => ⟨_, rfl⟩⟩, fun r hr => ?_, nofun⟩
      obtain rfl := Except.ok.inj hr
      exact .line hmends rfl rfl rfl
    · obtain ⟨e, he⟩ := hbreaks.outcome_check hparser htree
      obtain rfl := Except.error.inj (hcheck.symm.trans he)
      refine ⟨⟨nofun, fun hnot => absurd hbreaks hnot⟩, nofun, fun b' hb' => ?_⟩
      exact ⟨e, (Except.error.inj hb').symm⟩

/-- The sample project as the working directory. -/
def sampleSurroundings : Surroundings :=
  { tree := Check.unorderedTree, workingDirectory := Check.sampleRoot }

lemma ofArguments_check : Invocation.ofArguments ["check"] = .ok (.check {}) := by rfl

/-- The registry that is left when the sample project, which has no configuration file, is loaded.
-/
def sampleRegistry : Registry :=
  (Config.build .builtIn .builtIn {} {} none).2

lemma loaded_sample :
    loaded .included sampleSurroundings {} = .ok (Check.defaultConfig, sampleRegistry) := by rfl

lemma exists_outcome_run_sample :
    Memory.IsTrue ({ registry := sampleRegistry } : Memory Lexer.library) ∧ ∃ report memory,
      (Check.run .included Check.unorderedTree Check.sampleRoot Check.defaultConfig []
        { registry := sampleRegistry }).outcome = .ok (report, memory) := by
  obtain ⟨cf, hcf, hresolved, hmemory⟩ := exists_resolved_of_load .included loaded_sample
  have hpatterns : HasPatterns IgnorePattern.library Check.unorderedTree Check.sampleRoot
      Check.defaultConfig :=
    ⟨fun hne => absurd rfl hne, fun _ => Check.readable_unorderedTree⟩
  exact ⟨hmemory, Check.exists_run Lexer.isSound_library hresolved hcf hmemory
    Check.isProject_unorderedTree hpatterns (by simp)⟩

theorem ends_iff_not_breaks_sample :
    ∃ r, run .included sampleSurroundings ["check"] = .ok r ∧
      Ends .included sampleSurroundings {} r ∧ ¬ Breaks .included sampleSurroundings {} := by
  obtain ⟨-, report, memory, hreport⟩ := exists_outcome_run_sample
  obtain ⟨r, hrun⟩ : ∃ r, run .included sampleSurroundings ["check"] = .ok r := by
    have hcheck : (check .included sampleSurroundings {}).outcome =
        .ok (exitCode (-1) report, report.text) :=
      outcome_check_eq_ok_iff.mpr ⟨_, _, report, memory, loaded_sample, hreport, rfl, rfl⟩
    rw [run_of_check ofArguments_check, hcheck]
    exact ⟨_, rfl⟩
  have h := ends_iff_not_breaks .included Lexer.isSound_library sampleSurroundings ["check"] {}
    ofArguments_check Check.isProject_unorderedTree.wellFormed
  exact ⟨r, hrun, h.2.1 r hrun, h.1.mp ⟨r, hrun⟩⟩

/-- An ignore file with a line that ends in the middle of an escape. -/
def malformedLines : List UInt8 := "a\\\n".toUTF8.toList

/-- A project with that ignore file at its root. -/
def malformedSurroundings : Surroundings where
  tree := .dir [("p", .dir [(".gitignore", .file malformedLines), ("a.ts", .file [])])]
  workingDirectory := Check.sampleRoot

/-- The exception about that line. -/
def malformedLine : Raised :=
  PatternError.raised (.invalid "a\\")

instance : DecidableEq IgnorePattern.library.Pattern :=
  inferInstanceAs (DecidableEq (Option IgnorePattern))

lemma rootPatterns_malformed :
    (Ignore.rootPatterns IgnorePattern.library malformedSurroundings.tree
        Check.sampleRoot).outcome =
      .error malformedLine := by
  have hexcluded : malformedSurroundings.tree.contents?
      (Check.sampleRoot.parts ++ [".git", "info", "exclude"]) = none := by rfl
  have hignored : malformedSurroundings.tree.contents?
      (Check.sampleRoot.parts ++ [] ++ [".gitignore"]) = some malformedLines := by rfl
  have hlines : Ignore.patternsOf IgnorePattern.library (some malformedLines) =
      .error malformedLine := by decide +kernel
  rw [Ignore.outcome_rootPatterns _ (by decide), hexcluded, hignored, hlines]
  rfl

/-- A check of that project does not end: a malformed line is not taken for something to mend. -/
theorem run_check_malformed :
    run .included malformedSurroundings ["check"] = .error (.raised malformedLine) := by
  have hcfg : loaded .included malformedSurroundings {} =
      .ok (Check.defaultConfig, sampleRegistry) := by rfl
  have hfails : Check.DiscoveryFails IgnorePattern.library malformedSurroundings.tree
      Check.sampleRoot Check.defaultConfig [] (.pattern malformedLine) := by
    cases Discovery.ofConfig_settles IgnorePattern.library malformedSurroundings.tree
      Check.sampleRoot Check.defaultConfig with
    | ok _ hnone _ => exact absurd ⟨_, rfl, .inr ⟨rfl, rootPatterns_malformed⟩⟩ (hnone _)
    | error eq hfails =>
      obtain ⟨e, rfl, ⟨hne, -⟩ | ⟨-, htop⟩⟩ := hfails
      · exact absurd rfl hne
      · rw [Except.error.inj (htop.symm.trans rootPatterns_malformed)] at eq
        exact .inl eq
  have hcheck : (check .included malformedSurroundings {}).outcome =
      .error (.breakdown (.raised malformedLine)) :=
    (outcome_check_of_loaded hcfg Lexer.isSound_library).mpr ⟨_, rfl, hfails⟩
  rw [run_of_check ofArguments_check, hcheck]

end Command

end EntryLint
