import EntryLint.Proofs.Check.Binding

/-!
# Resolving configuration files

A file resolves exactly when it is valid, and its first defect is reported otherwise. The main
result is `build_decides`, for the built-in registry with any presets registered on top of it.
-/

namespace EntryLint

/-! ## Registries with presets -/

namespace Registry

/-- The built-in registry with presets registered on top of it, one after the other. -/
def withPresets (presets : List (String × Preset)) : Registry :=
  presets.foldl (fun registry p => registry.registerNew p.1 p.2) builtIn

/-- Every registered rule can be loaded. -/
def Complete (library : Library) (registry : Registry) : Prop :=
  ∀ name spec, registry.specs.get? name = some spec → ∃ r, library.load name spec = .ok r

lemma mem_presetNames {registry : Registry} {name : String} :
    name ∈ registry.presetNames ↔ name ∈ registry.presets.names :=
  mem_sortNames

/-- Registering presets changes no rule and forgets no preset. -/
lemma withPresets_spec (presets : List (String × Preset)) :
    (withPresets presets).specs = builtIn.specs ∧ (withPresets presets).resolved = [] ∧
      Config.defaultPreset ∈ (withPresets presets).presetNames := by
  induction presets using List.reverseRecOn with
  | nil => exact ⟨rfl, rfl, mem_presetNames.mpr (by decide)⟩
  | append_singleton presets p ih =>
    obtain ⟨hspecs, hresolved, hdefault⟩ := ih
    rw [withPresets, List.foldl_append]
    refine ⟨hspecs, hresolved, mem_presetNames.mpr ?_⟩
    exact NameMap.mem_names_put.mpr (.inr (mem_presetNames.mp hdefault))

lemma remembers_withPresets (presets : List (String × Preset)) :
    (withPresets presets).Remembers .builtIn := by
  intro name r h
  rw [(withPresets_spec presets).2.1] at h
  cases h

lemma complete_withPresets (presets : List (String × Preset)) :
    (withPresets presets).Complete .builtIn := by
  intro name spec h
  rw [(withPresets_spec presets).1] at h
  -- one rule is built in
  obtain ⟨rfl, rfl⟩ := Prod.mk.inj (List.mem_singleton.mp (NameMap.mem_of_get? h))
  exact ⟨EntryImports.rule, rfl⟩

variable {library : Library} {registry : Registry}

/-- Where every registered rule can be loaded, a look-up fails for unknown names only. -/
lemma exists_rule_of_complete (hcomplete : registry.Complete library) {name : String}
    (h : name ∈ registry.ruleNames) : ∃ r, (registry.rule library name).1 = .ok r := by
  rcases rule_cases library registry name with
    ⟨r, -, hrule⟩ | ⟨hnot, -⟩ | ⟨spec, e, hspec, hload, -⟩ | ⟨spec, r, -, -, hrule⟩
  · exact ⟨r, by rw [hrule]⟩
  · exact absurd h hnot
  · obtain ⟨r, hr⟩ := hcomplete name spec hspec
    rw [hr] at hload
    cases hload
  · exact ⟨r, by rw [hrule]⟩

lemma rule_of_not_mem (hremembers : registry.Remembers library) {name : String}
    (h : name ∉ registry.ruleNames) :
    registry.rule library name = (.error (.unknownRule name registry.ruleNames), registry) := by
  rcases rule_cases library registry name with
    ⟨r, hr, -⟩ | ⟨-, hrule⟩ | ⟨spec, e, hspec, -, -⟩ | ⟨spec, r, hspec, -, -⟩
  · obtain ⟨spec, hspec, -⟩ := hremembers name r hr
    exact absurd (mem_ruleNames_of_spec hspec) h
  · exact hrule
  · exact absurd (mem_ruleNames_of_spec hspec) h
  · exact absurd (mem_ruleNames_of_spec hspec) h

lemma finds_iff (hcomplete : registry.Complete library) (hremembers : registry.Remembers library)
    {name : String} : registry.Finds library name ↔ name ∈ registry.ruleNames := by
  refine ⟨fun ⟨r, hr⟩ => ?_, exists_rule_of_complete hcomplete⟩
  by_contra hnot
  rw [rule_of_not_mem hremembers hnot] at hr
  cases hr

/-- Registering presets changes no answer about rules. -/
lemma answersAs_withPresets (library : Library) (presets : List (String × Preset)) :
    (withPresets presets).AnswersAs library builtIn := by
  obtain ⟨hspecs, hresolved, -⟩ := withPresets_spec presets
  intro name
  have hnone : builtIn.resolved.get? name = none := rfl
  rw [rule, rule, ruleNames, hspecs, hresolved, NameMap.get?_nil, hnone]
  cases hspec : builtIn.specs.get? name with
  | none => rfl
  | some spec =>
    cases hload : library.load name spec with
    | error e => simp only [hload]
    | ok r => simp only [hload]

lemma preset_of_mem {p : String} (h : p ∈ registry.presetNames) :
    registry.preset p = .ok (registry.severitiesIn p) := by
  rw [preset_eq, severitiesIn]
  cases hget : registry.presets.get? p with
  | some dictionary => rfl
  | none => exact absurd (mem_presetNames.mp h) (NameMap.get?_eq_none_iff.mp hget)

lemma preset_of_not_mem {p : String} (h : p ∉ registry.presetNames) :
    registry.preset p = .error (.unknownPreset p registry.presetNames) := by
  rw [preset_eq, NameMap.get?_eq_none_iff.mpr (mt mem_presetNames.mpr h)]

end Registry

namespace Config

variable {library : Library} {registry : Registry} {cf : ConfigFile}

/-! ## Presets and rules -/

/-- The severities of the presets that a file draws on, each set over those before it, with its own
rules set last. -/
def mergedRules (registry : Registry) (cf : ConfigFile) : NameMap Severity :=
  let presets : NameMap Severity :=
    (presetsOf cf).foldl (fun rules p => NameMap.update rules (registry.severitiesIn p)) []
  presets.update cf.rules

/-- The rules of a file are refused: a preset is unknown, or a rule that is mentioned is not found.
-/
inductive Refuses (library : Library) (registry : Registry) (cf : ConfigFile) : ConfigError → Prop
  | preset {p : String} (first : FirstFailing (· ∈ registry.presetNames) (presetsOf cf) p) :
      Refuses library registry cf (.registry (.unknownPreset p registry.presetNames))
  | rule {n : String} {e : RegistryError} (presets : ∀ p ∈ presetsOf cf, p ∈ registry.presetNames)
      (first : FirstFailing (registry.Finds library) (mentionedRules registry cf) n)
      (failure : (registry.rule library n).1 = .error e) : Refuses library registry cf (.registry e)

/-- The first unknown preset stops the merging. -/
lemma foldlM_presets_of_some {names : List String} {p : String}
    (h : FirstFailing (· ∈ registry.presetNames) names p) (rules : NameMap Severity) :
    names.foldlM (fun rules name => return rules.update (← registry.preset name)) rules =
      .error (.unknownPreset p registry.presetNames) := by
  obtain ⟨before, rest, rfl, hbefore, hp⟩ := h
  induction before generalizing rules with
  | nil =>
    rw [List.nil_append, List.foldlM_cons, Registry.preset_of_not_mem hp]
    rfl
  | cons q before ih =>
    rw [List.forall_mem_cons] at hbefore
    rw [List.cons_append, List.foldlM_cons, Registry.preset_of_mem hbefore.1]
    exact ih _ hbefore.2

/-- Known presets are set one over the other. -/
lemma foldlM_presets_of_known {names : List String} (h : ∀ p ∈ names, p ∈ registry.presetNames)
    (rules : NameMap Severity) :
    names.foldlM (fun rules name => return rules.update (← registry.preset name)) rules =
      .ok (names.foldl (fun rules p => rules.update (registry.severitiesIn p)) rules) := by
  induction names generalizing rules with
  | nil => rfl
  | cons p names ih =>
    rw [List.forall_mem_cons] at h
    rw [List.foldlM_cons, Registry.preset_of_mem h.1]
    exact ih h.2 _

lemma names_foldl_presets (names : List String) {rules : NameMap Severity} {xs : List String}
    (h : rules.names = dedup xs) :
    (names.foldl (fun rules p => rules.update (registry.severitiesIn p)) rules).names =
      dedup (xs ++ names.flatMap registry.namesIn) := by
  induction names generalizing rules xs with
  | nil =>
    rw [List.flatMap_nil, List.append_nil]
    exact h
  | cons p names ih =>
    rw [List.flatMap_cons, ← List.append_assoc]
    exact ih (names_update_of_dedup h (registry.severitiesIn p))

/-- Merged rules stand in the order in which they are first mentioned. -/
lemma names_mergedRules (registry : Registry) (cf : ConfigFile) :
    (mergedRules registry cf).names = dedup (mentionedRules registry cf) := by
  have hnil : NameMap.names ([] : NameMap Severity) = dedup [] := rfl
  exact names_update_of_dedup (names_foldl_presets (presetsOf cf) hnil) cf.rules

/-- Once its presets are known, the merged rules of a file are looked up. -/
lemma resolveRules_of_known (library : Library)
    (h : ∀ p ∈ presetsOf cf, p ∈ registry.presetNames) :
    resolveRules library registry cf =
      match lookUpRules library (mergedRules registry cf).names registry with
      | (.error e, registry') => (.error (.registry e), registry')
      | (.ok (), registry') => (.ok (mergedRules registry cf), registry') := by
  have hmerge : mergePresets registry (presetsOf cf) = _ := foldlM_presets_of_known h []
  cases hlook : lookUpRules library (mergedRules registry cf).names registry with
  | mk result registry' =>
    simp only [mergedRules] at hlook ⊢
    cases result with
    | error e => simp only [resolveRules, hmerge, hlook]
    | ok u => simp only [resolveRules, hmerge, hlook]

/-- An unknown preset is reported before any rule is looked up. -/
lemma resolveRules_of_preset (library : Library) {p : String}
    (h : FirstFailing (· ∈ registry.presetNames) (presetsOf cf) p) :
    resolveRules library registry cf =
      (.error (.registry (.unknownPreset p registry.presetNames)), registry) := by
  have hmerge : mergePresets registry (presetsOf cf) = _ := foldlM_presets_of_some h []
  rw [resolveRules, hmerge]

/-- The rules of a file are merged, or they are refused. -/
lemma resolveRules_settles (library : Library) (registry : Registry) (cf : ConfigFile) :
    Settles (resolveRules library registry cf).1 (Refuses library registry cf) fun rules =>
      rules = mergedRules registry cf ∧ ∀ n ∈ mentionedRules registry cf,
        registry.Finds library n := by
  rcases forall_or_firstFailing (· ∈ registry.presetNames) (presetsOf cf) with hknown | ⟨p, hp⟩
  · have hlook := lookUpRules_settles library (mergedRules registry cf).names registry
    -- a rule that is mentioned again changes nothing about the first that is not found
    have hfirst : ∀ n, FirstFailing (registry.Finds library) (mergedRules registry cf).names n ↔
        FirstFailing (registry.Finds library) (mentionedRules registry cf) n := by
      classical
      intro n
      rw [firstFailing_iff, firstFailing_iff, names_mergedRules, find?_dedup]
    rw [resolveRules_of_known library hknown]
    cases hlooked : lookUpRules library (mergedRules registry cf).names registry with
    | mk result registry' =>
      rw [hlooked] at hlook
      cases hlook with
      | @error e eq h =>
        obtain ⟨n, hn, he⟩ := h
        simp only at eq
        rw [eq]
        exact .error rfl (.rule hknown ((hfirst n).mp hn) he)
      | ok eq none hfinds =>
        simp only at eq
        rw [eq]
        refine .ok rfl (fun e he => ?_) ⟨rfl, fun n hn => hfinds n ?_⟩
        · cases he with
          | preset first => exact first.not_forall hknown
          | rule _ first failure => exact none _ ⟨_, (hfirst _).mpr first, failure⟩
        · rw [names_mergedRules]
          exact ((firstOccurrences_dedup _).mem n).mpr hn
  · rw [resolveRules_of_preset library hp]
    exact .error rfl (.preset hp)

/-- No file is refused for two reasons. -/
lemma Refuses.unique {e e' : ConfigError} (h : Refuses library registry cf e)
    (h' : Refuses library registry cf e') : e = e' := by
  cases h with
  | preset first =>
    cases h' with
    | preset first' => rw [first.unique first']
    | rule presets _ _ => exact absurd presets first.not_forall
  | rule presets first failure =>
    cases h' with
    | preset first' => exact absurd presets first'.not_forall
    | rule _ first' failure' =>
      obtain rfl := first.unique first'
      rw [Except.error.inj (failure.symm.trans failure')]

lemma resolveRules_eq_error_iff {e : ConfigError} :
    (resolveRules library registry cf).1 = .error e ↔ Refuses library registry cf e := by
  cases resolveRules_settles library registry cf with
  | error eq h =>
    rw [eq, Except.error.injEq]
    exact ⟨fun heq => heq ▸ h, h.unique⟩
  | ok eq none _ =>
    rw [eq]
    exact ⟨nofun, fun h => absurd h (none e)⟩

section Resolve

variable (hcomplete : registry.Complete library) (hremembers : registry.Remembers library)
  (hpresets : ∀ p ∈ presetsOf cf, p ∈ registry.presetNames)

include hcomplete hremembers hpresets

lemma resolveRules_of_rule {n : String}
    (h : FirstFailing (· ∈ registry.ruleNames) (mentionedRules registry cf) n) :
    (resolveRules library registry cf).1 =
      .error (.registry (.unknownRule n registry.ruleNames)) := by
  have hfinds : registry.Finds library = (· ∈ registry.ruleNames) := by
    funext n
    exact propext (Registry.finds_iff hcomplete hremembers)
  have hrule := Registry.rule_of_not_mem hremembers h.not_holds
  rw [← hfinds] at h
  exact resolveRules_eq_error_iff.mpr (.rule hpresets h (by rw [hrule]))

/-- Where all rules are registered, there is a severity for every rule that is mentioned, and the
registry that is left has them all. -/
lemma exists_resolveRules (hrules : ∀ n ∈ mentionedRules registry cf, n ∈ registry.ruleNames) :
    ∃ rules registry', resolveRules library registry cf = (.ok rules, registry') ∧
      (∀ n, n ∈ rules.names ↔ n ∈ mentionedRules registry cf) ∧
      ∀ n ∈ rules.names, registry'.Finds library n := by
  have hfinds : ∀ n ∈ mentionedRules registry cf, registry.Finds library n :=
    fun n hn => (Registry.finds_iff hcomplete hremembers).mpr (hrules n hn)
  cases hresolve : resolveRules library registry cf with
  | mk result registry' =>
    have hsettles := resolveRules_settles library registry cf
    have hsame := answersAs_resolveRules library registry cf
    rw [hresolve] at hsettles hsame
    cases hsettles with
    | error eq h =>
      cases h with
      | preset first => exact absurd hpresets first.not_forall
      | rule _ first _ => exact absurd hfinds first.not_forall
    | ok eq _ h =>
      simp only at eq
      obtain ⟨rfl, -⟩ := h
      have hmem : ∀ n, n ∈ (mergedRules registry cf).names ↔ n ∈ mentionedRules registry cf := by
        rw [names_mergedRules]
        exact (firstOccurrences_dedup _).mem
      refine ⟨_, registry', by rw [eq], hmem, fun n hn => ?_⟩
      rw [Registry.Finds, hsame]
      exact hfinds n ((hmem n).mp hn)

end Resolve

/-! ## Resolving a file -/

/-- What a resolved configuration holds: the override or else what the file says, extensions in
their order, and a severity for exactly the rules that are mentioned. -/
structure Holds (registry : Registry) (cf : ConfigFile) (overrides : Overrides)
    (source : Option String) (cfg : LintConfig) : Prop where
  rootAlias : cfg.policy.rootAlias = overrides.rootAlias.getD cf.rootAlias
  extensions : cfg.policy.extensions = cf.extensions
  lintExtensions : FirstOccurrences (searchedExtensions cf) cfg.lintExtensions
  exclude : cfg.exclude = cf.exclude
  gitignore : cfg.gitignore = overrides.gitignore.getD cf.gitignore
  rules : ∀ n, n ∈ cfg.rules.names ↔ n ∈ mentionedRules registry cf
  source : cfg.source = source

/-- The presets that a file draws on are those that it names, or the default one. -/
lemma forall_mem_presetsOf {cf : ConfigFile} (hdefault : defaultPreset ∈ registry.presetNames) :
    (∀ p ∈ presetsOf cf, p ∈ registry.presetNames) ↔
      ∀ p ∈ namedPresets cf, p ∈ registry.presetNames := by
  unfold presetsOf namedPresets
  cases cf.presets with
  | unspecified =>
    -- nothing is named, and the preset that stands in is always there
    have hchosen : ∀ p ∈ (if cf.rules.isEmpty then [defaultPreset] else []),
        p ∈ registry.presetNames := by
      split
      · simpa using hdefault
      · exact nofun
    exact ⟨fun _ => nofun, fun _ => hchosen⟩
  | one name => exact Iff.rfl
  | many names => exact Iff.rfl

section Build

variable {library : Library} {cf : ConfigFile} {overrides : Overrides} {source : Option String}

lemma build_of_textDefect {e : ConfigError}
    (h : TextDefect cf (overrides.rootAlias.getD cf.rootAlias) (origin source) e) :
    build library registry cf overrides source = (.error e, registry) := by
  simp only [build, checkFile_eq_error_iff.mpr h]

lemma build_of_properTexts (h : ProperTexts cf (overrides.rootAlias.getD cf.rootAlias)) :
    build library registry cf overrides source =
      match resolveRules library registry cf with
      | (.error e, registry) => (.error e, registry)
      | (.ok rules, registry) =>
        (.ok
          { policy :=
              { rootAlias := overrides.rootAlias.getD cf.rootAlias, extensions := cf.extensions }
            lintExtensions := lintExtensionsOf cf
            exclude := cf.exclude
            gitignore := overrides.gitignore.getD cf.gitignore
            rules, source }, registry) := by
  cases hresolve : resolveRules library registry cf with
  | mk result registry' =>
    cases result with
    | error e => simp only [build, checkFile_eq_ok_iff.mpr h, hresolve]
    | ok rules => simp only [build, checkFile_eq_ok_iff.mpr h, hresolve]

/-- A file is valid or has a first defect. -/
lemma valid_or_firstDefect (cf : ConfigFile) (hdefault : defaultPreset ∈ registry.presetNames)
    (rootAlias origin : String) :
    Valid registry cf rootAlias ∨ ∃ e, FirstDefect registry cf rootAlias origin e := by
  cases htexts : checkFile cf rootAlias origin with
  | error e => exact .inr ⟨e, .text (checkFile_eq_error_iff.mp htexts)⟩
  | ok u =>
    have htexts := checkFile_eq_ok_iff.mp htexts
    rcases forall_or_firstFailing (· ∈ registry.presetNames) (presetsOf cf) with
      hpresets | ⟨p, hp⟩
    · rcases forall_or_firstFailing (· ∈ registry.ruleNames) (mentionedRules registry cf) with
        hrules | ⟨n, hn⟩
      · exact .inl ⟨htexts, (forall_mem_presetsOf hdefault).mp hpresets, hrules⟩
      · exact .inr ⟨_, .rule htexts hpresets hn⟩
    · exact .inr ⟨_, .preset htexts hp⟩

variable (hcomplete : registry.Complete library) (hremembers : registry.Remembers library)

include hcomplete hremembers

/-- A valid file resolves, and its rules can be looked up in the registry that is left. -/
lemma exists_build (hdefault : defaultPreset ∈ registry.presetNames)
    (h : Valid registry cf (overrides.rootAlias.getD cf.rootAlias)) :
    ∃ cfg registry', build library registry cf overrides source = (.ok cfg, registry') ∧
      Holds registry cf overrides source cfg ∧
      ∀ n ∈ cfg.rules.names, ∃ r, (registry'.rule library n).1 = .ok r := by
  obtain ⟨rules, registry', hresolve, hmentioned, hfinds⟩ :=
    exists_resolveRules hcomplete hremembers
    ((forall_mem_presetsOf hdefault).mpr h.presets) h.rules
  refine ⟨_, registry', by rw [build_of_properTexts h.texts, hresolve], ?_, hfinds⟩
  refine ⟨rfl, rfl, ?_, rfl, rfl, hmentioned, rfl⟩
  show FirstOccurrences _ (lintExtensionsOf cf)
  rw [lintExtensionsOf_eq]
  exact firstOccurrences_dedup _

lemma build_of_firstDefect {e : ConfigError}
    (h : FirstDefect registry cf (overrides.rootAlias.getD cf.rootAlias) (origin source) e) :
    (build library registry cf overrides source).1 = .error e := by
  cases h with
  | text h => rw [build_of_textDefect h]
  | preset htexts hfirst => rw [build_of_properTexts htexts, resolveRules_of_preset library hfirst]
  | rule htexts hpresets hfirst =>
    have hresolve := resolveRules_of_rule hcomplete hremembers hpresets hfirst
    rw [build_of_properTexts htexts]
    cases hresolved : resolveRules library registry cf with
    | mk result registry' =>
      rw [hresolved] at hresolve
      simp only at hresolve
      rw [hresolve]

/-- A file is refused for its first defect and for nothing else. -/
lemma build_eq_error_iff (hdefault : defaultPreset ∈ registry.presetNames) {e : ConfigError} :
    (build library registry cf overrides source).1 = .error e ↔
      FirstDefect registry cf (overrides.rootAlias.getD cf.rootAlias) (origin source) e := by
  refine ⟨fun he => ?_, build_of_firstDefect hcomplete hremembers⟩
  rcases valid_or_firstDefect cf hdefault (overrides.rootAlias.getD cf.rootAlias)
    (origin source) with
    h | ⟨e', he'⟩
  · have hexists : ∃ cfg registry', build library registry cf overrides source =
      (.ok cfg, registry') ∧
        _ := exists_build hcomplete hremembers hdefault h
    obtain ⟨cfg, registry', hbuild, -⟩ := hexists
    cases he.symm.trans (congrArg Prod.fst hbuild)
  · rwa [Except.error.inj (he.symm.trans (build_of_firstDefect hcomplete hremembers he'))]

end Build

/-- Whatever presets are registered on top of the built-in registry, a file resolves exactly when it
is valid, and to a configuration that holds what the file and the overrides say and whose rules can
all be bound. Another file is refused, with the error for its first defect. -/
theorem build_decides (presets : List (String × Preset)) (cf : ConfigFile) (overrides : Overrides)
    (source : Option String) :
    let registry := Registry.withPresets presets
    let rootAlias := overrides.rootAlias.getD cf.rootAlias
    let answer := build .builtIn registry cf overrides source
    ((∃ cfg, answer.1 = .ok cfg) ↔ Valid registry cf rootAlias) ∧
      (∀ cfg, answer.1 = .ok cfg →
        Holds registry cf overrides source cfg ∧
          (∃ rules, (Check.bindRules .builtIn cfg answer.2).1 = .ok rules ∧
            (Check.bindRules .builtIn cfg .builtIn).1 = .ok rules) ∧
          ∀ n ∈ cfg.rules.names, ∃ r, (answer.2.rule .builtIn n).1 = .ok r) ∧
      ∀ e, answer.1 = .error e ↔ FirstDefect registry cf rootAlias (origin source) e := by
  intro registry rootAlias answer
  have hcomplete := Registry.complete_withPresets presets
  have hremembers := Registry.remembers_withPresets presets
  obtain ⟨hspecs, -, hdefault⟩ := Registry.withPresets_spec presets
  have hok : Valid registry cf rootAlias → ∃ cfg registry', answer = (.ok cfg, registry') ∧
      Holds registry cf overrides source cfg ∧
      ∀ n ∈ cfg.rules.names, ∃ r, (registry'.rule .builtIn n).1 = .ok r :=
    exists_build hcomplete hremembers hdefault
  have hfirst := valid_or_firstDefect cf hdefault rootAlias (origin source)
  -- an answer decides which of the two the file is
  have hvalid : ∀ cfg, answer.1 = .ok cfg → Valid registry cf rootAlias := by
    intro cfg hcfg
    refine hfirst.resolve_right fun ⟨e, he⟩ => ?_
    cases hcfg.symm.trans (build_of_firstDefect hcomplete hremembers he)
  refine ⟨⟨fun ⟨cfg, hcfg⟩ => hvalid cfg hcfg, fun h => ?_⟩, fun cfg hcfg => ?_,
    fun e => build_eq_error_iff hcomplete hremembers hdefault⟩
  · obtain ⟨cfg, registry', hbuild, -⟩ := hok h
    exact ⟨cfg, congrArg Prod.fst hbuild⟩
  · -- the registry that is left and the built-in one bind the same rules
    have hsame : answer.2.AnswersAs .builtIn .builtIn :=
      (answersAs_build .builtIn registry cf overrides source).trans
        (Registry.answersAs_withPresets .builtIn presets)
    have hcongr := Check.bindRules_congr hsame cfg
    obtain ⟨cfg', registry', hbuild, hholds, hfound⟩ := hok (hvalid cfg hcfg)
    rw [hbuild] at hcfg hcongr ⊢
    obtain rfl := Except.ok.inj hcfg
    obtain ⟨rules, hrules, -⟩ := Check.exists_bindRules hfound
    exact ⟨hholds, ⟨rules, hrules, hcongr.symm.trans hrules⟩, hfound⟩

/-- A preset that turns the built-in rule into a warning, and one with a rule that is not
registered. -/
def samplePresets : List (String × Preset) :=
  [("gentle", [(EntryImports.ruleName, .warn)]), ("broken", [("no-such-rule", .error)])]

/-- A file that repeats an extension to search. -/
def sampleFile : ConfigFile where
  presets := .one "gentle"
  rootAlias := "."
  lintExtensions := some [".ts", ".js", ".ts"]

/-- The sample file resolves when its alias is overridden. With its own alias and with unknown
presets and rules besides, it is the alias that is reported; else the preset comes before the rule.
-/
theorem build_decides_sampleFile :
    (∃ cfg, Holds (Registry.withPresets samplePresets) sampleFile
        { rootAlias := some "~" } none cfg ∧
      cfg.lintExtensions = [".ts", ".js"] ∧
      ∃ rules, (Check.bindRules .builtIn cfg .builtIn).1 = .ok rules) ∧
    FirstDefect (Registry.withPresets samplePresets) { sampleFile with presets := .one "lost" }
      "." "<defaults>" (.badAlias "<defaults>" ".") ∧
    FirstDefect (Registry.withPresets samplePresets)
      { sampleFile with presets := .many ["broken", "lost"] } "~" "<defaults>"
      (.registry (.unknownPreset "lost" (Registry.withPresets samplePresets).presetNames)) := by
  refine ⟨?_, ?_, ?_⟩
  · have h := build_decides samplePresets sampleFile { rootAlias := some "~" } none
    obtain ⟨hholds, ⟨rules, -, hrules⟩, -⟩ := h.2.1 _ rfl
    exact ⟨_, hholds, rfl, rules, hrules⟩
  · exact ((build_decides samplePresets { sampleFile with presets := .one "lost" } {} none).2.2
      _).mp
      rfl
  · exact ((build_decides samplePresets { sampleFile with presets := .many ["broken", "lost"] }
      { rootAlias := some "~" } none).2.2 _).mp rfl

end Config

end EntryLint
