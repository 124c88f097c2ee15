import EntryLint.Proofs.Config.Defects
import EntryLint.Proofs.Registry.Run

/-!
# Resolved configurations

A registry remembers rules that it has looked up, which changes no answer (`Registry.rule_of_rule`).
So every rule of a configuration that was resolved can be looked up again, its severities are those
of its presets and its file, and the extensions that it searches are proper ones
(`Config.resolved_of_build`).
-/

namespace EntryLint

/-! ## Severities -/

/-- A severity is one of the three known ones. -/
def Severity.IsKnown (s : Severity) : Prop :=
  s = .error ∨ s = .warn ∨ s = .off

/-- The rules of a configuration file have known severities, as they do in every file that was read.
-/
def ConfigFile.HasKnownSeverities (cf : ConfigFile) : Prop :=
  ∀ e ∈ cf.rules, e.2.IsKnown

/-! ## Looking up rules -/

namespace Registry

/-- What a registry remembers is what it would find. -/
def Remembers (library : Library) (registry : Registry) : Prop :=
  ∀ name rule, registry.resolved.get? name = some rule →
    ∃ spec, registry.specs.get? name = some spec ∧ library.load name spec = .ok rule

/-- A registry has a rule under a name. -/
def Finds (library : Library) (registry : Registry) (name : String) : Prop :=
  ∃ r, (registry.rule library name).1 = .ok r

/-- Two registries have the same rules. -/
def AnswersAs (library : Library) (registry registry' : Registry) : Prop :=
  ∀ name, (registry.rule library name).1 = (registry'.rule library name).1

lemma AnswersAs.trans {library : Library} {first second third : Registry}
    (h : first.AnswersAs library second) (h' : second.AnswersAs library third) :
    first.AnswersAs library third :=
  fun name => (h name).trans (h' name)

/-- A rule that was looked up is remembered, which changes no answer. -/
lemma rule_of_rule (library : Library) (registry : Registry) (name other : String) :
    ((registry.rule library name).2.rule library other).1 = (registry.rule library other).1 := by
  rcases rule_cases library registry name with ⟨r, -, hrule⟩ | ⟨-, hrule⟩ |
    ⟨spec, e, -, -, hrule⟩ | ⟨spec, r, -, -, hrule⟩
  · rw [hrule]
  · rw [hrule]
  · rw [hrule]
  · by_cases heq : name = other
    · subst heq
      -- it was loaded, and is remembered now
      simp only [hrule]
      rw [rule, NameMap.get?_put, if_pos rfl]
    · rw [hrule, rule, rule, NameMap.get?_put, if_neg heq]
      cases hresolved : registry.resolved.get? other with
      | some found => rfl
      | none =>
        cases hspec : registry.specs.get? other with
        | none => rfl
        | some spec' =>
          cases hload : library.load other spec' with
          | error e => simp only [hload]
          | ok found => simp only [hload]

end Registry

namespace Config

variable {library : Library} {registry : Registry} {names : List String}

lemma answersAs_lookUpRules (library : Library) (names : List String) : ∀ registry : Registry,
    (lookUpRules library names registry).2.AnswersAs library registry := by
  induction names with
  | nil => exact fun registry name => rfl
  | cons name names ih =>
    intro registry
    have hsame : (registry.rule library name).2.AnswersAs library registry :=
      registry.rule_of_rule library name
    rw [lookUpRules]
    cases hrule : registry.rule library name with
    | mk result registry' =>
      rw [hrule] at hsame
      cases result with
      | error e => exact hsame
      | ok r => exact (ih registry').trans hsame

/-- Looking up rules fails with the first that the registry does not have, and only there. -/
lemma lookUpRules_settles (library : Library) (names : List String) : ∀ registry : Registry,
    Settles (lookUpRules library names registry).1
      (fun e => ∃ n, FirstFailing (registry.Finds library) names n ∧
        (registry.rule library n).1 = .error e)
      fun _ => ∀ n ∈ names, registry.Finds library n := by
  induction names with
  | nil =>
    refine fun registry => .ok rfl ?_ (by simp)
    rintro e ⟨n, hn, -⟩
    exact not_firstFailing_nil hn
  | cons name names ih =>
    intro registry
    have hsame := registry.rule_of_rule library name
    rw [lookUpRules]
    cases hrule : registry.rule library name with
    | mk result registry' =>
      rw [hrule] at hsame
      cases result with
      | error e =>
        have hnot : ¬ registry.Finds library name := by
          rintro ⟨r, hr⟩
          rw [hrule] at hr
          cases hr
        exact .error rfl ⟨name, firstFailing_cons_iff.mpr (.inl ⟨rfl, hnot⟩), by rw [hrule]⟩
      | ok r =>
        -- the later registry answers as the first, so the rest is about the first as well
        have hfinds : registry'.Finds library = registry.Finds library := by
          funext n
          simp only [Registry.Finds, hsame]
        have hname : registry.Finds library name := ⟨r, by rw [hrule]⟩
        have hrest := ih registry'
        simp only [hfinds, hsame] at hrest
        refine (hrest.congr fun e => exists_congr fun n => ?_).imp ?_
        · rw [firstFailing_cons_iff]
          simp [hname]
        · exact fun _ hnames => List.forall_mem_cons.mpr ⟨hname, hnames⟩

lemma exists_rule_of_lookUpRules (h : (lookUpRules library names registry).1 = .ok ()) :
    ∀ name ∈ names, ∃ r, (registry.rule library name).1 = .ok r := by
  cases lookUpRules_settles library names registry with
  | error eq _ => cases h.symm.trans eq
  | ok _ _ hfinds => exact hfinds

/-! ## Presets -/

lemma isKnown_of_preset {name : String} {preset : Preset}
    (h : Registry.builtIn.preset name = .ok preset) : ∀ e ∈ preset, e.2.IsKnown := by
  rw [Registry.preset_eq] at h
  cases hget : Registry.builtIn.presets.get? name with
  | none =>
    rw [hget] at h
    cases h
  | some dictionary =>
    rw [hget] at h
    -- one preset is built in, with one rule
    have hmem : (name, dictionary) ∈ [("recommended", 1)] := NameMap.mem_of_get? hget
    obtain ⟨-, rfl⟩ := Prod.mk.inj (List.mem_singleton.mp hmem)
    obtain rfl : [(EntryImports.ruleName, .error)] = preset := Except.ok.inj h
    intro e he
    rw [List.mem_singleton.mp he]
    exact .inl rfl

/-- What holds without presets and is kept by each of them holds of merged presets. -/
lemma mergePresets_induction {registry : Registry} {P : NameMap Severity → Prop} (hnil : P [])
    (hupdate : ∀ rules name preset, P rules → registry.preset name = .ok preset →
      P (rules.update preset))
    {names : List String} {merged : NameMap Severity}
    (h : mergePresets registry names = .ok merged) :
    P merged := by
  suffices hfold : ∀ (names : List String) (rules : NameMap Severity), P rules →
      names.foldlM (fun rules name => return rules.update (← registry.preset name)) rules =
        .ok merged → P merged from
    hfold names [] hnil h
  intro names
  induction names with
  | nil =>
    intro rules hrules heq
    obtain rfl : rules = merged := Except.ok.inj heq
    exact hrules
  | cons name names ih =>
    intro rules hrules heq
    rw [List.foldlM_cons] at heq
    cases hpreset : registry.preset name with
    | error e =>
      rw [hpreset] at heq
      cases heq
    | ok preset =>
      rw [hpreset] at heq
      exact ih _ (hupdate rules name preset hrules hpreset) heq

lemma isKnown_of_mergePresets {names : List String} {merged : NameMap Severity}
    (h : mergePresets .builtIn names = .ok merged) : ∀ e ∈ merged, e.2.IsKnown := by
  refine mergePresets_induction (P := fun rules => ∀ e ∈ rules, e.2.IsKnown) (by simp) ?_ h
  intro rules name preset hrules hpreset
  exact NameMap.forall_mem_update hrules (isKnown_of_preset hpreset)

/-! ## Resolving a file -/

lemma isExtension_of_checkFile {cf : ConfigFile} {rootAlias origin : String}
    (h : checkFile cf rootAlias origin = .ok ()) :
    ∀ e ∈ lintExtensionsOf cf, isExtension e = true := by
  have hproper := (checkFile_eq_ok_iff.mp h).lintExtensions
  rw [forall_mem_lintExtensionsOf]
  intro e he
  rw [isExtension_eq, decide_eq_true_iff]
  exact hproper e he

/-- What is known of a configuration that was resolved. -/
structure Resolved (cf : ConfigFile) (cfg : LintConfig) : Prop where
  rules : ∃ merged, mergePresets .builtIn (presetsOf cf) = .ok merged ∧
    cfg.rules = merged.update cf.rules
  found : ∀ name ∈ cfg.rules.names, ∃ r, (Registry.builtIn.rule .builtIn name).1 = .ok r
  extensions : ∀ e ∈ cfg.lintExtensions, isExtension e = true

lemma resolved_of_build {cf : ConfigFile} {overrides : Overrides} {source : Option String}
    {cfg : LintConfig} (h : (build .builtIn .builtIn cf overrides source).1 = .ok cfg) :
    Resolved cf cfg := by
  unfold build at h
  simp only at h
  split at h
  · cases h
  · rename_i hcheck
    split at h
    · cases h
    · rename_i rules registry hrules
      obtain rfl := Except.ok.inj h
      unfold resolveRules at hrules
      split at hrules
      · cases hrules
      · rename_i merged hmerged
        simp only at hrules
        split at hrules
        · cases hrules
        · rename_i registry' hlook
          obtain ⟨hok, -⟩ := Prod.mk.inj hrules
          obtain rfl := Except.ok.inj hok
          refine ⟨⟨merged, hmerged, rfl⟩, ?_, isExtension_of_checkFile hcheck⟩
          exact exists_rule_of_lookUpRules (by rw [hlook])

lemma answersAs_resolveRules (library : Library) (registry : Registry) (cf : ConfigFile) :
    (resolveRules library registry cf).2.AnswersAs library registry := by
  unfold resolveRules
  cases mergePresets registry (presetsOf cf) with
  | error e => exact fun name => rfl
  | ok merged =>
    have hsame := answersAs_lookUpRules library (merged.update cf.rules).names registry
    cases hlook : lookUpRules library (merged.update cf.rules).names registry with
    | mk result registry' =>
      rw [hlook] at hsame
      simp only [hlook]
      cases result with
      | error e => exact hsame
      | ok u => exact hsame

/-- Resolving a file changes no answer of the registry. -/
lemma answersAs_build (library : Library) (registry : Registry) (cf : ConfigFile)
    (overrides : Overrides) (source : Option String) :
    (build library registry cf overrides source).2.AnswersAs library registry := by
  have hresolve := answersAs_resolveRules library registry cf
  unfold build
  cases hcheck : checkFile cf (overrides.rootAlias.getD cf.rootAlias) (origin source) with
  | error e =>
    simp only [hcheck]
    exact fun name => rfl
  | ok u =>
    cases hrules : resolveRules library registry cf with
    | mk result registry' =>
      rw [hrules] at hresolve
      simp only [hcheck]
      cases result with
      | error e => exact hresolve
      | ok rules => exact hresolve

lemma Resolved.isKnown {cf : ConfigFile} {cfg : LintConfig} (h : Resolved cf cfg)
    (hcf : cf.HasKnownSeverities) : ∀ e ∈ cfg.rules, e.2.IsKnown := by
  obtain ⟨merged, hmerged, hrules⟩ := h.rules
  rw [hrules]
  exact NameMap.forall_mem_update (isKnown_of_mergePresets hmerged) hcf

/-- Every rule has one severity. -/
lemma Resolved.nodup_names {cf : ConfigFile} {cfg : LintConfig} (h : Resolved cf cfg) :
    cfg.rules.names.Nodup := by
  obtain ⟨merged, hmerged, hrules⟩ := h.rules
  have hnodup : merged.names.Nodup :=
    mergePresets_induction (P := fun rules => rules.names.Nodup) List.nodup_nil
      (fun _ _ _ hrules _ => NameMap.nodup_names_update hrules) hmerged
  rw [hrules]
  exact NameMap.nodup_names_update hnodup

end Config

end EntryLint
