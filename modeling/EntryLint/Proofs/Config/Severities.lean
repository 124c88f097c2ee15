import EntryLint.Proofs.Config.Build

/-!
# Severities of rules

Presets and a file's own rules are set one over the other. For the severity of a rule its last
mention counts (`get?_mergedRules`), and for its place the first (`names_mergedRules`). The rules
that are not switched off are then bound in the order of their names (`exists_binds`). The main
result is `resolveRules_merges`, for every library and for every registry that a run can leave.
-/

namespace EntryLint.Config

/-- Rules are merged from the presets and the own rules of a file: the severity of a rule is that of
the file, or else that of the last preset with one, and rules stand in the order of their first
mentions. -/
structure Merges (registry : Registry) (cf : ConfigFile) (rules : NameMap Severity) : Prop where
  severity : ∀ r, rules.get? r = (cf.rules.get? r).or
    ((presetsOf cf).reverse.findSome? fun p => (registry.severitiesIn p).get? r)
  names : FirstOccurrences (mentionedRules registry cf) rules.names

/-- Rules are bound as their severities say: exactly those that are not switched off, in the order
of their names, as the registry has them. -/
structure Binds (library : Library) (registry : Registry) (rules : NameMap Severity)
    (bound : List BoundRule) : Prop where
  severity : ∀ r s, (∃ b ∈ bound, b.rule.name = r ∧ b.severity = s) ↔
    rules.get? r = some s ∧ s ≠ .off
  found : ∀ b ∈ bound, (registry.rule library b.rule.name).1 = .ok b.rule
  increasing : bound.Pairwise fun a b => a.rule.name < b.rule.name

variable {library : Library} {registry : Registry} {cf : ConfigFile}

/-! ## Merging -/

/-- The presets that a file draws on are those that it names, or the recommended one if it names
neither presets nor rules. -/
lemma presetsOf_eq (cf : ConfigFile) :
    presetsOf cf =
      if cf.presets = .unspecified ∧ cf.rules = [] then ["recommended"] else namedPresets cf := by
  unfold presetsOf namedPresets
  cases hpresets : cf.presets with
  | unspecified => simp [List.isEmpty_iff, defaultPreset]
  | one name => simp
  | many names => simp

lemma nodup_severitiesIn (h : ∀ e ∈ registry.presets, (registry.content e.2).names.Nodup)
    (p : String) :
    (registry.severitiesIn p).names.Nodup := by
  rw [Registry.severitiesIn]
  cases hget : registry.presets.get? p with
  | some dictionary => exact h _ (NameMap.mem_of_get? hget)
  | none => exact List.nodup_nil

/-- Of presets that are set one over the other, the last one with a severity for a rule decides. -/
lemma get?_foldl_presets (h : ∀ e ∈ registry.presets, (registry.content e.2).names.Nodup)
    (r : String) (names : List String) (rules : NameMap Severity) :
    (names.foldl (fun rules p => rules.update (registry.severitiesIn p)) rules).get? r =
      (names.reverse.findSome? fun p => (registry.severitiesIn p).get? r).or (rules.get? r) := by
  induction names generalizing rules with
  | nil => rfl
  | cons p names ih =>
    -- the first preset is asked last
    rw [List.foldl_cons, ih, NameMap.get?_update (nodup_severitiesIn h p), List.reverse_cons,
      List.findSome?_append, List.findSome?_singleton, Option.or_assoc]

lemma get?_mergedRules (hpresets : ∀ e ∈ registry.presets, (registry.content e.2).names.Nodup)
    (hrules : cf.rules.names.Nodup) (r : String) :
    (mergedRules registry cf).get? r = (cf.rules.get? r).or
      ((presetsOf cf).reverse.findSome? fun p => (registry.severitiesIn p).get? r) := by
  rw [mergedRules, NameMap.get?_update hrules, get?_foldl_presets hpresets, NameMap.get?_nil,
    Option.or_none]

lemma merges_mergedRules (hpresets : ∀ e ∈ registry.presets, (registry.content e.2).names.Nodup)
    (hrules : cf.rules.names.Nodup) : Merges registry cf (mergedRules registry cf) := by
  refine ⟨get?_mergedRules hpresets hrules, ?_⟩
  rw [names_mergedRules]
  exact firstOccurrences_dedup _

/-! ## Binding -/

lemma exists_binds (hsound : registry.Sound library) {cfg : LintConfig}
    (hnodup : cfg.rules.names.Nodup) (hfinds : ∀ n ∈ cfg.rules.names, registry.Finds library n) :
    ∃ bound, (Check.bindRules library cfg registry).1 = .ok bound ∧
      Binds library registry cfg.rules bound := by
  obtain ⟨bound, hbind, hfound⟩ := Check.exists_bindRules hfinds
  refine ⟨bound, hbind, fun r s => ?_, fun b hb => ?_, Check.pairwise_bindRules hsound hnodup hbind⟩
  -- a rule declares the name that it is bound for, so the entries can be read off the bound rules
  · have hentries : (∃ b ∈ bound, b.rule.name = r ∧ b.severity = s) ↔
        (r, s) ∈ bound.map fun b => (b.rule.name, b.severity) := by
      simp only [List.mem_map, Prod.mk.injEq]
    rw [hentries, Check.map_bindRules hsound hbind, Check.mem_byName, LintConfig.enabledRules,
      List.mem_filter, NameMap.get?_eq_some_iff hnodup]
    simp
  · obtain ⟨name, -, hrule⟩ := hfound b hb
    rwa [hsound.name_of_rule hrule]

/-- The presets that a file draws on are those that it names, or the recommended one if it names
neither presets nor rules. Its rules are refused for the first preset or rule that is unknown.
Otherwise they are merged, and whatever configuration has them, exactly those that are not switched
off are bound, before and after the look-ups. -/
theorem resolveRules_merges (library : Library) (registry : Registry) (cf : ConfigFile)
    (hsound : registry.Sound library)
    (hpresets : ∀ e ∈ registry.presets, (registry.content e.2).names.Nodup)
    (hrules : cf.rules.names.Nodup) :
    presetsOf cf =
      (if cf.presets = .unspecified ∧ cf.rules = [] then ["recommended"] else namedPresets cf) ∧
    Settles (resolveRules library registry cf).1 (Refuses library registry cf) fun rules =>
      Merges registry cf rules ∧
      ∀ cfg : LintConfig, cfg.rules = rules →
        ∃ bound, (Check.bindRules library cfg registry).1 = .ok bound ∧
          (Check.bindRules library cfg (resolveRules library registry cf).2).1 = .ok bound ∧
          Binds library registry rules bound := by
  refine ⟨presetsOf_eq cf, (resolveRules_settles library registry cf).imp ?_⟩
  rintro rules ⟨rfl, hfinds⟩
  have hmerges := merges_mergedRules hpresets hrules
  refine ⟨hmerges, fun cfg hcfg => ?_⟩
  rw [Check.bindRules_congr (answersAs_resolveRules library registry cf), ← hcfg]
  rw [← hcfg] at hmerges
  obtain ⟨bound, hbind, hbinds⟩ := exists_binds hsound hmerges.names.nodup
    fun n hn => hfinds n ((hmerges.names.mem n).mp hn)
  exact ⟨bound, hbind, hbind, hbinds⟩

/-- The built-in rule under another name. -/
def sampleRule (name : String) : Rule :=
  { EntryImports.rule with info := { name } }

/-- A library with three rules. -/
def sampleLibrary : Library where
  home := "rules"
  modules := [("rules", { exported := [("A", .rule (sampleRule "depth")),
    ("B", .rule (sampleRule "alias")), ("C", .rule (sampleRule "order"))] })]

/-- The three rules, and two presets that both have a severity for one of them. -/
def sampleRegistry : Registry where
  specs := [("depth", ⟨".", "A"⟩), ("alias", ⟨".", "B"⟩), ("order", ⟨".", "C"⟩)]
  presets := [("base", 0), ("strict", 1)]
  dictionaries := [[("depth", .error), ("order", .warn)], [("alias", .error), ("depth", .warn)]]

/-- A file that draws on both presets and switches off a rule of the first. -/
def overlappingFile : ConfigFile where
  presets := .many ["base", "strict"]
  rules := [("order", .off)]

lemma sound_sample : sampleRegistry.Sound sampleLibrary :=
  ⟨by simp [sampleRegistry], by simp [sampleRegistry], by simp [sampleRegistry]⟩

/-- Where the presets overlap the later one decides, the rule stays at its first place, and the two
rules that are left are bound. -/
theorem resolveRules_merges_overlapping :
    sampleRegistry.Sound sampleLibrary ∧
    (∀ e ∈ sampleRegistry.presets, (sampleRegistry.content e.2).names.Nodup) ∧
    overlappingFile.rules.names.Nodup ∧
    (resolveRules sampleLibrary sampleRegistry overlappingFile).1 =
      .ok [("depth", .warn), ("order", .off), ("alias", .error)] ∧
    ∀ cfg : LintConfig, cfg.rules = [("depth", .warn), ("order", .off), ("alias", .error)] →
      ∃ bound, (Check.bindRules sampleLibrary cfg sampleRegistry).1 = .ok bound ∧
        Binds sampleLibrary sampleRegistry cfg.rules bound := by
  have hpresets : ∀ e ∈ sampleRegistry.presets, (sampleRegistry.content e.2).names.Nodup := by
    decide
  have hrules : overlappingFile.rules.names.Nodup := by decide
  have hresolve : (resolveRules sampleLibrary sampleRegistry overlappingFile).1 =
      .ok [("depth", .warn), ("order", .off), ("alias", .error)] := rfl
  refine ⟨sound_sample, hpresets, hrules, hresolve, ?_⟩
  obtain ⟨-, hsettles⟩ :=
    resolveRules_merges sampleLibrary sampleRegistry overlappingFile sound_sample hpresets hrules
  cases hsettles with
  | error eq _ => cases hresolve.symm.trans eq
  | ok eq _ h =>
    obtain rfl := Except.ok.inj (hresolve.symm.trans eq)
    intro cfg hcfg
    obtain ⟨bound, hbind, -, hbinds⟩ := h.2 cfg hcfg
    exact ⟨bound, hbind, hcfg ▸ hbinds⟩

end EntryLint.Config
