import EntryLint.Proofs.NameMap
import EntryLint.Proofs.SortedNames
import EntryLint.Registry

/-!
# Runs of a registry

A registry is asked one thing after another: to register rules and presets, to look them up, to list
their names. What it remembers is kept true by every request (`Sound.perform`) and so by every run
(`sound_after`): a remembered rule comes from the library, declares the name that it is remembered
under, and is registered. A request that fails changes nothing (`perform_of_error`). Both together
are `sound_run`.
-/

namespace EntryLint

/-! ## Rules of a library -/

namespace Library

variable {library : Library}

/-- A module of the library has a rule among its exports. -/
def Offers (library : Library) (r : Rule) : Prop :=
  ∃ name m definition, library.modules.get? name = some m ∧
    m.exported.get? definition = some (.rule r)

/-- The errors of loading a rule: all but those for names that are not registered. -/
def IsLoadError : RegistryError → Prop
  | .unknownRule _ _ | .unknownPreset _ _ => False
  | _ => True

/-- Walking down a dotted name ends at a module of the library. -/
lemma exists_of_walk {parts : List String} {reached : String} {found m : LibraryModule}
    (hfound : library.modules.get? reached = some found)
    (h : library.walk reached found parts = .ok m) :
    ∃ name, library.modules.get? name = some m := by
  induction parts generalizing reached found with
  | nil =>
    obtain rfl := Except.ok.inj h
    exact ⟨reached, hfound⟩
  | cons part parts ih =>
    rw [walk] at h
    cases hnext : library.modules.get? (reached ++ "." ++ part) with
    | none =>
      simp only [hnext] at h
      cases h
    | some next =>
      simp only [hnext] at h
      exact ih hnext h

lemma isLoadError_of_walk {parts : List String} {reached : String} {found : LibraryModule}
    {e : RegistryError} (h : library.walk reached found parts = .error e) : IsLoadError e := by
  induction parts generalizing reached found with
  | nil => cases h
  | cons part parts ih =>
    rw [walk] at h
    cases hnext : library.modules.get? (reached ++ "." ++ part) with
    | none =>
      simp only [hnext] at h
      obtain rfl := Except.error.inj h
      split <;> trivial
    | some next =>
      simp only [hnext] at h
      exact ih h

lemma isLoadError_of_fullName {name : String} {e : RegistryError}
    (h : library.fullName name = .error e) : IsLoadError e := by
  unfold fullName at h
  simp only at h
  split at h
  · obtain rfl := Except.error.inj h
    trivial
  · split at h
    · cases h
    · split at h
      · obtain rfl := Except.error.inj h
        trivial
      · cases h

lemma exists_of_find {name : String} {m : LibraryModule} (h : library.find name = .ok m) :
    ∃ full, library.modules.get? full = some m := by
  unfold find at h
  cases hfull : library.fullName name with
  | error e =>
    rw [hfull] at h
    cases h
  | ok full =>
    rw [hfull] at h
    simp only [bind, Except.bind] at h
    split at h
    · cases h
    · split at h
      · cases h
      · rename_i found hfound
        exact exists_of_walk hfound h

lemma isLoadError_of_find {name : String} {e : RegistryError} (h : library.find name = .error e) :
    IsLoadError e := by
  unfold find at h
  cases hfull : library.fullName name with
  | error e' =>
    rw [hfull] at h
    obtain rfl := Except.error.inj h
    exact isLoadError_of_fullName hfull
  | ok full =>
    rw [hfull] at h
    simp only [bind, Except.bind] at h
    split at h
    · obtain rfl := Except.error.inj h
      trivial
    · split at h
      · obtain rfl := Except.error.inj h
        trivial
      · exact isLoadError_of_walk h

/-- What is loaded under a name is a rule of the library that declares this name. -/
lemma offers_of_load {name : String} {spec : RuleSpec} {r : Rule}
    (h : library.load name spec = .ok r) : library.Offers r ∧ r.name = name := by
  unfold load at h
  cases hfind : library.find spec.module with
  | error e =>
    rw [hfind] at h
    cases h
  | ok m =>
    rw [hfind] at h
    obtain ⟨full, hfull⟩ := exists_of_find hfind
    simp only [bind, Except.bind] at h
    split at h
    case h_5 found hexport =>
      split at h
      · rename_i hname
        obtain rfl := Except.ok.inj h
        exact ⟨⟨full, m, spec.definition, hfull, hexport⟩, hname⟩
      · cases h
    all_goals cases h

/-- Loading never fails for want of a registration. -/
lemma isLoadError_of_load {name : String} {spec : RuleSpec} {e : RegistryError}
    (h : library.load name spec = .error e) : IsLoadError e := by
  unfold load at h
  cases hfind : library.find spec.module with
  | error e' =>
    rw [hfind] at h
    obtain rfl := Except.error.inj h
    exact isLoadError_of_find hfind
  | ok m =>
    rw [hfind] at h
    simp only [bind, Except.bind] at h
    split at h
    case h_5 =>
      split at h
      · cases h
      · obtain rfl := Except.error.inj h
        trivial
    all_goals
      obtain rfl := Except.error.inj h
      trivial

end Library

namespace Registry

/-! ## Requests -/

/-- What a registry can be asked for. -/
inductive Request where
  | registerRule (name : String) (spec : RuleSpec)
  | registerPreset (name : String) (preset : Preset)
  | rule (name : String)
  | preset (name : String)
  | ruleNames
  | presetNames

/-- What a registry answers. -/
inductive Answer where
  | registered
  | rule (r : Rule)
  | preset (p : Preset)
  | names (ns : List String)

/-- Registers a preset in a dictionary that is made for it. -/
def registerNew (registry : Registry) (name : String) (preset : Preset) : Registry :=
  (registry.allocate preset).2.registerPreset name (registry.allocate preset).1

/-- Answers a request, and gives the registry that it leaves. -/
def perform (library : Library) (registry : Registry) :
    Request → Except RegistryError Answer × Registry
  | .registerRule name spec => (.ok .registered, registry.registerRule name spec)
  | .registerPreset name preset => (.ok .registered, registry.registerNew name preset)
  | .rule name => ((registry.rule library name).1.map .rule, (registry.rule library name).2)
  | .preset name => ((registry.preset name).map .preset, (registry.getPreset name).2)
  | .ruleNames => (.ok (.names registry.ruleNames), registry)
  | .presetNames => (.ok (.names registry.presetNames), registry)

/-- The registry that some requests leave, from the built-in one on. -/
def after (library : Library) (requests : List Request) : Registry :=
  requests.foldl (fun registry request => (registry.perform library request).2) builtIn

variable {library : Library} {registry : Registry}

lemma mem_ruleNames {name : String} : name ∈ registry.ruleNames ↔ name ∈ registry.specs.names :=
  mem_sortNames

lemma mem_ruleNames_of_spec {name : String} {spec : RuleSpec}
    (h : registry.specs.get? name = some spec) : name ∈ registry.ruleNames := by
  rw [mem_ruleNames]
  by_contra hnot
  rw [NameMap.get?_eq_none_iff.mpr hnot] at h
  cases h

/-! ## Looking up a rule -/

/-- Everything that looking up a rule can do: it is remembered, it is not registered, it cannot be
loaded, or it is loaded and remembered from then on. -/
lemma rule_cases (library : Library) (registry : Registry) (name : String) :
    (∃ r, registry.resolved.get? name = some r ∧
      registry.rule library name = (.ok r, registry)) ∨
    (name ∉ registry.ruleNames ∧
      registry.rule library name = (.error (.unknownRule name registry.ruleNames), registry)) ∨
    (∃ spec e, registry.specs.get? name = some spec ∧ library.load name spec = .error e ∧
      registry.rule library name = (.error e, registry)) ∨
    ∃ spec r, registry.specs.get? name = some spec ∧ library.load name spec = .ok r ∧
      registry.rule library name =
        (.ok r, { registry with resolved := registry.resolved.put name r }) := by
  rw [rule]
  cases hresolved : registry.resolved.get? name with
  | some r => exact .inl ⟨r, rfl, rfl⟩
  | none =>
    cases hspec : registry.specs.get? name with
    | none => exact .inr (.inl ⟨mt mem_ruleNames.mp (NameMap.get?_eq_none_iff.mp hspec), rfl⟩)
    | some spec =>
      cases hload : library.load name spec with
      | error e => exact .inr (.inr (.inl ⟨spec, e, rfl, hload, by simp only [hload]⟩))
      | ok r => exact .inr (.inr (.inr ⟨spec, r, rfl, hload, by simp only [hload]⟩))

/-- Everything that asking for a preset can do: it is copied, or there is none. -/
lemma getPreset_cases (registry : Registry) (name : String) :
    (∃ dictionary, registry.presets.get? name = some dictionary ∧
      registry.getPreset name = ((.ok (registry.allocate (registry.content dictionary)).1),
        (registry.allocate (registry.content dictionary)).2)) ∨
    (registry.presets.get? name = none ∧
      registry.getPreset name = (.error (.unknownPreset name registry.presetNames), registry)) := by
  rw [getPreset]
  cases registry.presets.get? name with
  | some dictionary => exact .inl ⟨dictionary, rfl, rfl⟩
  | none => exact .inr ⟨rfl, rfl⟩

/-- A dictionary that was made holds what it was made with. -/
lemma content_allocate (registry : Registry) (preset : Preset) :
    (registry.allocate preset).2.content (registry.allocate preset).1 = preset := by
  simp [allocate, content]

/-- The copy of a preset holds what the preset does. -/
lemma preset_eq (registry : Registry) (name : String) :
    registry.preset name =
      match registry.presets.get? name with
      | some dictionary => .ok (registry.content dictionary)
      | none => .error (.unknownPreset name registry.presetNames) := by
  rw [preset]
  rcases getPreset_cases registry name with ⟨dictionary, hget, hcopy⟩ | ⟨hget, hcopy⟩
  · rw [hcopy, hget]
    show Except.ok _ = _
    rw [content_allocate]
  · rw [hcopy, hget]
    rfl

/-- A request that fails leaves everything as it was. -/
lemma perform_of_error {request : Request} {e : RegistryError}
    (h : (registry.perform library request).1 = .error e) :
    (registry.perform library request).2 = registry := by
  cases request with
  | registerRule name spec => cases h
  | registerPreset name preset => cases h
  | rule name =>
    simp only [perform] at h ⊢
    rcases rule_cases library registry name with
      ⟨r, -, hrule⟩ | ⟨-, hrule⟩ | ⟨spec, e', -, -, hrule⟩ | ⟨spec, r, -, -, hrule⟩
    · rw [hrule]
    · rw [hrule]
    · rw [hrule]
    · rw [hrule] at h
      cases h
  | preset name =>
    simp only [perform] at h ⊢
    rcases getPreset_cases registry name with ⟨dictionary, hget, -⟩ | ⟨-, hcopy⟩
    · rw [preset_eq, hget] at h
      cases h
    · rw [hcopy]
  | ruleNames => cases h
  | presetNames => cases h

/-! ## What is remembered -/

/-- What a registry remembers is true: a remembered rule comes from the library, declares the name
that it is remembered under, and is registered. -/
structure Sound (library : Library) (registry : Registry) : Prop where
  offered : ∀ e ∈ registry.resolved, library.Offers e.2
  named : ∀ e ∈ registry.resolved, e.2.name = e.1
  registered : ∀ e ∈ registry.resolved, e.1 ∈ registry.ruleNames

lemma sound_builtIn (library : Library) : builtIn.Sound library :=
  ⟨nofun, nofun, nofun⟩

/-- Registering a rule drops no name. -/
lemma mem_ruleNames_registerRule {name n : String} {spec : RuleSpec} (h : n ∈ registry.ruleNames) :
    n ∈ (registry.registerRule name spec).ruleNames :=
  mem_ruleNames.mpr (NameMap.mem_names_put.mpr (.inr (mem_ruleNames.mp h)))

/-- A request keeps what is remembered true. -/
lemma Sound.perform (h : registry.Sound library) (request : Request) :
    (registry.perform library request).2.Sound library := by
  cases request with
  | registerRule name spec =>
    exact ⟨h.offered, h.named, fun e he => mem_ruleNames_registerRule (h.registered e he)⟩
  | registerPreset name preset => exact ⟨h.offered, h.named, h.registered⟩
  | rule name =>
    simp only [Registry.perform]
    rcases rule_cases library registry name with
      ⟨r, -, hrule⟩ | ⟨-, hrule⟩ | ⟨spec, e, -, -, hrule⟩ | ⟨spec, r, hspec, hload, hrule⟩
    · rwa [hrule]
    · rwa [hrule]
    · rwa [hrule]
    · rw [hrule]
      -- one more rule is remembered, right after all its checks
      obtain ⟨hoffers, hname⟩ := Library.offers_of_load hload
      have hregistered := mem_ruleNames_of_spec hspec
      refine ⟨fun e he => ?_, fun e he => ?_, fun e he => ?_⟩
      all_goals rcases NameMap.mem_put he with rfl | he
      · exact hoffers
      · exact h.offered e he
      · exact hname
      · exact h.named e he
      · exact hregistered
      · exact h.registered e he
  | preset name =>
    simp only [Registry.perform]
    rcases getPreset_cases registry name with ⟨dictionary, -, hcopy⟩ | ⟨-, hcopy⟩
    · rw [hcopy]
      exact ⟨h.offered, h.named, h.registered⟩
    · rwa [hcopy]
  | ruleNames => exact h
  | presetNames => exact h

lemma sound_after (library : Library) (requests : List Request) :
    (after library requests).Sound library := by
  suffices hrun : ∀ registry : Registry, registry.Sound library →
      (requests.foldl (fun registry request => (registry.perform library request).2)
        registry).Sound library from
    hrun builtIn (sound_builtIn library)
  induction requests with
  | nil => exact fun _ h => h
  | cons request requests ih => exact fun registry h => ih _ (h.perform request)

/-- A rule that is found declares the name that it is asked for by. -/
lemma Sound.name_of_rule (h : registry.Sound library) {name : String} {r : Rule}
    (hr : (registry.rule library name).1 = .ok r) : r.name = name := by
  rcases rule_cases library registry name with
    ⟨found, hfound, hrule⟩ | ⟨-, hrule⟩ | ⟨spec, e, -, -, hrule⟩ | ⟨spec, found, -, hload, hrule⟩
  · rw [hrule] at hr
    rw [← Except.ok.inj hr]
    exact h.named _ (NameMap.mem_of_get? hfound)
  · rw [hrule] at hr
    cases hr
  · rw [hrule] at hr
    cases hr
  · rw [hrule] at hr
    rw [← Except.ok.inj hr]
    exact (Library.offers_of_load hload).2

/-- Where what is remembered is true, exactly the names that are not listed are unknown. -/
lemma Sound.unknownRule_iff (h : registry.Sound library) {name : String} :
    (∃ n known, (registry.rule library name).1 = .error (.unknownRule n known)) ↔
      name ∉ registry.ruleNames := by
  rcases rule_cases library registry name with
    ⟨r, hr, hrule⟩ | ⟨hnot, hrule⟩ | ⟨spec, e, hspec, hload, hrule⟩ | ⟨spec, r, hspec, -, hrule⟩
  · have hlisted := h.registered _ (NameMap.mem_of_get? hr)
    simp [hrule, hlisted]
  · simp [hrule, hnot]
  · have hlisted := mem_ruleNames_of_spec hspec
    simp only [hrule, hlisted, not_true, iff_false]
    rintro ⟨n, known, heq⟩
    rw [Except.error.inj heq] at hload
    exact Library.isLoadError_of_load hload
  · simp [hrule, mem_ruleNames_of_spec hspec]

/-- After every run, a remembered rule is a rule of the library that declares the name it is
remembered under, and this name is listed; a look-up calls exactly the names unknown that are not
listed; and a request that fails leaves registrations, remembered rules and presets as they were. -/
theorem sound_run (library : Library) (requests : List Request) :
    (∀ e ∈ (after library requests).resolved,
      library.Offers e.2 ∧ e.2.name = e.1 ∧ e.1 ∈ (after library requests).ruleNames) ∧
    (∀ name, (∃ n known,
        ((after library requests).rule library name).1 = .error (.unknownRule n known)) ↔
      name ∉ (after library requests).ruleNames) ∧
    ∀ request e, ((after library requests).perform library request).1 = .error e →
      ((after library requests).perform library request).2 = after library requests := by
  have hsound := sound_after library requests
  refine ⟨fun e he => ?_, fun name => hsound.unknownRule_iff, fun request e => perform_of_error⟩
  exact ⟨hsound.offered e he, hsound.named e he, hsound.registered e he⟩

/-- A run that looks up the built-in rule and then registers its definition under a second name. -/
def sampleRequests : List Request :=
  [.rule EntryImports.ruleName,
    .registerRule "other" { module := ".entry_imports", definition := "EntryImportsRule" }]

theorem sound_run_sampleRequests :
    (EntryImports.ruleName, EntryImports.rule) ∈ (after .builtIn sampleRequests).resolved ∧
    EntryImports.rule.name = EntryImports.ruleName ∧
    ((after .builtIn sampleRequests).perform .builtIn (.rule "other")).1 =
      .error (.misnamed "other" EntryImports.ruleName) ∧
    ((after .builtIn sampleRequests).perform .builtIn (.rule "other")).2 =
      after .builtIn sampleRequests ∧
    ∃ n known, ((after .builtIn sampleRequests).rule .builtIn "absent").1 =
      .error (.unknownRule n known) := by
  have hremembered :
      (EntryImports.ruleName, EntryImports.rule) ∈ (after .builtIn sampleRequests).resolved :=
    List.mem_singleton.mpr rfl
  have hmisnamed : ((after .builtIn sampleRequests).perform .builtIn (.rule "other")).1 =
      .error (.misnamed "other" EntryImports.ruleName) := rfl
  obtain ⟨hsound, hunknown, hunchanged⟩ := sound_run .builtIn sampleRequests
  refine ⟨hremembered, (hsound _ hremembered).2.1, hmisnamed, hunchanged _ _ hmisnamed, ?_⟩
  rw [hunknown, mem_ruleNames]
  decide

end Registry

end EntryLint
