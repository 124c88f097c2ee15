import EntryLint.Check
import EntryLint.Proofs.Config.Resolve
import EntryLint.Proofs.SortedNames

/-!
# Binding rules

The rules that a configuration switches on are looked up one after the other. A look-up changes no
later answer, so rules are bound as if each were looked up in the same registry (`outcome_bindAll`),
and registries with the same answers bind the same rules (`bindRules_congr`). Rules are bound in the
order of their names and keep their severities (`map_bindRules`, `pairwise_bindRules`).
-/

namespace EntryLint

namespace Check

variable {library : Library} {registry registry' : Registry} {cf : ConfigFile} {cfg : LintConfig}
  {rules : List BoundRule}

/-! ## Looking up in turn -/

/-- The rule of a name with a severity. -/
def bindOne (library : Library) (registry : Registry) (e : String × Severity) :
    Except RegistryError BoundRule :=
  (registry.rule library e.1).1.map fun rule => { rule, severity := e.2 }

lemma answersAs_bindAll (library : Library) (entries : NameMap Severity) : ∀ registry : Registry,
    (bindAll library entries registry).2.AnswersAs library registry := by
  induction entries with
  | nil => exact fun registry name => rfl
  | cons e entries ih =>
    intro registry
    have hsame : (registry.rule library e.1).2.AnswersAs library registry :=
      registry.rule_of_rule library e.1
    rw [bindAll]
    cases hrule : registry.rule library e.1 with
    | mk result next =>
      rw [hrule] at hsame
      cases result with
      | error e => exact hsame
      | ok r =>
        have hrest := ih next
        cases hbound : bindAll library entries next with
        | mk bound last =>
          rw [hbound] at hrest
          simp only [hbound]
          cases bound with
          | error e => exact hrest.trans hsame
          | ok bound => exact hrest.trans hsame

/-- Rules are bound as if each were looked up in the registry that is there at first. -/
lemma outcome_bindAll (library : Library) (entries : NameMap Severity) : ∀ registry : Registry,
    (bindAll library entries registry).1 = entries.mapM (bindOne library registry) := by
  induction entries with
  | nil => exact fun registry => rfl
  | cons e entries ih =>
    intro registry
    have hsame := registry.rule_of_rule library e.1
    rw [bindAll, List.mapM_cons, bindOne]
    cases hrule : registry.rule library e.1 with
    | mk result next =>
      rw [hrule] at hsame
      cases result with
      | error e => rfl
      | ok r =>
        have hnext : bindOne library next = bindOne library registry := by
          funext e
          rw [bindOne, bindOne, hsame]
        have hrest := ih next
        rw [hnext] at hrest
        show _ = (do
          let bound ← entries.mapM (bindOne library registry)
          pure (BoundRule.mk r e.2 :: bound))
        rw [← hrest]
        cases hbound : bindAll library entries next with
        | mk bound last =>
          simp only [hbound]
          cases bound with
          | error e => rfl
          | ok bound => rfl

lemma outcome_bindRules (library : Library) (cfg : LintConfig) (registry : Registry) :
    (bindRules library cfg registry).1 =
      (byName cfg.enabledRules).mapM (bindOne library registry) :=
  outcome_bindAll library _ registry

/-- Registries with the same answers bind the same rules. -/
lemma bindRules_congr (h : registry.AnswersAs library registry') (cfg : LintConfig) :
    (bindRules library cfg registry).1 = (bindRules library cfg registry').1 := by
  have hone : bindOne library registry = bindOne library registry' := by
    funext e
    rw [bindOne, bindOne, h]
  rw [outcome_bindRules, outcome_bindRules, hone]

/-- Binding rules changes no answer of the registry. -/
lemma answersAs_bindRules (library : Library) (cfg : LintConfig) (registry : Registry) :
    (bindRules library cfg registry).2.AnswersAs library registry :=
  answersAs_bindAll library _ registry

/-! ## Rules that are found -/

lemma exists_mapM_ok {ε α β : Type} {f : α → Except ε β} {P : β → Prop} {xs : List α}
    (h : ∀ x ∈ xs, ∃ y, f x = .ok y ∧ P y) : ∃ ys, xs.mapM f = .ok ys ∧ ∀ y ∈ ys, P y := by
  induction xs with
  | nil => exact ⟨[], rfl, by simp⟩
  | cons x xs ih =>
    rw [List.forall_mem_cons] at h
    obtain ⟨y, hy, hP⟩ := h.1
    obtain ⟨ys, hys, hPs⟩ := ih h.2
    refine ⟨y :: ys, ?_, List.forall_mem_cons.mpr ⟨hP, hPs⟩⟩
    rw [List.mapM_cons, hy, hys]
    rfl

lemma mem_byName {rules : NameMap Severity} {e : String × Severity} :
    e ∈ byName rules ↔ e ∈ rules :=
  List.mem_mergeSort

/-- The rules that are switched on are bound where all rules of a configuration are found. -/
lemma exists_bindRules (h : ∀ name ∈ cfg.rules.names, registry.Finds library name) :
    ∃ rules, (bindRules library cfg registry).1 = .ok rules ∧
      ∀ b ∈ rules, ∃ name, (name, b.severity) ∈ cfg.enabledRules ∧
        (registry.rule library name).1 = .ok b.rule := by
  rw [outcome_bindRules]
  apply exists_mapM_ok
  rintro ⟨name, severity⟩ he
  rw [mem_byName] at he
  obtain ⟨r, hr⟩ := h name (List.mem_map.mpr ⟨_, List.mem_of_mem_filter he, rfl⟩)
  refine ⟨{ rule := r, severity }, ?_, name, he, hr⟩
  rw [bindOne, hr]
  rfl

/-- The rules of a resolved configuration that are switched on are errors or warnings. -/
lemma exists_bindRules_of_resolved (h : Config.Resolved cf cfg) :
    ∃ rules, (bindRules .builtIn cfg .builtIn).1 = .ok rules ∧
      (cf.HasKnownSeverities → ∀ b ∈ rules, b.severity = .error ∨ b.severity = .warn) := by
  obtain ⟨rules, hrules, hfound⟩ := exists_bindRules h.found
  refine ⟨rules, hrules, fun hcf b hb => ?_⟩
  obtain ⟨name, hname, -⟩ := hfound b hb
  rw [LintConfig.enabledRules, List.mem_filter] at hname
  -- a severity that is known and not `off` is one of the two others
  rcases h.isKnown hcf _ hname.1 with hknown | hknown | hknown
  · exact .inl hknown
  · exact .inr hknown
  · exact absurd hknown (by simpa using hname.2)

lemma bindRules_of_off (library : Library) (registry : Registry)
    (h : ∀ e ∈ cfg.rules, e.2 = .off) : (bindRules library cfg registry).1 = .ok [] := by
  have hnone : cfg.enabledRules = [] := by
    rw [LintConfig.enabledRules, List.filter_eq_nil_iff]
    intro e he
    simpa using h e he
  rw [bindRules, hnone, byName, List.mergeSort_nil]
  rfl

/-! ## Names and severities -/

lemma map_of_mapM {ε α β γ : Type} {f : α → Except ε β} {g : β → γ} {k : α → γ}
    (hf : ∀ x y, f x = .ok y → g y = k x) {xs : List α} {ys : List β} (h : xs.mapM f = .ok ys) :
    ys.map g = xs.map k := by
  induction xs generalizing ys with
  | nil =>
    rw [← Except.ok.inj h]
    rfl
  | cons x xs ih =>
    rw [List.mapM_cons] at h
    cases hx : f x with
    | error e =>
      rw [hx] at h
      cases h
    | ok y =>
      cases hxs : xs.mapM f with
      | error e =>
        rw [hx, hxs] at h
        cases h
      | ok rest =>
        rw [hx, hxs] at h
        rw [← Except.ok.inj h, List.map_cons, List.map_cons, hf x y hx, ih hxs]

/-- Rules are bound in the order of their names, and keep their names and severities. -/
lemma map_bindRules (hsound : registry.Sound library)
    (h : (bindRules library cfg registry).1 = .ok rules) :
    rules.map (fun b => (b.rule.name, b.severity)) = byName cfg.enabledRules := by
  rw [outcome_bindRules] at h
  rw [← List.map_id (byName cfg.enabledRules)]
  refine map_of_mapM ?_ h
  rintro ⟨name, severity⟩ b hb
  rw [bindOne] at hb
  cases hrule : (registry.rule library name).1 with
  | error e =>
    rw [hrule] at hb
    cases hb
  | ok r =>
    rw [hrule] at hb
    rw [← Except.ok.inj hb, ← hsound.name_of_rule hrule]
    rfl

/-- Rules with different names are bound in strictly increasing order. -/
lemma pairwise_bindRules (hsound : registry.Sound library) (hnodup : cfg.rules.names.Nodup)
    (h : (bindRules library cfg registry).1 = .ok rules) :
    rules.Pairwise fun a b => a.rule.name < b.rule.name := by
  have hsorted : (byName cfg.enabledRules).map Prod.fst = sortNames cfg.enabledRules.names :=
    List.map_mergeSort fun _ _ _ _ => rfl
  have henabled : cfg.enabledRules.names.Nodup :=
    hnodup.sublist (List.filter_sublist.map Prod.fst)
  have hnames := increasing_sortNames henabled
  rw [← hsorted, ← map_bindRules hsound h, List.map_map] at hnames
  exact List.pairwise_map.mp hnames

end Check

end EntryLint
