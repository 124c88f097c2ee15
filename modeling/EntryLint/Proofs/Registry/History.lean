import EntryLint.Proofs.Registry.Run
import Mathlib.Data.List.Basic
import Mathlib.Data.List.Induction

/-!
# What a registry answers by its history

A registry holds three things under a name: where its rule is defined, the rule if it was found, and
what the dictionary of its preset holds (`Registry.entry`). A request about another name changes
none of them (`entry_perform_of_other`), and what a request does to them depends on nothing else
(`entry_perform_congr`). So answers about a name depend on the requests about it alone, and those
are read off the history: a rule that was found stays, a rule that was not is loaded by its last
registration, and a preset is the one registered last.

Callers hold dictionaries by reference and may change them. The registry keeps its presets in
dictionaries of its own, because it copies what it takes and what it hands out: no dictionary of a
preset is ever in the hands of a caller (`Callers.Apart`), so what callers do to theirs leaves no
trace. The main result is `answers_from_history`.
-/

namespace EntryLint

/-- An error about a name that is not registered, without the names that are. -/
def RegistryError.withoutKnown : RegistryError → RegistryError
  | .unknownRule name _ => .unknownRule name []
  | .unknownPreset name _ => .unknownPreset name []
  | e => e

namespace Registry

/-! ## Histories -/

/-- The registry that some requests leave, from the empty one on. -/
def replay (library : Library) (requests : List Request) : Registry :=
  requests.foldl (fun registry request => (registry.perform library request).2) {}

namespace Request

/-- The name that a request is about; a request for a list is about none. -/
def name? : Request → Option String
  | .registerRule name _ => some name
  | .registerPreset name _ => some name
  | .rule name => some name
  | .preset name => some name
  | .ruleNames => none
  | .presetNames => none

/-- Where a request says that the rule of a name is defined. -/
def spec? (n : String) : Request → Option RuleSpec
  | .registerRule name spec => if name = n then some spec else none
  | _ => none

/-- The preset that a request registers under a name. -/
def preset? (n : String) : Request → Option Preset
  | .registerPreset name given => if name = n then some given else none
  | _ => none

end Request

/-- Where the rule of a name is defined, by its last registration. -/
def lastSpec? (n : String) (requests : List Request) : Option RuleSpec :=
  requests.reverse.findSome? (Request.spec? n)

/-- The preset that was registered last under a name. -/
def lastPreset? (n : String) (requests : List Request) : Option Preset :=
  requests.reverse.findSome? (Request.preset? n)

/-- A look-up of a name gave a rule. -/
def WasFound (library : Library) (requests : List Request) (n : String) (r : Rule) : Prop :=
  ∃ before after, requests = before ++ .rule n :: after ∧
    ((replay library before).rule library n).1 = .ok r

/-- What a registry answers about a name, by what it was asked for before. -/
structure Recalls (library : Library) (requests : List Request) (registry : Registry) (n : String) :
    Prop where
  found : ∀ r, WasFound library requests n r → (registry.rule library n).1 = .ok r
  loaded : (∀ r, ¬WasFound library requests n r) → (registry.rule library n).1 =
    match lastSpec? n requests with
    | some spec => library.load n spec
    | none => .error (.unknownRule n registry.ruleNames)
  preset : registry.preset n =
    match lastPreset? n requests with
    | some preset => .ok preset
    | none => .error (.unknownPreset n registry.presetNames)

/-- Two registries answer alike about a name, but for the names that they know. -/
structure AnswersAlike (library : Library) (n : String) (registry registry' : Registry) : Prop where
  rule : (registry.rule library n).1.mapError RegistryError.withoutKnown =
    (registry'.rule library n).1.mapError RegistryError.withoutKnown
  preset : (registry.preset n).mapError RegistryError.withoutKnown =
    (registry'.preset n).mapError RegistryError.withoutKnown

/-- Of a run with marked requests, only requests that are about other names or that fail are marked
to be left out. -/
def LeavesOut (library : Library) (n : String) (marked : List (Request × Bool)) : Prop :=
  ∀ before request after, marked = before ++ (request, false) :: after →
    request.name? ≠ some n ∨
      ∃ e, ((replay library (before.map Prod.fst)).perform library request).1 = .error e

/-! ## Callers -/

/-- A step of callers. -/
inductive Step where
  /-- Asks the registry. A preset to register is made for it, and stays in the caller's hands. -/
  | ask (request : Request)
  /-- Registers a dictionary that callers hold. -/
  | register (name : String) (place : Nat)
  /-- Changes a dictionary that callers hold. -/
  | change (place : Nat) (preset : Preset)

/-- A registry with its callers: the dictionaries that they hold, since they made or received them,
and what they asked for, each preset as it was when it was handed over. -/
structure Callers where
  registry : Registry := {}
  held : List Nat := []
  asked : List Request := []

namespace Callers

/-- The dictionaries that a request leaves in the hands of a caller. -/
def passed (registry : Registry) : Request → List Nat
  | .registerPreset _ preset => [(registry.allocate preset).1]
  | .preset name => (registry.getPreset name).1.toOption.toList
  | _ => []

/-- What a step leaves. -/
def step (library : Library) (c : Callers) : Step → Callers
  | .ask request =>
    { registry := (c.registry.perform library request).2
      held := c.held ++ passed c.registry request
      asked := c.asked ++ [request] }
  | .register name place =>
    match c.held[place]? with
    | some dictionary =>
      { c with
        registry := c.registry.registerPreset name dictionary
        asked := c.asked ++ [.registerPreset name (c.registry.content dictionary)] }
    | none => c
  | .change place preset =>
    match c.held[place]? with
    | some dictionary =>
      { c with registry :=
          { c.registry with dictionaries := c.registry.dictionaries.set dictionary preset } }
    | none => c

/-- What some steps leave. -/
def run (library : Library) (steps : List Step) : Callers :=
  steps.foldl (step library) {}

end Callers

variable {library : Library} {registry registry' : Registry} {n : String}

lemma replay_concat (requests : List Request) (request : Request) :
    replay library (requests ++ [request]) =
      ((replay library requests).perform library request).2 := by
  rw [replay, List.foldl_append]
  rfl

/-! ## What is held under a name -/

/-- What can be held under one name: where its rule is defined, its rule, and a preset. -/
structure Entry where
  spec? : Option RuleSpec
  found? : Option Rule
  preset? : Option Preset

/-- What the dictionary of a preset holds. -/
def presetOf? (registry : Registry) (n : String) : Option Preset :=
  (registry.presets.get? n).map registry.content

/-- What a registry holds under a name. -/
def entry (registry : Registry) (n : String) : Entry where
  spec? := registry.specs.get? n
  found? := registry.resolved.get? n
  preset? := registry.presetOf? n

/-- The dictionaries of all presets were made. -/
def Stored (registry : Registry) : Prop :=
  ∀ e ∈ registry.presets, e.2 < registry.dictionaries.length

lemma content_of_append {more : List Preset}
    (h : registry'.dictionaries = registry.dictionaries ++ more) {dictionary : Nat}
    (hmade : dictionary < registry.dictionaries.length) :
    registry'.content dictionary = registry.content dictionary := by
  rw [content, content, h, List.getD_eq_getElem?_getD, List.getElem?_append_left hmade,
    List.getD_eq_getElem?_getD]

/-- Making a dictionary changes no other. -/
lemma Stored.presetOf?_allocate (h : registry.Stored) (preset : Preset) (n : String) :
    (registry.allocate preset).2.presetOf? n = registry.presetOf? n := by
  show (registry.presets.get? n).map _ = (registry.presets.get? n).map _
  cases hget : registry.presets.get? n with
  | none => rfl
  | some dictionary =>
    have hmade := h _ (NameMap.mem_of_get? hget)
    rw [Option.map_some, Option.map_some, content_of_append rfl hmade]

lemma Stored.allocate (h : registry.Stored) (preset : Preset) :
    (registry.allocate preset).2.Stored := by
  intro e he
  rw [Registry.allocate, List.length_append]
  exact Nat.lt_add_right _ (h e he)

/-- A preset that is registered holds what its dictionary held. -/
lemma Stored.presetOf?_registerPreset (h : registry.Stored) (name : String) (dictionary : Nat)
    (n : String) :
    (registry.registerPreset name dictionary).presetOf? n =
      if name = n then some (registry.content dictionary) else registry.presetOf? n := by
  show ((registry.presets.put name (registry.allocate (registry.content dictionary)).1).get? n).map
    (registry.allocate (registry.content dictionary)).2.content = _
  rw [NameMap.get?_put]
  split
  · rw [Option.map_some, content_allocate]
  · exact h.presetOf?_allocate _ n

lemma Stored.registerPreset (h : registry.Stored) (name : String) (dictionary : Nat) :
    (registry.registerPreset name dictionary).Stored := by
  intro e he
  rw [Registry.registerPreset, Registry.allocate, List.length_append]
  rcases NameMap.mem_put he with rfl | he
  · exact Nat.lt_succ_self _
  · exact Nat.lt_add_right _ (h e he)

lemma Stored.presetOf?_registerNew (h : registry.Stored) (name : String) (preset : Preset)
    (n : String) :
    (registry.registerNew name preset).presetOf? n =
      if name = n then some preset else registry.presetOf? n := by
  rw [registerNew, (h.allocate preset).presetOf?_registerPreset, content_allocate,
    h.presetOf?_allocate]

/-- Asking for a preset makes a dictionary at most. -/
lemma exists_dictionaries_getPreset (registry : Registry) (name : String) :
    ∃ dictionaries, (registry.getPreset name).2 = { registry with dictionaries } := by
  rcases getPreset_cases registry name with ⟨dictionary, -, hcopy⟩ | ⟨-, hcopy⟩
  all_goals
    rw [hcopy]
    exact ⟨_, rfl⟩

lemma Stored.entry_getPreset (h : registry.Stored) (name n : String) :
    (registry.getPreset name).2.entry n = registry.entry n := by
  rcases getPreset_cases registry name with ⟨dictionary, -, hcopy⟩ | ⟨-, hcopy⟩
  · rw [hcopy, entry, entry, h.presetOf?_allocate]
    rfl
  · rw [hcopy]

/-- A look-up changes nothing but what is remembered. -/
lemma exists_resolved_rule (library : Library) (registry : Registry) (name : String) :
    ∃ resolved, (registry.rule library name).2 = { registry with resolved } := by
  rcases rule_cases library registry name with
    ⟨r, -, hrule⟩ | ⟨-, hrule⟩ | ⟨spec, e, -, -, hrule⟩ | ⟨spec, r, -, -, hrule⟩
  all_goals
    rw [hrule]
    exact ⟨_, rfl⟩

lemma specs_rule (library : Library) (registry : Registry) (name : String) :
    (registry.rule library name).2.specs = registry.specs := by
  obtain ⟨resolved, h⟩ := exists_resolved_rule library registry name
  rw [h]

lemma presetOf?_rule (library : Library) (registry : Registry) (name n : String) :
    (registry.rule library name).2.presetOf? n = registry.presetOf? n := by
  obtain ⟨resolved, h⟩ := exists_resolved_rule library registry name
  rw [h]
  rfl

lemma Stored.perform (h : registry.Stored) (library : Library) (request : Request) :
    (registry.perform library request).2.Stored := by
  cases request with
  | registerPreset name preset => exact (h.allocate preset).registerPreset name _
  | rule name =>
    obtain ⟨resolved, hrule⟩ := exists_resolved_rule library registry name
    show (registry.rule library name).2.Stored
    rw [hrule]
    exact h
  | preset name =>
    show (registry.getPreset name).2.Stored
    rcases getPreset_cases registry name with ⟨dictionary, -, hcopy⟩ | ⟨-, hcopy⟩
    · rw [hcopy]
      exact h.allocate _
    · rwa [hcopy]
  | registerRule name spec => exact h
  | ruleNames => exact h
  | presetNames => exact h

lemma stored_replay (library : Library) (requests : List Request) :
    (replay library requests).Stored := by
  induction requests using List.reverseRecOn with
  | nil => exact nofun
  | append_singleton requests request ih =>
    rw [replay_concat]
    exact ih.perform library request

/-- A look-up remembers what it gives, under its own name only. -/
lemma resolved_rule (library : Library) (registry : Registry) (name n : String) :
    (registry.rule library name).2.resolved.get? n =
      if name = n then (registry.rule library name).1.toOption else registry.resolved.get? n := by
  rw [rule]
  cases hfound : registry.resolved.get? name with
  | some r =>
    by_cases hname : name = n
    · subst hname
      simp [hfound, Except.toOption]
    · simp [hname]
  | none =>
    have herror : registry.resolved.get? n =
        if name = n then none else registry.resolved.get? n := by
      by_cases hname : name = n
      · subst hname
        simp [hfound]
      · simp [hname]
    cases hspec : registry.specs.get? name with
    | none => exact herror
    | some spec =>
      cases hload : library.load name spec with
      | error e =>
        simp only [hload]
        exact herror
      | ok r =>
        simp only [hload, NameMap.get?_put]
        rfl

/-- A request about another name leaves what is held under a name as it was. -/
lemma entry_perform_of_other (hs : registry.Stored) {request : Request}
    (h : request.name? ≠ some n) :
    (registry.perform library request).2.entry n = registry.entry n := by
  cases request with
  | registerRule name spec =>
    have hname : name ≠ n := by simpa [Request.name?] using h
    simp only [perform, entry, registerRule, NameMap.get?_put, if_neg hname]
    rfl
  | registerPreset name preset =>
    have hname : name ≠ n := by simpa [Request.name?] using h
    simp only [perform, entry, hs.presetOf?_registerNew, if_neg hname]
    rfl
  | rule name =>
    have hname : name ≠ n := by simpa [Request.name?] using h
    simp [perform, entry, specs_rule, presetOf?_rule, resolved_rule, hname]
  | preset name => exact hs.entry_getPreset name n
  | ruleNames => rfl
  | presetNames => rfl

lemma preset_eq_presetOf? (registry : Registry) (n : String) :
    registry.preset n =
      match registry.presetOf? n with
      | some preset => .ok preset
      | none => .error (.unknownPreset n registry.presetNames) := by
  rw [preset_eq, presetOf?]
  cases registry.presets.get? n with
  | some dictionary => rfl
  | none => rfl

/-- Registries that hold the same under a name answer alike about it. -/
lemma answersAlike_of_entry (library : Library) (h : registry.entry n = registry'.entry n) :
    AnswersAlike library n registry registry' := by
  obtain ⟨hspec, hfound, hpreset⟩ := Entry.mk.inj h
  constructor
  · rw [rule, rule, hspec, hfound]
    cases registry'.resolved.get? n with
    | some r => rfl
    | none =>
      cases registry'.specs.get? n with
      | none => rfl
      | some spec =>
        cases hload : library.load n spec with
        | error e => simp only [hload]
        | ok r => simp only [hload]
  · rw [preset_eq_presetOf?, preset_eq_presetOf?, show registry.presetOf? n = _ from hpreset]
    cases registry'.presetOf? n with
    | some preset => rfl
    | none => rfl

lemma toOption_mapError {ε ε' α : Type} (f : ε → ε') (x : Except ε α) :
    (x.mapError f).toOption = x.toOption := by
  cases x with
  | error e => rfl
  | ok a => rfl

/-- What a request does to what is held under a name depends on nothing else. -/
lemma entry_perform_congr (hs : registry.Stored) (hs' : registry'.Stored)
    (h : registry.entry n = registry'.entry n) (request : Request) :
    (registry.perform library request).2.entry n =
      (registry'.perform library request).2.entry n := by
  by_cases hother : request.name? = some n
  · obtain ⟨hspec, hfound, hpreset⟩ := Entry.mk.inj h
    cases request with
    | registerRule name spec =>
      simp only [perform, registerRule, entry, NameMap.get?_put, hspec, hfound]
      exact congrArg _ hpreset
    | registerPreset name preset =>
      simp only [perform, entry, hs.presetOf?_registerNew, hs'.presetOf?_registerNew, hpreset]
      exact congrArg₂ (fun spec? found? => Entry.mk spec? found? _) hspec hfound
    | rule name =>
      obtain rfl : name = n := Option.some_inj.mp hother
      -- what is remembered afterwards is the answer, and both give the same
      have hanswer := congrArg Except.toOption (answersAlike_of_entry library h).rule
      rw [toOption_mapError, toOption_mapError] at hanswer
      simp [perform, entry, specs_rule, presetOf?_rule, resolved_rule, hspec, hpreset, hanswer]
    | preset name =>
      exact (hs.entry_getPreset name n).trans (h.trans (hs'.entry_getPreset name n).symm)
    | ruleNames => exact h
    | presetNames => exact h
  · rw [entry_perform_of_other hs hother, entry_perform_of_other hs' hother, h]

/-! ## Runs -/

lemma LeavesOut.of_append {before after : List (Request × Bool)}
    (h : LeavesOut library n (before ++ after)) : LeavesOut library n before := by
  rintro before' request after' rfl
  exact h before' request (after' ++ after) (by simp)

/-- What is left out of a run leaves no trace under a name. -/
lemma LeavesOut.entry_replay {marked : List (Request × Bool)} (h : LeavesOut library n marked) :
    (replay library (marked.map Prod.fst)).entry n =
      (replay library ((marked.filter Prod.snd).map Prod.fst)).entry n := by
  induction marked using List.reverseRecOn with
  | nil => rfl
  | append_singleton marked last ih =>
    have hrest := ih h.of_append
    obtain ⟨request, kept⟩ := last
    -- a request that is kept does the same to both, and one that is left out does nothing
    rw [List.map_append, List.filter_append, List.map_append, List.map_singleton, replay_concat]
    cases kept with
    | true =>
      rw [List.filter_cons_of_pos rfl, List.filter_nil, List.map_singleton, replay_concat]
      exact entry_perform_congr (stored_replay _ _) (stored_replay _ _) hrest request
    | false =>
      rw [List.filter_cons_of_neg (by simp), List.filter_nil, List.map_nil, List.append_nil,
        ← hrest]
      rcases h marked request [] rfl with hother | ⟨e, hfailed⟩
      · exact entry_perform_of_other (stored_replay _ _) hother
      · rw [perform_of_error hfailed]

/-- Only the requests about a name leave a trace under it. -/
lemma entry_replay_filter (library : Library) (requests : List Request) (n : String) :
    (replay library requests).entry n =
      (replay library (requests.filter fun request => request.name? = some n)).entry n := by
  have hout : LeavesOut library n
      (requests.map fun request => (request, decide (request.name? = some n))) := by
    intro before request after heq
    have hmem : (request, false) ∈
        requests.map fun request => (request, decide (request.name? = some n)) := by
      rw [heq]
      simp
    obtain ⟨marked, -, hmarked⟩ := List.mem_map.mp hmem
    obtain ⟨rfl, hfalse⟩ := Prod.mk.inj hmarked
    exact .inl (of_decide_eq_false hfalse)
  have h := hout.entry_replay
  simpa [List.filter_map, Function.comp_def] using h

lemma wasFound_concat_iff {requests : List Request} {request : Request} {r : Rule} :
    WasFound library (requests ++ [request]) n r ↔ WasFound library requests n r ∨
      (request = .rule n ∧ ((replay library requests).rule library n).1 = .ok r) := by
  constructor
  · rintro ⟨before, after, heq, hfound⟩
    rcases List.eq_nil_or_concat' after with rfl | ⟨init, last, rfl⟩
    · obtain ⟨rfl, rfl⟩ := List.append_singleton_inj.mp heq
      exact .inr ⟨rfl, hfound⟩
    · rw [← List.cons_append, ← List.append_assoc] at heq
      obtain ⟨rfl, -⟩ := List.append_singleton_inj.mp heq
      exact .inl ⟨before, init, rfl, hfound⟩
  · rintro (⟨before, after, rfl, hfound⟩ | ⟨rfl, hfound⟩)
    · exact ⟨before, after ++ [request], by simp, hfound⟩
    · exact ⟨requests, [], rfl, hfound⟩

/-- What is remembered under a name changes with look-ups of this name only. -/
lemma resolved_perform {request : Request} (h : request ≠ .rule n) :
    (registry.perform library request).2.resolved.get? n = registry.resolved.get? n := by
  cases request with
  | rule name =>
    have hname : name ≠ n := fun heq => h (by rw [heq])
    simp [perform, resolved_rule, hname]
  | preset name =>
    obtain ⟨dictionaries, hcopy⟩ := exists_dictionaries_getPreset registry name
    show (registry.getPreset name).2.resolved.get? n = _
    rw [hcopy]
  | registerRule name spec => rfl
  | registerPreset name preset => rfl
  | ruleNames => rfl
  | presetNames => rfl

lemma rule_of_resolved (library : Library) {r : Rule} (h : registry.resolved.get? n = some r) :
    registry.rule library n = (.ok r, registry) := by
  rw [rule, h]

/-- A rule is remembered exactly if a look-up gave it. -/
lemma resolved_replay_iff {requests : List Request} {r : Rule} :
    (replay library requests).resolved.get? n = some r ↔ WasFound library requests n r := by
  induction requests using List.reverseRecOn with
  | nil =>
    refine ⟨nofun, ?_⟩
    rintro ⟨before, after, heq, -⟩
    simp at heq
  | append_singleton requests request ih =>
    rw [replay_concat, wasFound_concat_iff, ← ih]
    by_cases hrule : request = .rule n
    · subst hrule
      -- a rule that is remembered already is what the look-up gives
      have hkept : (replay library requests).resolved.get? n = some r →
          ((replay library requests).rule library n).1 = .ok r := fun h => by
        rw [rule_of_resolved library h]
      simp only [perform, resolved_rule, if_true, true_and, or_iff_right_of_imp hkept]
      cases ((replay library requests).rule library n).1 with
      | error e => simp [Except.toOption]
      | ok found => simp [Except.toOption]
    · rw [resolved_perform hrule]
      simp [hrule]

lemma specs_perform (registry : Registry) (request : Request) :
    (registry.perform library request).2.specs.get? n =
      (request.spec? n).or (registry.specs.get? n) := by
  cases request with
  | registerRule name spec =>
    by_cases hname : name = n
    · simp [perform, registerRule, NameMap.get?_put, Request.spec?, hname]
    · simp [perform, registerRule, NameMap.get?_put, Request.spec?, hname]
  | rule name => simp [perform, specs_rule, Request.spec?]
  | preset name =>
    obtain ⟨dictionaries, hcopy⟩ := exists_dictionaries_getPreset registry name
    show (registry.getPreset name).2.specs.get? n = _
    rw [hcopy]
    rfl
  | registerPreset name preset => rfl
  | ruleNames => rfl
  | presetNames => rfl

lemma Stored.presetOf?_perform (hs : registry.Stored) (request : Request) :
    (registry.perform library request).2.presetOf? n =
      (request.preset? n).or (registry.presetOf? n) := by
  cases request with
  | registerPreset name preset =>
    show (registry.registerNew name preset).presetOf? n = _
    rw [hs.presetOf?_registerNew]
    by_cases hname : name = n
    · simp [Request.preset?, hname]
    · simp [Request.preset?, hname]
  | rule name => exact presetOf?_rule library registry name n
  | preset name => exact (Entry.mk.inj (hs.entry_getPreset name n)).2.2
  | registerRule name spec => rfl
  | ruleNames => rfl
  | presetNames => rfl

/-- Where requests put something in the place of what was held before, the last one counts. -/
lemma held_replay {α : Type} (held : Registry → Option α) (given : Request → Option α)
    (hempty : held {} = none)
    (hstep : ∀ (registry : Registry) request, registry.Stored →
      held (registry.perform library request).2 = (given request).or (held registry))
    (requests : List Request) :
    held (replay library requests) = requests.reverse.findSome? given := by
  induction requests using List.reverseRecOn with
  | nil => exact hempty
  | append_singleton requests request ih =>
    rw [replay_concat, hstep _ _ (stored_replay library requests), ih, List.reverse_append,
      List.reverse_singleton, List.singleton_append, List.findSome?_cons]
    cases given request with
    | none => rfl
    | some x => rfl

lemma specs_replay (requests : List Request) :
    (replay library requests).specs.get? n = lastSpec? n requests :=
  held_replay (fun registry => registry.specs.get? n) (Request.spec? n) rfl
    (fun registry request _ => specs_perform registry request) requests

lemma presetOf?_replay (requests : List Request) :
    (replay library requests).presetOf? n = lastPreset? n requests :=
  held_replay (fun registry => registry.presetOf? n) (Request.preset? n) rfl
    (fun _ request hs => hs.presetOf?_perform request) requests

/-- A registry that holds under a name what some requests leave there recalls them. -/
lemma recalls_of_entry {requests : List Request}
    (h : registry.entry n = (replay library requests).entry n) :
    Recalls library requests registry n := by
  obtain ⟨hspec, hfound, hpreset⟩ := Entry.mk.inj h
  rw [specs_replay] at hspec
  rw [presetOf?_replay] at hpreset
  refine ⟨fun r hr => ?_, fun hnever => ?_, ?_⟩
  · rw [rule_of_resolved library (hfound.trans (resolved_replay_iff.mpr hr))]
  · have hnone : registry.resolved.get? n = none := by
      rw [hfound, Option.eq_none_iff_forall_ne_some]
      exact fun r hr => hnever r (resolved_replay_iff.mp hr)
    rw [rule, hnone, hspec]
    cases lastSpec? n requests with
    | none => rfl
    | some spec =>
      cases hload : library.load n spec with
      | error e => simp only [hload]
      | ok r => simp only [hload]
  · rw [preset_eq_presetOf?, hpreset]

/-! ## Callers and the built-in registrations -/

namespace Callers

/-- No dictionary of a preset is in the hands of callers. -/
structure Apart (c : Callers) : Prop where
  stored : c.registry.Stored
  made : ∀ d ∈ c.held, d < c.registry.dictionaries.length
  apart : ∀ e ∈ c.registry.presets, e.2 ∉ c.held

/-- The registry holds under every name what the requests so far would leave there. -/
def Follows (library : Library) (c : Callers) : Prop :=
  ∀ n, c.registry.entry n = (replay library c.asked).entry n

variable {c : Callers}

/-- The dictionary of a preset is made by the registry itself, so no caller has it. -/
lemma Apart.registerPreset (h : c.Apart) (name : String) (d : Nat) (asked : List Request) :
    Apart { c with registry := c.registry.registerPreset name d, asked } := by
  refine ⟨h.stored.registerPreset name d, fun x hx => ?_, fun e he hx => ?_⟩
  · show x < (c.registry.dictionaries ++ [_]).length
    rw [List.length_append]
    exact Nat.lt_add_right _ (h.made x hx)
  · rcases NameMap.mem_put he with rfl | he
    · exact Nat.lt_irrefl _ (h.made _ hx)
    · exact h.apart e he hx

/-- A dictionary that is made for a caller is of no preset. -/
lemma Apart.allocate (h : c.Apart) (preset : Preset) (asked : List Request) :
    Apart
      { registry := (c.registry.allocate preset).2
        held := c.held ++ [(c.registry.allocate preset).1]
        asked } := by
  refine ⟨h.stored.allocate preset, fun x hx => ?_, fun e he hx => ?_⟩
  · show x < (c.registry.dictionaries ++ [_]).length
    rw [List.length_append, List.length_singleton]
    rcases List.mem_append.mp hx with hx | hx
    · exact Nat.lt_add_right _ (h.made x hx)
    · rw [List.mem_singleton.mp hx]
      exact Nat.lt_succ_self _
  · rcases List.mem_append.mp hx with hx | hx
    · exact h.apart e he hx
    · exact Nat.lt_irrefl _ (List.mem_singleton.mp hx ▸ h.stored e he)

/-- A request that leaves no dictionary with its caller changes none. -/
lemma Apart.of_kept (h : c.Apart) {registry : Registry} {held : List Nat}
    (hpresets : registry.presets = c.registry.presets)
    (hdictionaries : registry.dictionaries = c.registry.dictionaries) (hheld : held = c.held)
    (asked : List Request) : Apart { registry, held, asked } := by
  subst hheld
  refine ⟨?_, ?_, ?_⟩
  · rw [Stored, hpresets, hdictionaries]
    exact h.stored
  · rw [hdictionaries]
    exact h.made
  · rw [hpresets]
    exact h.apart

/-- Every step keeps the dictionaries of presets out of callers' hands. -/
lemma Apart.step (h : c.Apart) (library : Library) (s : Step) : (c.step library s).Apart := by
  cases s with
  | ask request =>
    cases request with
    | registerPreset name preset =>
      exact (h.allocate preset c.asked).registerPreset name _
        (c.asked ++ [.registerPreset name preset])
    | preset name =>
      rw [Callers.step, passed]
      show Apart { registry := (c.registry.getPreset name).2, held := _, asked := _ }
      rcases getPreset_cases c.registry name with ⟨dictionary, -, hcopy⟩ | ⟨-, hcopy⟩
      · rw [hcopy]
        exact h.allocate _ _
      · rw [hcopy]
        exact h.of_kept (by rfl) (by rfl) (List.append_nil _) _
    | rule name =>
      obtain ⟨resolved, hrule⟩ := exists_resolved_rule library c.registry name
      rw [Callers.step]
      show Apart { registry := (c.registry.rule library name).2, held := _, asked := _ }
      rw [hrule]
      exact h.of_kept (by rfl) (by rfl) (List.append_nil _) _
    | registerRule name spec => exact h.of_kept (by rfl) (by rfl) (List.append_nil _) _
    | ruleNames => exact h.of_kept (by rfl) (by rfl) (List.append_nil _) _
    | presetNames => exact h.of_kept (by rfl) (by rfl) (List.append_nil _) _
  | register name place =>
    rw [Callers.step]
    cases c.held[place]? with
    | some d => exact h.registerPreset name d _
    | none => exact h
  | change place preset =>
    rw [Callers.step]
    cases c.held[place]? with
    | some d =>
      refine ⟨fun e he => ?_, fun x hx => ?_, h.apart⟩
      · rw [List.length_set]
        exact h.stored e he
      · rw [List.length_set]
        exact h.made x hx
    | none => exact h

/-- What a caller does to a dictionary in their hands shows in no preset. -/
lemma Apart.presetOf?_set (h : c.Apart) {d : Nat} (hd : d ∈ c.held) (preset : Preset) (n : String) :
    presetOf? { c.registry with dictionaries := c.registry.dictionaries.set d preset } n =
      c.registry.presetOf? n := by
  show (c.registry.presets.get? n).map _ = (c.registry.presets.get? n).map _
  cases hget : c.registry.presets.get? n with
  | none => rfl
  | some own =>
    have hne : d ≠ own := fun heq => h.apart _ (NameMap.mem_of_get? hget) (heq ▸ hd)
    simp only [Option.map_some, content, List.getD_eq_getElem?_getD, List.getElem?_set_ne hne]

/-- Every step leaves under a name what the requests would. -/
lemma Follows.step {library : Library} (h : c.Follows library) (hapart : c.Apart) (s : Step) :
    (c.step library s).Follows library := by
  intro n
  have hstored := stored_replay library c.asked
  cases s with
  | ask request =>
    show _ = (replay library (c.asked ++ [request])).entry n
    rw [replay_concat]
    exact entry_perform_congr hapart.stored hstored (h n) request
  | register name place =>
    rw [Callers.step]
    cases hheld : c.held[place]? with
    | none => exact h n
    | some d =>
      -- a dictionary with the same content would have been made for the request
      show (c.registry.registerPreset name d).entry n =
        (replay library (c.asked ++ [.registerPreset name (c.registry.content d)])).entry n
      rw [replay_concat, ← entry_perform_congr hapart.stored hstored (h n)]
      show _ = (c.registry.registerNew name (c.registry.content d)).entry n
      rw [entry, entry, hapart.stored.presetOf?_registerPreset, hapart.stored.presetOf?_registerNew]
      rfl
  | change place preset =>
    rw [Callers.step]
    cases hheld : c.held[place]? with
    | none => exact h n
    | some d =>
      rw [← h n, entry, entry, hapart.presetOf?_set (List.mem_of_getElem? hheld)]

/-- Whatever callers do, the registry holds what it was asked for. -/
lemma follows_run (library : Library) (steps : List Step) :
    (run library steps).Apart ∧ (run library steps).Follows library := by
  induction steps using List.reverseRecOn with
  | nil => exact ⟨⟨nofun, nofun, nofun⟩, fun n => rfl⟩
  | append_singleton steps s ih =>
    rw [run, List.foldl_append]
    exact ⟨ih.1.step library s, ih.2.step ih.1 s⟩

end Callers

/-- The registrations that every run starts from. -/
def builtInRequests : List Request :=
  [.registerRule EntryImports.ruleName
      { module := ".entry_imports", definition := EntryImports.rule.definition },
    .registerPreset "recommended" [(EntryImports.ruleName, .error)]]

lemma after_eq_replay (library : Library) (requests : List Request) :
    after library requests = replay library (builtInRequests ++ requests) := by
  rw [replay, List.foldl_append]
  rfl

/-- Answers about a name come from its history. A rule that a look-up gave is given ever after,
whatever is registered since; otherwise the last registration is loaded. The preset is the one
registered last, as it was then, whatever callers do to the dictionaries in their hands. Requests
about other names and requests that fail can be left out of a run, and at no point does an answer
change but for the names that are known. So runs with the same requests about a name answer alike.
The built-in registrations are requests like any other. -/
theorem answers_from_history (library : Library) (n : String) :
    (∀ steps, Recalls library (Callers.run library steps).asked
      (Callers.run library steps).registry n) ∧
    (∀ marked, LeavesOut library n marked → ∀ before after, marked = before ++ after →
      AnswersAlike library n (replay library (before.map Prod.fst))
        (replay library ((before.filter Prod.snd).map Prod.fst))) ∧
    (∀ requests requests',
      (requests.filter fun request => request.name? = some n) =
        (requests'.filter fun request => request.name? = some n) →
      AnswersAlike library n (replay library requests) (replay library requests')) ∧
    ∀ requests, after library requests = replay library (builtInRequests ++ requests) := by
  refine ⟨fun steps => ?_, ?_, fun requests requests' hsame => ?_, after_eq_replay library⟩
  · exact recalls_of_entry ((Callers.follows_run library steps).2 n)
  · rintro marked hout before after rfl
    exact answersAlike_of_entry library hout.of_append.entry_replay
  · apply answersAlike_of_entry
    rw [entry_replay_filter, hsame, ← entry_replay_filter]

/-- Where the built-in rule is defined. -/
def sampleSpec : RuleSpec := { module := ".entry_imports", definition := "EntryImportsRule" }

/-- Callers look up the built-in rule and then register something else under its name. They register
a preset, receive it, and empty both. -/
def sampleSteps : List Step :=
  [.ask (.registerRule EntryImports.ruleName sampleSpec), .ask (.rule EntryImports.ruleName),
    .ask (.registerRule EntryImports.ruleName { module := ".absent", definition := "Other" }),
    .ask (.registerPreset "strict" [(EntryImports.ruleName, .error)]),
    .ask (.preset "strict"), .change 0 [], .change 1 []]

/-- A run in which a request about another name and a request that fails are left out. -/
def sampleMarked : List (Request × Bool) :=
  [(.registerRule "other" sampleSpec, false), (.rule EntryImports.ruleName, false),
    (.registerRule EntryImports.ruleName sampleSpec, true)]

theorem answers_from_history_sample :
    (Callers.run .builtIn sampleSteps).held.map
        (Callers.run .builtIn sampleSteps).registry.content =
      [[], []] ∧
    ((Callers.run .builtIn sampleSteps).registry.rule .builtIn EntryImports.ruleName).1 =
      .ok EntryImports.rule ∧
    (Callers.run .builtIn sampleSteps).registry.preset "strict" =
      .ok [(EntryImports.ruleName, .error)] ∧
    LeavesOut .builtIn EntryImports.ruleName sampleMarked ∧
    AnswersAlike .builtIn EntryImports.ruleName (replay .builtIn (sampleMarked.map Prod.fst))
      (replay .builtIn [.registerRule EntryImports.ruleName sampleSpec]) := by
  have hout : LeavesOut .builtIn EntryImports.ruleName sampleMarked := by
    intro before request after heq
    rcases before with _ | ⟨first, _ | ⟨second, _ | ⟨third, before⟩⟩⟩
    · obtain ⟨rfl, -⟩ := Prod.mk.inj (List.cons.inj heq).1
      exact .inl (by decide)
    · obtain ⟨rfl, hrest⟩ := List.cons.inj heq
      obtain ⟨rfl, -⟩ := Prod.mk.inj (List.cons.inj hrest).1
      exact .inr ⟨_, rfl⟩
    · simp [sampleMarked] at heq
    · simp [sampleMarked] at heq
  obtain ⟨hrecalls, halike, -, -⟩ := answers_from_history .builtIn EntryImports.ruleName
  refine ⟨rfl, ?_, ?_, hout, ?_⟩
  · exact (hrecalls sampleSteps).found _
      ⟨[.registerRule EntryImports.ruleName sampleSpec], _, rfl, rfl⟩
  · exact ((answers_from_history .builtIn "strict").1 sampleSteps).preset
  · exact halike sampleMarked hout sampleMarked [] (by simp)

end Registry

end EntryLint
