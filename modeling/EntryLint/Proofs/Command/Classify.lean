import EntryLint.Command.Run
import EntryLint.Included
import EntryLint.Proofs.Command.Arguments
import EntryLint.Proofs.Config.Defects
import EntryLint.Proofs.Entry.Trace
import EntryLint.Proofs.JsonDoc.Printed

/-!
# Questions about paths

The answer to a question about paths is printed as a JSON text. `ClassifyRequest.Answers` says what
is read back from that text: one object for each path, in their order, with the values of its
classification. The main result is `answers_readBack`: every run that is asked about paths prints
such a text, no text answers questions about different paths, and there is no path that cannot be
asked about.
-/

namespace EntryLint

/-! ## Members of documents -/

namespace JsonDoc

/-- The value of a key. -/
def get? (key : String) : JsonDoc → Option JsonDoc
  | .object members => members.lookup key
  | _ => none

/-- The keys of an object, in their order. -/
def keys : JsonDoc → List String
  | .object members => members.map Prod.fst
  | _ => []

lemma wellFormed_text? (s : Option String) : WellFormed (text? s) := by
  cases s with
  | none => exact .null
  | some s => exact .string s

lemma text?_injective : Function.Injective text? := by
  intro s s' h
  cases s with
  | none =>
    cases s' with
    | none => rfl
    | some s' => cases h
  | some s =>
    cases s' with
    | none => cases h
    | some s' => rw [string.inj h]

end JsonDoc

/-! ## Words in reports -/

lemma PathClass.label_injective : Function.Injective label := by
  intro a b h
  cases a <;> cases b <;> first | rfl | exact absurd h (by decide)

lemma EntryKind.label_injective : Function.Injective label := by
  intro a b h
  cases a <;> cases b <;> first | rfl | exact absurd h (by decide)

lemma Violation.id_injective : Function.Injective id := by
  intro a b h
  cases a <;> cases b <;> first | rfl | exact absurd h (by decide)

namespace Command

open JsonDoc (WellFormed IsText)

/-! ## Answers -/

/-- An entry has the values of a classification under their names, and no other. -/
structure Describes (entry : JsonDoc) (c : Classification) : Prop where
  keys : entry.keys = ["path", "prefixClass", "segments", "entryName", "entryKind", "violation"]
  path : entry.get? "path" = some (.string c.path)
  pathClass : entry.get? "prefixClass" = some (.string c.pathClass.label)
  segments : entry.get? "segments" = some (.array (c.segments.map .string))
  entryName : entry.get? "entryName" = some (.text? c.entryName)
  entryKind : entry.get? "entryKind" = some (.text? (c.entryKind.map EntryKind.label))
  violation : entry.get? "violation" = some (.text? (c.violation.map Violation.id))

lemma describes_classificationEntry (c : Classification) : Describes (classificationEntry c) c :=
  ⟨rfl, rfl, rfl, rfl, rfl, rfl, rfl⟩

lemma wellFormed_classificationEntry (c : Classification) : WellFormed (classificationEntry c) := by
  apply WellFormed.object
  simp only [List.forall_mem_cons]
  refine ⟨.string _, .string _, .array ?_, JsonDoc.wellFormed_text? _, JsonDoc.wellFormed_text? _,
    JsonDoc.wellFormed_text? _, fun m hm => absurd hm List.not_mem_nil⟩
  intro d hd
  obtain ⟨s, -, rfl⟩ := List.mem_map.mp hd
  exact .string s

/-- An entry describes one classification at most: no two words of a report are the same. -/
lemma Describes.unique {entry : JsonDoc} {c c' : Classification} (h : Describes entry c)
    (h' : Describes entry c') : c = c' := by
  have hpath : c.path = c'.path :=
    JsonDoc.string.inj (Option.some.inj (h.path.symm.trans h'.path))
  have hclass : c.pathClass = c'.pathClass :=
    PathClass.label_injective
      (JsonDoc.string.inj (Option.some.inj (h.pathClass.symm.trans h'.pathClass)))
  have hsegments : c.segments = c'.segments := by
    have heq := JsonDoc.array.inj (Option.some.inj (h.segments.symm.trans h'.segments))
    exact List.map_injective_iff.mpr (fun _ _ => JsonDoc.string.inj) heq
  have hname : c.entryName = c'.entryName :=
    JsonDoc.text?_injective (Option.some.inj (h.entryName.symm.trans h'.entryName))
  have hkind : c.entryKind = c'.entryKind := by
    have heq := JsonDoc.text?_injective (Option.some.inj (h.entryKind.symm.trans h'.entryKind))
    exact Option.map_injective EntryKind.label_injective heq
  have hviolation : c.violation = c'.violation := by
    have heq := JsonDoc.text?_injective (Option.some.inj (h.violation.symm.trans h'.violation))
    exact Option.map_injective Violation.id_injective heq
  cases c
  cases c'
  subst hpath hclass hsegments hname hkind hviolation
  rfl

namespace ClassifyRequest

/-- The policy that paths are classified by: what is not given is as usual. -/
def policy (request : ClassifyRequest) : PathPolicy where
  rootAlias := request.rootAlias.getD ({} : PathPolicy).rootAlias
  extensions := if request.extensions = [] then ({} : PathPolicy).extensions else request.extensions

/-- What is asked for: the classifications of the paths, in their order. -/
def classifications (request : ClassifyRequest) : List Classification :=
  request.paths.map (explain request.policy)

/-- Alias and extensions pass the checks. -/
structure Accepted (request : ClassifyRequest) : Prop where
  rootAlias : Config.checkAlias request.policy.rootAlias argumentOrigin = .ok ()
  extensions : Config.checkExtensions request.policy.extensions "--ext" argumentOrigin = .ok ()

/-- A text is read back as one object, which has one entry for each path in their order, with the
values of its classification; it is read back as nothing else. -/
def Answers (request : ClassifyRequest) (output : String) : Prop :=
  ∃ entries, (∀ d, IsText output d ↔ d = .object [("results", .array entries)]) ∧
    List.Forall₂ Describes entries request.classifications

/-- The document that is printed. -/
def answer (request : ClassifyRequest) : JsonDoc :=
  .object [("results", .array (request.classifications.map classificationEntry))]

variable {request request' : ClassifyRequest} {output : String}

lemma wellFormed_answer (request : ClassifyRequest) : WellFormed request.answer := by
  apply WellFormed.object
  simp only [List.forall_mem_singleton]
  apply WellFormed.array
  intro d hd
  obtain ⟨c, -, rfl⟩ := List.mem_map.mp hd
  exact wellFormed_classificationEntry c

lemma answers_render (request : ClassifyRequest) : request.Answers request.answer.render := by
  refine ⟨_, fun d => request.wellFormed_answer.isText_render_iff d, ?_⟩
  rw [List.forall₂_map_left_iff, List.forall₂_same]
  exact fun c _ => describes_classificationEntry c

/-- A text tells all classifications that it was printed for. -/
lemma Answers.classifications_eq (h : request.Answers output) (h' : request'.Answers output) :
    request.classifications = request'.classifications := by
  obtain ⟨entries, htext, hentries⟩ := h
  obtain ⟨entries', htext', hentries'⟩ := h'
  have heq : entries = entries' := by
    have hdoc := (htext' _).mp ((htext _).mpr rfl)
    simpa using hdoc
  subst heq
  have hunique : Relator.RightUnique Describes := fun _ _ _ h h' => h.unique h'
  exact List.right_unique_forall₂' hunique hentries hentries'

/-- A classification tells which path it is about. -/
lemma map_path_classifications (request : ClassifyRequest) :
    request.classifications.map Classification.path = request.paths := by
  rw [classifications, List.map_map]
  simp [Function.comp_def, path_explain]

lemma Accepted.classifyPaths_eq_ok (h : request.Accepted) :
    classifyPaths request = .ok request.answer := by
  have hsteps : classifyPaths request = (do
      Config.checkAlias request.policy.rootAlias argumentOrigin
      Config.checkExtensions request.policy.extensions "--ext" argumentOrigin
      return request.answer) := by
    simp only [classifyPaths, answer, classifications, policy, List.isEmpty_iff, List.map_map]
    rfl
  rw [hsteps, h.rootAlias, h.extensions]
  rfl

/-! ## Asking about any paths -/

/-- The option for the alias. -/
def aliasOption : OptionSpec :=
  { names := ["--alias"], kind := .value .text }

/-- The option for extensions, which may be given several times. -/
def extensionOption : OptionSpec :=
  { names := ["--ext"], kind := .value .text }

@[simp] lemma key_aliasOption : aliasOption.key = "--alias" := rfl

@[simp] lemma key_extensionOption : extensionOption.key = "--ext" := rfl

/-- The options that a request is asked with. -/
def given (request : ClassifyRequest) : List Given :=
  request.rootAlias.toList.map (Given.mk aliasOption) ++
    request.extensions.map (Given.mk extensionOption)

/-- Arguments that ask for a request: its options with their values, a double hyphen, and its paths.
-/
def arguments (request : ClassifyRequest) : List String :=
  "classify" :: (request.given.map Given.argument ++ "--" :: request.paths)

lemma option_of_mem_given {g : Given} (h : g ∈ request.given) :
    g.option = aliasOption ∨ g.option = extensionOption := by
  rcases List.mem_append.mp h with h | h
  · obtain ⟨a, -, rfl⟩ := List.mem_map.mp h
    exact .inl rfl
  · obtain ⟨e, -, rfl⟩ := List.mem_map.mp h
    exact .inr rfl

lemma plain_of_mem_given {g : Given} (h : g ∈ request.given) : g.Plain := by
  rcases option_of_mem_given h with h | h
  · exact ⟨by rw [h]; rfl, by rw [h]; rfl⟩
  · exact ⟨by rw [h]; rfl, by rw [h]; rfl⟩

lemma namesPlain_classifySpec : classifySpec.NamesPlain := by
  unfold Spec.NamesPlain
  decide

lemma find?_of_mem_given {g : Given} (h : g ∈ request.given) :
    classifySpec.find? g.option.key = some g.option ∧ Text.startsWith "-" g.option.key = true := by
  rcases option_of_mem_given h with h | h
  · rw [h]
    exact ⟨rfl, rfl⟩
  · rw [h]
    exact ⟨rfl, rfl⟩

/-- The options of the command start like none of the tool's own, which leaves them alone. -/
lemma exists_item_mainSpec {g : Given} (h : g ∈ request.given) :
    ∃ i, mainSpec.item g.argument = .ok i := by
  rcases option_of_mem_given h with h | h
  · exact Spec.exists_item_argument (by rw [h]; decide) (by rw [h]; decide) (by rw [h]; decide)
  · exact Spec.exists_item_argument (by rw [h]; decide) (by rw [h]; decide) (by rw [h]; decide)

lemma lookup_entry_extensions (extensions : List String) :
    ((extensions.map (Given.mk extensionOption)).map Given.entry).reverse.lookup "--alias" =
      none := by
  rw [List.lookup_eq_none_iff]
  intro entry hentry
  simp only [List.mem_reverse, List.mem_map, exists_exists_and_eq_and] at hentry
  obtain ⟨e, -, rfl⟩ := hentry
  rfl

/-- What is recorded is what was given. -/
lemma ofReading_given (request : ClassifyRequest) :
    ofReading { options := (request.given.map Given.entry).reverse
                operands := some request.paths } =
      request := by
  have halias : (request.given.map Given.entry).reverse.lookup "--alias" = request.rootAlias := by
    rw [given, List.map_append, List.reverse_append, List.lookup_append, lookup_entry_extensions,
      Option.none_or]
    cases request.rootAlias with
    | none => rfl
    | some a => rfl
  have hextensions : Reading.values
      { options := (request.given.map Given.entry).reverse
        operands := some request.paths } "--ext" =
        request.extensions := by
    simp only [Reading.values, List.filterMap_reverse, List.reverse_reverse, given, List.map_append,
      List.filterMap_append]
    simp [List.filterMap_map, Function.comp_def, Given.entry]
  simp only [ofReading, Reading.value?, halias, hextensions]
  rfl

/-- Any request about paths can be asked for. -/
lemma ofArguments_arguments (hpaths : request.paths ≠ []) :
    Invocation.ofArguments request.arguments = .ok (.classify request) := by
  have hread : classifySpec.read (request.given.map Given.argument ++ "--" :: request.paths) =
      .ok { options := (request.given.map Given.entry).reverse, operands := some request.paths } :=
    Spec.read_joined namesPlain_classifySpec rfl
      (fun g hg => ⟨plain_of_mem_given hg, find?_of_mem_given hg⟩) hpaths
  obtain ⟨is, his⟩ : ∃ is, mainSpec.items
    (request.given.map Given.argument ++ "--" :: request.paths) =
      .ok is := by
    apply Spec.exists_items
    intro s hs
    obtain ⟨g, hg, rfl⟩ := List.mem_map.mp hs
    exact exists_item_mainSpec hg
  have hmain : mainSpec.read request.arguments = .ok { operands := some request.arguments } :=
    Spec.read_command rfl (by decide) (by decide) his
  simp only [Invocation.ofArguments, hmain]
  simp only [arguments, Invocation.ofCommand, Invocation.command?, hread]
  rw [ofReading_given]
  rfl

end ClassifyRequest

/-! ## Runs -/

lemma run_of_classify {libs : Libraries} {s : Surroundings} {args : List String}
    {request : ClassifyRequest} (hargs : Invocation.ofArguments args = .ok (.classify request))
    (h : request.Accepted) :
    run libs s args = .ok { code := 0, stdout := request.answer.render } := by
  simp only [run, hargs, perform, h.classifyPaths_eq_ok]
  rfl

/-- Arguments ask about paths, and alias and extensions pass the checks. -/
structure Asks (args : List String) (request : ClassifyRequest) : Prop where
  reading : Invocation.ofArguments args = .ok (.classify request)
  accepted : request.Accepted

/-- Whoever asks about paths gets a text that is read back as their classifications. The text tells
these and which paths were asked about, whatever the other arguments are. There are arguments that
ask about any paths, with any alias and extensions that are accepted. -/
theorem answers_readBack (libs : Libraries) :
    (∀ (s : Surroundings) (args : List String) (request : ClassifyRequest), Asks args request →
      ∃ output, run libs s args = .ok { code := 0, stdout := output } ∧ request.Answers output) ∧
    (∀ (s s' : Surroundings) (args args' : List String) (request request' : ClassifyRequest)
      (r r' : RunResult), Asks args request → Asks args' request' → run libs s args = .ok r →
      run libs s' args' = .ok r' → r.stdout = r'.stdout →
      request.paths = request'.paths ∧ request.classifications = request'.classifications) ∧
    ∀ request : ClassifyRequest, request.Accepted → request.paths ≠ [] →
      Asks request.arguments request := by
  refine ⟨?_, ?_, ?_⟩
  · intro s args request h
    exact ⟨_, run_of_classify h.reading h.accepted, request.answers_render⟩
  · intro s s' args args' request request' r r' h h' hrun hrun' hstdout
    obtain rfl := Except.ok.inj (hrun.symm.trans (run_of_classify h.reading h.accepted))
    obtain rfl := Except.ok.inj (hrun'.symm.trans (run_of_classify h'.reading h'.accepted))
    have hanswers := request.answers_render
    rw [show request.answer.render = request'.answer.render from hstdout] at hanswers
    have heq := hanswers.classifications_eq request'.answers_render
    refine ⟨?_, heq⟩
    rw [← request.map_path_classifications, heq, request'.map_path_classifications]
  · intro request h hpaths
    exact ⟨request.ofArguments_arguments hpaths, h⟩

/-- A path with a quotation mark, a backslash, control characters and characters beyond ASCII, and
one that looks like the end of the options. -/
def escapedRequest : ClassifyRequest where
  rootAlias := some "~"
  extensions := [".vue"]
  paths := ["~/\"\\\n\x01/é😀.vue", "--"]

/-- The second of these paths alone, with an alias that looks the same. -/
def hyphenRequest : ClassifyRequest where
  rootAlias := some "--"
  paths := ["--"]

theorem answers_readBack_escaped :
    ∃ output output',
      run .included ⟨.empty, Path.ofText "/", false⟩
        ["classify", "--alias=~", "--ext=.vue", "--", "~/\"\\\n\x01/é😀.vue", "--"] =
          .ok { code := 0, stdout := output } ∧
      escapedRequest.Answers output ∧
      run .included ⟨.empty, Path.ofText "/", false⟩ ["classify", "--alias=--", "--", "--"] =
        .ok { code := 0, stdout := output' } ∧
      output ≠ output' := by
  obtain ⟨hanswers, hpaths, hasks⟩ := answers_readBack .included
  have hescaped : Asks ["classify", "--alias=~", "--ext=.vue", "--", "~/\"\\\n\x01/é😀.vue", "--"]
      escapedRequest :=
    hasks escapedRequest ⟨rfl, rfl⟩ (by decide)
  have hhyphen : Asks ["classify", "--alias=--", "--", "--"] hyphenRequest :=
    hasks hyphenRequest ⟨rfl, rfl⟩ (by decide)
  obtain ⟨output, hrun, houtput⟩ := hanswers ⟨.empty, Path.ofText "/", false⟩ _ _ hescaped
  obtain ⟨output', hrun', -⟩ := hanswers ⟨.empty, Path.ofText "/", false⟩ _ _ hhyphen
  refine ⟨output, output', hrun, houtput, hrun', fun heq => ?_⟩
  exact absurd (hpaths _ _ _ _ _ _ _ _ hescaped hhyphen hrun hrun' heq).1 (by decide)

end Command

end EntryLint
