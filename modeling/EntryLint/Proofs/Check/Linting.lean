import EntryLint.Check
import EntryLint.Proofs.Files.Tree
import EntryLint.Proofs.Source.Sources
import EntryLint.Proofs.Text.Utf8

/-!
# Checking single files

A text is searched for imports, and every rule judges every import. With rules whose severity can be
reported nothing is raised on the way (`exists_yields_lintText`). A file is read, and skipped if it
is no text, so that every file gives a result (`exists_judged`).
-/

namespace EntryLint.Check

open Scan (Yields)

/-! ## Texts -/

/-- Rules with severities that can be reported. -/
def Reportable (rules : List BoundRule) : Prop :=
  ∀ b ∈ rules, b.severity = .error ∨ b.severity = .warn

section Texts

variable {parser : ParserLibrary} {policy : PathPolicy} {rules : List BoundRule} {file : String}
  {source : ImportSource}

/-- The diagnostic of a hit. -/
def diagnosticOf (file : String) (source : ImportSource) (bound : BoundRule) (hit : RuleHit) :
    Diagnostic :=
  { file, span := source.span, ruleId := bound.rule.name, messageId := hit.messageId,
    message := hit.message, severity := bound.severity, importPath := source.path }

/-- The diagnostics of the hits of an import. -/
def diagnosticsOf (policy : PathPolicy) (rules : List BoundRule) (file : String)
    (source : ImportSource) : List Diagnostic :=
  rules.filterMap fun b => (b.rule.check policy source).map (diagnosticOf file source b)

lemma diagnostic_eq {bound : BoundRule} (h : bound.severity = .error ∨ bound.severity = .warn)
    (hit : RuleHit) :
    diagnostic file bound source hit = .ok (diagnosticOf file source bound hit) := by
  rw [diagnostic, if_pos]
  · rfl
  · simpa using h

lemma lintImport_eq (h : Reportable rules) :
    lintImport policy file source rules = .ok (diagnosticsOf policy rules file source) := by
  induction rules with
  | nil => rfl
  | cons bound rules ih =>
    obtain ⟨hbound, hrules⟩ := List.forall_mem_cons.mp h
    rw [lintImport, diagnosticsOf, List.filterMap_cons]
    cases hcheck : bound.rule.check policy source with
    | none =>
      rw [ih hrules]
      rfl
    | some hit =>
      simp only [diagnostic_eq hbound hit, ih hrules]
      rfl

lemma lintImports_eq (h : Reportable rules) (sources : List ImportSource) :
    lintImports policy rules file sources =
      .ok (sources.flatMap (diagnosticsOf policy rules file)) := by
  induction sources with
  | nil => rfl
  | cons source sources ih =>
    rw [lintImports, lintImport_eq h, ih, List.flatMap_cons]
    rfl

/-- A text yields the diagnostics of its imports, one import after the other. -/
lemma exists_yields_lintText (hparser : parser.IsSound) (h : Reportable rules)
    (policy : PathPolicy) (file ext text : String) :
    ∃ sources : List ImportSource,
      sources.Pairwise (fun a b => a.span.StartsBefore b.span) ∧
      Yields (lintText parser policy rules file ext text)
        (sources.flatMap (diagnosticsOf policy rules file)) := by
  obtain ⟨sources, hyields, hpairwise⟩ := exists_yields_of_isSound hparser text ext
  exact ⟨sources, hpairwise.imp And.left,
    hyields.bind (Scan.yields_lift (lintImports_eq h sources))⟩

lemma mem_diagnosticsOf {d : Diagnostic} (h : d ∈ diagnosticsOf policy rules file source) :
    d.file = file ∧ d.span = source.span ∧ ∃ b ∈ rules, d.severity = b.severity := by
  obtain ⟨b, hb, hd⟩ := List.mem_filterMap.mp h
  obtain ⟨hit, -, rfl⟩ := Option.map_eq_some_iff.mp hd
  exact ⟨rfl, rfl, b, hb, rfl⟩

end Texts

/-! ## Files -/

/-- The file under a path of the project holds a text. -/
def HoldsText (tree : FileTree) (root : Path) (f s : String) : Prop :=
  tree.find? (root.under (Path.ofText f)) = some (.file s.toUTF8.data.toList)

/-- The file under a path of the project is valid UTF-8. -/
def IsText (tree : FileTree) (root : Path) (f : String) : Prop :=
  ∃ s, HoldsText tree root f s

/-- A text with all line ends as line feeds. -/
def withLineFeeds (s : String) : String :=
  String.ofList (Text.unifyNewlines s.toList)

section Files

variable {parser : ParserLibrary} {tree tree' : FileTree} {root : Path} {f s : String}
  {policy : PathPolicy} {rules : List BoundRule}

lemma readText_of_holdsText (h : HoldsText tree root f s) :
    readText tree (root.under (Path.ofText f)) = .ok (withLineFeeds s) := by
  rw [readText, FileTree.read_eq_ok_iff.mpr h]
  simp only [Text.decode_eq_ok_iff.mpr rfl]
  rfl

lemma isText_of_readText {text : String}
    (h : readText tree (root.under (Path.ofText f)) = .ok text) : IsText tree root f := by
  rw [readText] at h
  cases hread : tree.read (root.under (Path.ofText f)) with
  | error e =>
    rw [hread] at h
    cases h
  | ok bytes =>
    simp only [hread] at h
    cases hdecode : Text.decode bytes with
    | error e =>
      rw [hdecode] at h
      cases h
    | ok s =>
      refine ⟨s, ?_⟩
      rw [HoldsText, Text.decode_eq_ok_iff.mp hdecode]
      exact FileTree.read_eq_ok_iff.mp hread

lemma isOk_readText_iff :
    (readText tree (root.under (Path.ofText f))).isOk = true ↔ IsText tree root f := by
  constructor
  · intro h
    cases hread : readText tree (root.under (Path.ofText f)) with
    | error e =>
      rw [hread] at h
      cases h
    | ok text => exact isText_of_readText hread
  · rintro ⟨s, hs⟩
    rw [readText_of_holdsText hs]
    rfl

instance (tree : FileTree) (root : Path) (f : String) : Decidable (IsText tree root f) :=
  decidable_of_iff _ isOk_readText_iff

/-- What may come of a file: the diagnostics of its text, or a reason why it is none. -/
inductive Judged (parser : ParserLibrary) (tree : FileTree) (root : Path) (policy : PathPolicy)
    (rules : List BoundRule) (f : String) : FileResult → Prop
  | text {s : String} {ds : List Diagnostic} (holds : HoldsText tree root f s)
      (yields : Yields (lintText parser policy rules f (suffixOf (root.under (Path.ofText f)))
        (withLineFeeds s)) ds) : Judged parser tree root policy rules f (.ok ds)
  | skipped {reason : String} (noText : ¬ IsText tree root f) :
      Judged parser tree root policy rules f (.error reason)

/-- Every file gives a result. -/
lemma exists_judged (hparser : parser.IsSound) (h : Reportable rules) (tree : FileTree)
    (root : Path) (policy : PathPolicy) (f : String) :
    ∃ result, Yields (checkFile parser tree root policy rules f) result ∧
      Judged parser tree root policy rules f result := by
  rw [checkFile]
  cases hread : readText tree (root.under (Path.ofText f)) with
  | error reason =>
    refine ⟨.error reason, (Scan.yields_lift rfl).bind (Scan.yields_pure _), .skipped ?_⟩
    rintro ⟨s, hs⟩
    cases hread.symm.trans (readText_of_holdsText hs)
  | ok text =>
    obtain ⟨s, hs⟩ := isText_of_readText hread
    obtain rfl := Except.ok.inj (hread.symm.trans (readText_of_holdsText hs))
    obtain ⟨sources, -, hyields⟩ := exists_yields_lintText hparser h policy f
      (suffixOf (root.under (Path.ofText f))) (withLineFeeds s)
    refine ⟨_, ?_, .text hs hyields⟩
    -- without rules the text is not searched, which gives the same
    by_cases hnone : rules.isEmpty = true
    · simp only [if_pos hnone]
      have hnil : sources.flatMap (diagnosticsOf policy rules f) = [] := by
        rw [List.isEmpty_iff.mp hnone]
        exact List.flatMap_eq_nil_iff.mpr fun _ _ => rfl
      rw [hnil]
      exact Scan.yields_pure _
    · simp only [if_neg hnone]
      exact hyields.bind (Scan.yields_pure _)

/-- The diagnostics of a file are about it and have the severity of a rule. -/
lemma Judged.forall_mem (hparser : parser.IsSound) (h : Reportable rules) {ds : List Diagnostic}
    (hjudged : Judged parser tree root policy rules f (.ok ds)) :
    ∀ d ∈ ds, d.file = f ∧ ∃ b ∈ rules, d.severity = b.severity := by
  cases hjudged with
  | @text s _ holds yields =>
    obtain ⟨sources, -, hyields⟩ := exists_yields_lintText hparser h policy f
      (suffixOf (root.under (Path.ofText f))) (withLineFeeds s)
    obtain rfl := yields.unique hyields
    intro d hd
    obtain ⟨source, -, hd⟩ := List.mem_flatMap.mp hd
    obtain ⟨hfile, -, hseverity⟩ := mem_diagnosticsOf hd
    exact ⟨hfile, hseverity⟩

/-- A file is judged by its bytes alone. -/
lemma checkFile_congr {bytes : List UInt8}
    (h : tree.find? (root.under (Path.ofText f)) = some (.file bytes))
    (h' : tree'.find? (root.under (Path.ofText f)) = some (.file bytes)) :
    checkFile parser tree root policy rules f = checkFile parser tree' root policy rules f := by
  rw [checkFile, checkFile, readText, readText, FileTree.read_eq_ok_iff.mpr h,
    FileTree.read_eq_ok_iff.mpr h']

/-- Files are checked one after the other, each as if it were the only one. -/
lemma yields_checkFiles (files : List String) {result : String → FileResult}
    (h : ∀ f, Yields (checkFile parser tree root policy rules f) (result f)) :
    Yields (checkFiles parser tree root policy rules files) (files.map fun f => (f, result f)) := by
  induction files with
  | nil => exact Scan.yields_pure _
  | cons f files ih => exact (h f).bind (ih.bind (Scan.yields_pure _))

end Files

end EntryLint.Check
