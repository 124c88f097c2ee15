import EntryLint.Discovery
import EntryLint.Libraries
import EntryLint.Report
import EntryLint.Source.Import

/-!
# Checking a project

Every file that is found is read, its imports are judged by the rules that are switched on, and the
hits become diagnostics with the severity that the configuration gives. A file that is not text is
skipped.
-/

namespace EntryLint

/-- A rule with its severity. -/
structure BoundRule where
  rule : Rule
  severity : Severity

/-- Why a project cannot be checked. -/
inductive CheckError where
  | registry (e : RegistryError)
  | discovery (e : DiscoveryError)
  /-- Something was raised while a text was checked. -/
  | raised (e : Raised)

/-- What a process keeps from one check to the next: the registry and the compiled queries. -/
structure Memory (parser : ParserLibrary) where
  registry : Registry
  compiled : QueryCache parser := []

namespace Check

/-- Severities in the order of their rules' names. -/
def byName (rules : NameMap Severity) : NameMap Severity :=
  rules.mergeSort fun a b => !decide (b.1 < a.1)

/-- The rules of some names with their severities, and the registry that remembers the rules looked
up. -/
def bindAll (library : Library) :
    NameMap Severity → Registry → Except RegistryError (List BoundRule) × Registry
  | [], registry => (.ok [], registry)
  | (name, severity) :: rest, registry =>
    match registry.rule library name with
    | (.error e, registry) => (.error e, registry)
    | (.ok rule, registry) =>
      match bindAll library rest registry with
      | (.error e, registry) => (.error e, registry)
      | (.ok bound, registry) => (.ok ({ rule, severity } :: bound), registry)

/-- The rules that a configuration switches on, in the order of their names. -/
def bindRules (library : Library) (cfg : LintConfig) (registry : Registry) :
    Except RegistryError (List BoundRule) × Registry :=
  bindAll library (byName cfg.enabledRules) registry

/-- The diagnostic of a hit. A diagnostic is an error or a warning; nothing else passes its
validation. -/
def diagnostic (file : String) (bound : BoundRule) (source : ImportSource) (hit : RuleHit) :
    Except Raised Diagnostic :=
  if bound.severity = .error || bound.severity = .warn then
    .ok
      { file, span := source.span, ruleId := bound.rule.name, messageId := hit.messageId,
        message := hit.message, severity := bound.severity, importPath := source.path }
  else .error ⟨"ValidationError", "1 validation error for Diagnostic"⟩

/-- The diagnostics of an import, rule by rule. -/
def lintImport (policy : PathPolicy) (file : String) (source : ImportSource) :
    List BoundRule → Except Raised (List Diagnostic)
  | [] => .ok []
  | bound :: rest => do
    let here ←
      match bound.rule.check policy source with
      | none => pure []
      | some hit => do pure [← diagnostic file bound source hit]
    return here ++ (← lintImport policy file source rest)

/-- The diagnostics of some imports, one after the other. -/
def lintImports (policy : PathPolicy) (rules : List BoundRule) (file : String) :
    List ImportSource → Except Raised (List Diagnostic)
  | [] => .ok []
  | source :: rest => do
    let here ← lintImport policy file source rules
    return here ++ (← lintImports policy rules file rest)

/-- The diagnostics of a text, import by import. -/
def lintText (parser : ParserLibrary) (policy : PathPolicy) (rules : List BoundRule)
    (file ext text : String) : Scan parser (List Diagnostic) := do
  let sources ← extractImports parser text ext
  StateT.lift (Traced.ofExcept (lintImports policy rules file sources))

/-- The text of a file with all line ends as line feeds. -/
def readText (tree : FileTree) (path : Path) : Except String String :=
  match tree.read path with
  | .error e => .error e.message
  | .ok bytes =>
    match Text.decode bytes with
    | .error e => .error e.message
    | .ok text => .ok (String.ofList (Text.unifyNewlines text.toList))

/-- What came of a file: its diagnostics, or the reason why it was skipped. -/
abbrev FileResult := Except String (List Diagnostic)

/-- The extension of a file, as its grammar is chosen by. -/
def suffixOf (path : Path) : String :=
  nameSuffix (path.parts.getLast?.getD "")

/-- Checks a file. Without rules it is only read. -/
def checkFile (parser : ParserLibrary) (tree : FileTree) (root : Path) (policy : PathPolicy)
    (rules : List BoundRule) (rel : String) : Scan parser FileResult :=
  let path := root.under (Path.ofText rel)
  match readText tree path with
  | .error reason => do
    StateT.lift (Logged.warning ("Skipping " ++ rel ++ ": " ++ reason))
    return .error reason
  | .ok text =>
    if rules.isEmpty then return .ok []
    else do return .ok (← lintText parser policy rules rel (suffixOf path) text)

/-- Checks some files, one after the other. -/
def checkFiles (parser : ParserLibrary) (tree : FileTree) (root : Path) (policy : PathPolicy)
    (rules : List BoundRule) : List String → Scan parser (List (String × FileResult))
  | [] => return []
  | rel :: rest => do
    let result ← checkFile parser tree root policy rules rel
    return (rel, result) :: (← checkFiles parser tree root policy rules rest)

/-- The number of diagnostics of a severity. -/
def countOf (severity : Severity) (ds : List Diagnostic) : Int :=
  (ds.countP fun d => d.severity = severity : Nat)

/-- The report on some files. -/
def reportOf (root : Path) (cfg : LintConfig) (results : List (String × FileResult)) :
    CheckReport :=
  let checked := results.filterMap fun (_, r) => r.toOption
  let diagnostics := checked.flatten
  { root := root.text
    config := cfg.source
    filesChecked := checked.length
    errorCount := countOf .error diagnostics
    warningCount := countOf .warn diagnostics
    diagnostics
    skipped := results.filterMap fun (file, r) =>
      match r with
      | .error reason => some { file, reason }
      | .ok _ => none }

/-- Names as a line of the log shows them. -/
def namesShown (rules : List BoundRule) : String :=
  Value.shown (.list (rules.map fun b => .str b.rule.name))

/-- Checks the files of some targets. What was looked up and compiled stays for later checks. -/
def run (libs : Libraries) (tree : FileTree) (root : Path) (cfg : LintConfig) (targets : List Path)
    (memory : Memory libs.parser) : Logged CheckError (CheckReport × Memory libs.parser) := do
  let (bound, registry) := bindRules .builtIn cfg memory.registry
  let rules ← Traced.ofExcept (bound.mapError .registry)
  let discovery ← (Discovery.ofConfig libs.patterns tree root cfg).mapError .discovery
  let files ← (discovery.files targets).mapError .discovery
  Logged.debug ("Checking " ++ toString files.length ++ " file(s) with rules " ++ namesShown rules)
  let (results, compiled) ←
    (checkFiles libs.parser tree root cfg.policy rules files memory.compiled).mapError .raised
  return (reportOf root cfg results, { registry, compiled })

end Check

end EntryLint
