import EntryLint.Check
import EntryLint.Command.Invocation
import EntryLint.Config.Load
import EntryLint.Listing

/-!
# Running the tool

A run is a function of the arguments and of what surrounds it: the libraries, the files, the working
directory and whether the environment asks for the whole log. Its result is what it prints and its
exit code. What the user can mend ends with a line that says so and code 2; any other failure breaks
the run off.
-/

namespace EntryLint.Command

/-- What surrounds a run. -/
structure Surroundings where
  tree : FileTree
  workingDirectory : Path
  /-- Whether the environment asks for the whole log. -/
  debug : Bool := false

/-- What a run leaves. -/
structure RunResult where
  code : Nat
  stdout : String := ""
  stderr : String := ""
  deriving DecidableEq, Repr

/-- Why a run breaks off. -/
inductive Breakdown where
  | raised (e : Raised)
  | registry (e : RegistryError)

/-- The text of a breakdown. -/
def Breakdown.message : Breakdown → String
  | raised e => e.message
  | registry e => e.message

/-- A failure of a run: one that the user can mend, with the line that says so, or a breakdown. -/
inductive RunError where
  | user (message : String)
  | breakdown (b : Breakdown)

namespace RunError

/-- A failure of the registry. Names that are not registered are the user's. -/
def ofRegistry (e : RegistryError) : RunError :=
  match e with
  | .unknownRule .. | .unknownPreset .. => .user e.message
  | _ => .breakdown (.registry e)

/-- A failure of the configuration. -/
def ofConfig : ConfigError → RunError
  | .registry e => ofRegistry e
  | .raised e => .breakdown (.raised e)
  | e => .user e.message

/-- A failure of a check. Patterns that cannot be compiled are not the user's. -/
def ofCheck : CheckError → RunError
  | .registry e => ofRegistry e
  | .discovery (.pattern e) => .breakdown (.raised e)
  | .discovery e => .user e.message
  | .raised e => .breakdown (.raised e)

end RunError

/-- The exit code of a report. -/
def exitCode (maxWarnings : Int) (report : CheckReport) : Nat :=
  if report.errorCount ≠ 0 then 1
  else if 0 ≤ maxWarnings && maxWarnings < report.warningCount then 1
  else 0

/-- A report in the form that is asked for. -/
def reportText (json : Bool) (report : CheckReport) : String :=
  if json then report.json.render else report.text

/-- The root of the project that a check is about: the working directory, unless one is given. -/
def CheckRequest.projectRoot (request : CheckRequest) (workingDirectory : Path) : Path :=
  (workingDirectory.under (request.root.getD (Path.ofText ""))).resolve

/-- Checks a project: the exit code and the output. -/
def check (libs : Libraries) (s : Surroundings) (request : CheckRequest) :
    Logged RunError (Nat × String) := do
  let root := request.projectRoot s.workingDirectory
  let overrides : Overrides :=
    { rootAlias := request.rootAlias
      gitignore := if request.noGitignore then some false else none }
  let (cfg, registry) ←
    (Config.load libs.yaml .builtIn s.tree root request.config overrides).mapError .ofConfig
  let (report, _) ← (Check.run libs s.tree root cfg request.targets { registry }).mapError .ofCheck
  return (exitCode request.maxWarnings report, reportText request.json report)

/-- A classification as a document. -/
def classificationEntry (c : Classification) : JsonDoc :=
  .object
    [("path", .string c.path), ("prefixClass", .string c.pathClass.label),
      ("segments", .array (c.segments.map .string)), ("entryName", .text? c.entryName),
      ("entryKind", .text? (c.entryKind.map EntryKind.label)),
      ("violation", .text? (c.violation.map Violation.id))]

/-- Where the values of a question about paths say they come from. -/
def argumentOrigin : String := "command line"

/-- Takes import paths apart. Alias and extensions are held to the rules of configurations. -/
def classifyPaths (request : ClassifyRequest) : Except ConfigError JsonDoc := do
  let defaults : PathPolicy := {}
  let rootAlias := request.rootAlias.getD defaults.rootAlias
  let extensions :=
    if request.extensions.isEmpty then defaults.extensions else request.extensions
  Config.checkAlias rootAlias argumentOrigin
  Config.checkExtensions extensions "--ext" argumentOrigin
  let policy : PathPolicy := { rootAlias, extensions }
  return .object
    [("results", .array (request.paths.map fun path => classificationEntry (explain policy path)))]

/-- Lists rules or presets. -/
def listing : Subject → Except RegistryError JsonDoc
  | .rules => (Listing.rules .builtIn .builtIn).1
  | .configs => Listing.configs .builtIn

/-- Does what is asked for: the exit code and the output. -/
def perform (libs : Libraries) (s : Surroundings) : Invocation → Logged RunError (Nat × String)
  | .check request => check libs s request
  | .classify request =>
    Traced.ofExcept (((classifyPaths request).map fun d => (0, d.render)).mapError .ofConfig)
  | .list subject =>
    Traced.ofExcept (((listing subject).map fun d => (0, d.render)).mapError .ofRegistry)

/-- Whether an invocation asks for the whole log. -/
def Invocation.wantsLog : Invocation → Bool
  | check request => request.debug
  | _ => false

/-- The log as it is shown: the whole of it, or its warnings. -/
def logText (all : Bool) (log : List LogLine) : String :=
  String.join ((log.filter fun line => all || line.level = .warning).map LogLine.render)

/-- What is left by a run that ended while its arguments were read. -/
def stopped (spec : Spec) : Stop → RunResult
  | .help => { code := 0, stdout := spec.usage ++ "\n" ++ spec.details }
  | .version => { code := 0, stdout := spec.program ++ " " ++ Tool.version ++ "\n" }
  | .error text =>
    { code := 2, stderr := spec.usage ++ spec.program ++ ": error: " ++ text ++ "\n" }

/-- Runs the tool. -/
def run (libs : Libraries) (s : Surroundings) (args : List String) : Except Breakdown RunResult :=
  match Invocation.ofArguments args with
  | .error (spec, stop) => .ok (stopped spec stop)
  | .ok invocation =>
    let performed := perform libs s invocation
    let log := logText (s.debug || invocation.wantsLog) performed.trace
    match performed.outcome with
    | .ok (code, output) => .ok { code, stdout := output, stderr := log }
    | .error (.user message) =>
      .ok { code := 2, stderr := log ++ Text.dropTrailing Text.isBlank message ++ "\n" }
    | .error (.breakdown b) => .error b

/-- The places whose files a run can look at: the project and the configuration that is named. -/
def placesRead (workingDirectory : Path) (args : List String) : List Path :=
  match Invocation.ofArguments args with
  | .ok (.check request) =>
    let root := request.projectRoot workingDirectory
    root :: (request.config.map fun file => (root.under file).resolve).toList
  | _ => []

end EntryLint.Command
