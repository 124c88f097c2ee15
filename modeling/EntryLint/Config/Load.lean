import EntryLint.Config.Resolve
import EntryLint.Files.Tree
import EntryLint.Text.Lines
import EntryLint.Text.Utf8
import EntryLint.Tool
import EntryLint.Yaml.Library

/-!
# Loading a configuration

The configuration of a project is in a file at its root or in one that is named. Without a file at
the root everything has its default; a file that is named must exist.
-/

namespace EntryLint.Config

/-- The raw configuration in a file, which is a mapping. A file that holds nothing, or a value that
counts as nothing, is an empty one. -/
def readFile (yaml : YamlReader) (tree : FileTree) (path : Path) : Except ConfigError Value :=
  match tree.read path with
  | .error e => .error (.unreadable path.text e.message)
  | .ok bytes =>
    match Text.decode bytes with
    | .error e => .error (.unreadable path.text e.message)
    | .ok text =>
      match yaml (String.ofList (Text.unifyNewlines text.toList)) with
      | .error (.malformed detail) => .error (.invalidYaml path.text detail)
      | .error (.raised e) => .error (.raised e)
      | .ok raw =>
        if raw.isEmpty then .ok (.map [])
        else
          match raw with
          | .map entries => .ok (.map entries)
          | _ => .error (.notMapping path.text)

/-- Severities as a line of the log shows them. -/
def rulesShown (rules : NameMap Severity) : String :=
  Value.shown (.map (rules.map fun (name, s) => (.str name, .str s.name)))

/-- Resolves a configuration file and logs the rules. The registry remembers the rules that were
looked up. -/
def buildLogged (registry : Registry) (cf : ConfigFile) (overrides : Overrides)
    (source : Option String) : Logged ConfigError (LintConfig × Registry) := do
  let (built, registry) := build .builtIn registry cf overrides source
  let cfg ← Traced.ofExcept built
  Logged.debug (origin source ++ ": effective rules " ++ rulesShown cfg.rules)
  return (cfg, registry)

/-- Types a raw configuration and logs every rejection met on the way. -/
def parseLogged (raw : Value) (origin : String) : Logged ConfigError ConfigFile :=
  let (rejections, outcome) := ConfigFile.record raw origin
  { trace := rejections.map fun r =>
      { level := .debug, text := "config type error at " ++ r.path ++ ": " ++ r.reason.text }
    outcome := outcome.map ConfigFile.ofRecord }

/-- Loads the configuration in a file. -/
def loadFile (yaml : YamlReader) (registry : Registry) (tree : FileTree) (path : Path)
    (overrides : Overrides) : Logged ConfigError (LintConfig × Registry) := do
  Logged.debug ("Loading config from " ++ path.text)
  let raw ← Traced.ofExcept (readFile yaml tree path)
  let cf ← parseLogged raw path.text
  buildLogged registry cf overrides (some path.text)

/-- Loads the configuration of a project, from a file relative to its root if one is named. -/
def load (yaml : YamlReader) (registry : Registry) (tree : FileTree) (root : Path)
    (file : Option Path) (overrides : Overrides) : Logged ConfigError (LintConfig × Registry) :=
  match file with
  | some named =>
    let path := (root.under named).resolve
    if tree.isFile path then loadFile yaml registry tree path overrides
    else Traced.fail (.notFound path.text)
  | none =>
    let path := (root.child Tool.configName).resolve
    if tree.isFile path then loadFile yaml registry tree path overrides
    else do
      Logged.debug ("No " ++ Tool.configName ++ " in " ++ root.text ++ ", using built-in defaults")
      buildLogged registry {} overrides none

end EntryLint.Config
