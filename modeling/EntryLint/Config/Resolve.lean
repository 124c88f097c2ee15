import EntryLint.Config.File
import EntryLint.Source.Language

/-!
# Resolving a configuration

A configuration file becomes a `LintConfig`: overrides from the command line win, extensions are
checked, and the severities of presets and rules are merged. Presets come first, in their order,
and the file's own rules last. A file that names neither presets nor rules has the recommended
preset.
-/

namespace EntryLint

/-- What the command line sets. -/
structure Overrides where
  rootAlias : Option String := none
  gitignore : Option Bool := none
  deriving DecidableEq, Repr

/-- The configuration of a run. -/
structure LintConfig where
  policy : PathPolicy
  lintExtensions : List String
  exclude : List String
  gitignore : Bool
  rules : NameMap Severity
  /-- The file that it was read from. -/
  source : Option String
  deriving DecidableEq, Repr

namespace LintConfig

/-- The rules that are not switched off. -/
def enabledRules (cfg : LintConfig) : NameMap Severity :=
  cfg.rules.filter fun (_, s) => s ≠ .off

end LintConfig

namespace Config

/-- The preset of a file that names neither presets nor rules. -/
def defaultPreset : String := "recommended"

/-- The extensions that are searched for imports besides those that are cut off. -/
def extraLintExtensions : List String := [".mts", ".cts", ".mjs", ".cjs"]

/-- An alias is not empty, has no slash and does not start with a dot. -/
def checkAlias (rootAlias origin : String) : Except ConfigError Unit :=
  if rootAlias = "" then .error (.emptyAlias origin)
  else if Text.contains '/' rootAlias || Text.startsWith "." rootAlias then
    .error (.badAlias origin rootAlias)
  else .ok ()

/-- Whether a text is a dot with something after it. -/
def isExtension (e : String) : Bool :=
  Text.startsWith "." e && 2 ≤ e.length

/-- Every extension is a dot with something after it. -/
def checkExtensions (extensions : List String) (key origin : String) : Except ConfigError Unit :=
  match extensions.find? fun e => !isExtension e with
  | some e => .error (.badExtension origin key e)
  | none => .ok ()

/-- The members of a list without those that stand earlier in it. -/
def dedup (xs : List String) : List String :=
  xs.foldl (fun seen x => if seen.contains x then seen else seen ++ [x]) []

/-- The extensions that are searched for imports. -/
def lintExtensionsOf (cf : ConfigFile) : List String :=
  match cf.lintExtensions with
  | none => dedup (cf.extensions ++ extraLintExtensions)
  | some given => dedup given

/-- The presets that a file draws on. -/
def presetsOf (cf : ConfigFile) : List String :=
  match cf.presets with
  | .unspecified => if cf.rules.isEmpty then [defaultPreset] else []
  | .one name => [name]
  | .many names => names

/-- The merged severities of some presets, in their order. -/
def mergePresets (registry : Registry) (names : List String) :
    Except RegistryError (NameMap Severity) :=
  names.foldlM (fun rules name => return rules.update (← registry.preset name)) []

/-- Looks up every rule, so that unknown names are found before anything runs. -/
def lookUpRules (library : Library) :
    List String → Registry → Except RegistryError Unit × Registry
  | [], registry => (.ok (), registry)
  | name :: names, registry =>
    match registry.rule library name with
    | (.error e, registry) => (.error e, registry)
    | (.ok _, registry) => lookUpRules library names registry

/-- The severities of a configuration, and the registry that remembers the rules looked up. -/
def resolveRules (library : Library) (registry : Registry) (cf : ConfigFile) :
    Except ConfigError (NameMap Severity) × Registry :=
  match mergePresets registry (presetsOf cf) with
  | .error e => (.error (.registry e), registry)
  | .ok merged =>
    let rules := merged.update cf.rules
    match lookUpRules library rules.names registry with
    | (.error e, registry) => (.error (.registry e), registry)
    | (.ok (), registry) => (.ok rules, registry)

/-- Where a configuration says it comes from. -/
def origin (source : Option String) : String :=
  source.getD "<defaults>"

/-- Checks everything in a file but its rules. -/
def checkFile (cf : ConfigFile) (rootAlias origin : String) : Except ConfigError Unit := do
  checkAlias rootAlias origin
  checkExtensions cf.extensions "extensions" origin
  let lintExtensions := lintExtensionsOf cf
  checkExtensions lintExtensions "lint_extensions" origin
  match lintExtensions.filter fun e => !Grammar.isSupported e with
  | [] => .ok ()
  | unsupported => .error (.noParser origin unsupported)

/-- Resolves a configuration file. The first defect found is the one reported: alias, extensions,
lint extensions, presets, rules. -/
def build (library : Library) (registry : Registry) (cf : ConfigFile) (overrides : Overrides)
    (source : Option String) : Except ConfigError LintConfig × Registry :=
  let rootAlias := overrides.rootAlias.getD cf.rootAlias
  match checkFile cf rootAlias (origin source) with
  | .error e => (.error e, registry)
  | .ok () =>
    match resolveRules library registry cf with
    | (.error e, registry) => (.error e, registry)
    | (.ok rules, registry) =>
      (.ok
        { policy := { rootAlias, extensions := cf.extensions }
          lintExtensions := lintExtensionsOf cf
          exclude := cf.exclude
          gitignore := overrides.gitignore.getD cf.gitignore
          rules, source }, registry)

end Config

end EntryLint
