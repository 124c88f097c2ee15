import EntryLint.Rule.EntryImports
import EntryLint.Text.Quoted

/-!
# The registry of rules and presets

Rules are registered by the place where they are defined and looked up when they are first asked
for; a rule that was found once is remembered. Presets are named choices of severities, kept in
dictionaries that callers hold by reference and may change: the registry copies a dictionary when it
takes it and again when it hands it out.
-/

namespace EntryLint

/-- What a library offers under a name. -/
inductive Export where
  /-- A rule. -/
  | rule (rule : Rule)
  /-- A rule in name only: it declares nothing about itself. -/
  | undeclared (definition : String)
  /-- A definition that is no rule. -/
  | definition
  /-- A plain value. -/
  | value

/-- A module of a library: whether it has modules below it, and what it offers. -/
structure LibraryModule where
  hasChildren : Bool := false
  exported : NameMap Export := []

/-- Where rules are looked up: modules by full name, and the name that relative names start from. -/
structure Library where
  home : String
  modules : NameMap LibraryModule

/-- Where a rule is said to be defined. -/
structure RuleSpec where
  module : String
  definition : String
  deriving DecidableEq, Repr

/-- A named choice of severities. -/
abbrev Preset := NameMap Severity

/-- Why the registry has no answer. -/
inductive RegistryError where
  | unknownRule (name : String) (known : List String)
  | unknownPreset (name : String) (known : List String)
  | emptyModuleName
  | beyondTop
  | noModule (name : String)
  | noChildren (name parent : String)
  | noDefinition (spec : RuleSpec)
  | notDefinition
  | notRule (spec : RuleSpec)
  | undeclared (definition : String)
  | misnamed (name declared : String)
  deriving DecidableEq, Repr

namespace RegistryError

/-- The known names in a message. -/
def known (names : List String) : String :=
  match names with
  | [] => "none"
  | _ => Text.join ", " names

/-- The text of a registry error. -/
def message : RegistryError → String
  | unknownRule name names => "Unknown rule '" ++ name ++ "' (known rules: " ++ known names ++ ")"
  | unknownPreset name names =>
    "Unknown config preset '" ++ name ++ "' (known presets: " ++ known names ++ ")"
  | emptyModuleName => "Empty module name"
  | beyondTop => "attempted relative import beyond top-level package"
  | noModule name => "No module named " ++ Text.quote name
  | noChildren name parent =>
    "No module named " ++ Text.quote name ++ "; " ++ Text.quote parent ++ " is not a package"
  | noDefinition spec =>
    "Rule class '" ++ spec.definition ++ "' not found in " ++ spec.module
  | notDefinition => "issubclass() arg 1 must be a class"
  | notRule spec => spec.module ++ "." ++ spec.definition ++ " is not a subclass of BaseRule"
  | undeclared definition => "type object '" ++ definition ++ "' has no attribute 'meta'"
  | misnamed name declared =>
    "Rule registered as '" ++ name ++ "' declares name '" ++ declared ++ "'"

end RegistryError

namespace Library

/-- The full name of a module: one leading dot is the home itself, every further dot one level
up. -/
def fullName (library : Library) (name : String) : Except RegistryError String :=
  let dots := (name.toList.takeWhile (· = '.')).length
  let rest := Text.dropFirst dots name
  if name = "" then .error .emptyModuleName
  else if dots = 0 then .ok name
  else
    let levels := Text.split '.' library.home
    if levels.length < dots then .error .beyondTop
    else
      let base := Text.join "." (levels.take (levels.length + 1 - dots))
      .ok (if rest = "" then base else base ++ "." ++ rest)

/-- Walks down a dotted name, so that the first missing part is the one reported. -/
def walk (library : Library) : String → LibraryModule → List String →
    Except RegistryError LibraryModule
  | _, found, [] => .ok found
  | reached, found, part :: parts =>
    let next := reached ++ "." ++ part
    match library.modules.get? next with
    | some m => walk library next m parts
    | none => .error (if found.hasChildren then .noModule next else .noChildren next reached)

/-- The module of a full or relative name. -/
def find (library : Library) (name : String) : Except RegistryError LibraryModule := do
  let full ← library.fullName name
  match Text.split '.' full with
  | [] => .error (.noModule full)
  | top :: parts =>
    match library.modules.get? top with
    | none => .error (.noModule top)
    | some m => library.walk top m parts

/-- The rule that is registered under a name with a specification. It must be defined where the
specification says, be a rule, and declare the name it is registered under. -/
def load (library : Library) (name : String) (spec : RuleSpec) : Except RegistryError Rule := do
  let m ← library.find spec.module
  match m.exported.get? spec.definition with
  | none => .error (.noDefinition spec)
  | some .value => .error .notDefinition
  | some .definition => .error (.notRule spec)
  | some (.undeclared definition) => .error (.undeclared definition)
  | some (.rule rule) =>
    if rule.name = name then .ok rule else .error (.misnamed name rule.name)

end Library

/-- The registered rules, the rules found so far, and the presets. -/
structure Registry where
  specs : NameMap RuleSpec := []
  resolved : NameMap Rule := []
  /-- Which dictionary each preset is kept in. -/
  presets : NameMap Nat := []
  /-- All dictionaries that were made so far, those of callers included. -/
  dictionaries : List Preset := []

namespace Registry

/-- Registers where a rule is defined. A rule that was found before stays found. -/
def registerRule (registry : Registry) (name : String) (spec : RuleSpec) : Registry :=
  { registry with specs := registry.specs.put name spec }

/-- Makes a new dictionary. -/
def allocate (registry : Registry) (content : Preset) : Nat × Registry :=
  (registry.dictionaries.length,
    { registry with dictionaries := registry.dictionaries ++ [content] })

/-- What a dictionary holds. -/
def content (registry : Registry) (dictionary : Nat) : Preset :=
  registry.dictionaries.getD dictionary []

/-- Registers a copy of a dictionary as a preset, replacing one of the same name. -/
def registerPreset (registry : Registry) (name : String) (dictionary : Nat) : Registry :=
  let (copy, registry) := registry.allocate (registry.content dictionary)
  { registry with presets := registry.presets.put name copy }

/-- The registered rule names, sorted. -/
def ruleNames (registry : Registry) : List String :=
  sortNames registry.specs.names

/-- The registered preset names, sorted. -/
def presetNames (registry : Registry) : List String :=
  sortNames registry.presets.names

/-- The rule of a name, and the registry that remembers it. A failure leaves the registry as it
was. -/
def rule (library : Library) (registry : Registry) (name : String) :
    Except RegistryError Rule × Registry :=
  match registry.resolved.get? name with
  | some rule => (.ok rule, registry)
  | none =>
    match registry.specs.get? name with
    | none => (.error (.unknownRule name registry.ruleNames), registry)
    | some spec =>
      match library.load name spec with
      | .error e => (.error e, registry)
      | .ok rule => (.ok rule, { registry with resolved := registry.resolved.put name rule })

/-- A copy of the preset of a name. -/
def getPreset (registry : Registry) (name : String) : Except RegistryError Nat × Registry :=
  match registry.presets.get? name with
  | some dictionary =>
    let (copy, registry) := registry.allocate (registry.content dictionary)
    (.ok copy, registry)
  | none => (.error (.unknownPreset name registry.presetNames), registry)

/-- What the copy of a preset holds, for a caller that reads it at once and keeps nothing. -/
def preset (registry : Registry) (name : String) : Except RegistryError Preset :=
  let (copy, registry) := registry.getPreset name
  copy.map registry.content

end Registry

/-! ## The built-in rule -/

/-- The library with the built-in rule alone. -/
def Library.builtIn : Library where
  home := "eml.rules"
  modules :=
    [("eml", { hasChildren := true }),
      ("eml.rules", { hasChildren := true }),
      ("eml.rules.entry_imports",
        { exported := [(EntryImports.rule.definition, .rule EntryImports.rule)] })]

/-- The registry that every run starts from: the built-in rule and the recommended preset. -/
def Registry.builtIn : Registry :=
  let rules := ({} : Registry).registerRule EntryImports.ruleName
    { module := ".entry_imports", definition := EntryImports.rule.definition }
  let (recommended, registry) := rules.allocate [(EntryImports.ruleName, .error)]
  registry.registerPreset "recommended" recommended

end EntryLint
