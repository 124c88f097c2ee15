import EntryLint.Config.Error
import EntryLint.Schema.Load

/-!
# Configuration files

The keys of a configuration file with their schema and defaults. A file is checked key by key and
then read into a `ConfigFile`, in which nothing is resolved yet.
-/

namespace EntryLint

/-- The presets that a configuration file asks for. -/
inductive PresetChoice where
  | unspecified
  | one (name : String)
  | many (names : List String)
  deriving DecidableEq, Repr

/-- A configuration file as it is written, with defaults for absent keys. -/
structure ConfigFile where
  presets : PresetChoice := .unspecified
  rootAlias : String := "@"
  extensions : List String := [".ts", ".tsx", ".js", ".jsx"]
  lintExtensions : Option (List String) := none
  exclude : List String := []
  gitignore : Bool := true
  rules : NameMap Severity := []
  deriving DecidableEq, Repr

namespace ConfigFile

/-- The schema of a list of texts. -/
def texts : Schema :=
  .collection .list (.scalar .str)

/-- The schema of a severity. -/
def severity : Schema :=
  Schema.oneOf [.str "error", .str "warn", .str "off"]

/-- Texts as a list value. -/
def textsValue (xs : List String) : Value :=
  .list (xs.map .str)

/-- The schema of a configuration file. Every key may be left out. -/
def schema : Schema :=
  let defaults : ConfigFile := {}
  Schema.recordOf "ConfigFile"
    [{ name := "extends", schema := Schema.choice [.scalar .str, texts, .null]
       default? := some .null },
      { name := "top_level_alias", schema := .scalar .str,
        default? := some (.str defaults.rootAlias) },
      { name := "extensions", schema := texts
        default? := some (textsValue defaults.extensions) },
      { name := "lint_extensions", schema := Schema.optional texts, default? := some .null },
      { name := "exclude", schema := texts, default? := some (.list []) },
      { name := "gitignore", schema := .scalar .bool, default? := some (.bool true) },
      { name := "rules", schema := .map (.scalar .str) severity, default? := some (.map []) }]

/-- The texts of a list value. -/
def textsOf (v : Value) : List String :=
  match v with
  | .list xs => xs.filterMap Value.text?
  | _ => []

/-- The presets of a value that fits the schema. -/
def presetsOf (v : Value) : PresetChoice :=
  match v with
  | .null => .unspecified
  | .list _ => .many (textsOf v)
  | v =>
    match v.text? with
    | some name => .one name
    | none => .unspecified

/-- The rules of a value that fits the schema. -/
def rulesOf (v : Value) : NameMap Severity :=
  match v with
  | .map entries =>
    entries.filterMap fun (k, s) =>
      match k.text?, s.text? with
      | some name, some level => some (name, Severity.ofName level)
      | _, _ => none
  | _ => []

/-- Reads the fields of a typed record. -/
def ofFields (fields : NameMap Value) : ConfigFile :=
  let get (name : String) : Value := (fields.get? name).getD .null
  { presets := presetsOf (get "extends")
    rootAlias := (get "top_level_alias").text?.getD ""
    extensions := textsOf (get "extensions")
    lintExtensions :=
      match get "lint_extensions" with
      | .null => none
      | v => some (textsOf v)
    exclude := textsOf (get "exclude")
    gitignore :=
      match get "gitignore" with
      | .bool b => b
      | _ => true
    rules := rulesOf (get "rules") }

/-- Reads a value that has been checked against the schema. -/
def ofRecord (v : Value) : ConfigFile :=
  match v with
  | .record _ fields => ofFields fields
  | _ => {}

/-- The typed record of a raw configuration, with the rejections met on the way. -/
def record (raw : Value) (origin : String) : List Rejection × Except ConfigError Value :=
  let attempt := schema.load raw "$"
  let outcome :=
    match attempt.outcome with
    | .ok v => .ok v
    | .error (.rejected r) => .error (.malformed origin r)
    | .error (.raised e) => .error (.raised e)
  (attempt.trace, outcome)

/-- Reads a raw configuration. -/
def parse (raw : Value) (origin : String) : Except ConfigError ConfigFile :=
  (record raw origin).2.map ofRecord

end ConfigFile

end EntryLint
