import EntryLint.Registry
import EntryLint.Schema.Rejection

/-!
# Configuration errors

Why there is no usable configuration, and the one line that says so.
-/

namespace EntryLint

/-- Why a configuration cannot be used. An origin is the file that it comes from, or a word for
where else it does. -/
inductive ConfigError where
  | notFound (path : String)
  | unreadable (path reason : String)
  | invalidYaml (path detail : String)
  /-- Something was raised that is no error of the tool. -/
  | raised (e : Raised)
  | notMapping (path : String)
  | malformed (origin : String) (r : Rejection)
  | emptyAlias (origin : String)
  | badAlias (origin rootAlias : String)
  | badExtension (origin key extension : String)
  | noParser (origin : String) (extensions : List String)
  | registry (e : RegistryError)

namespace ConfigError

/-- The text of a configuration error. -/
def message : ConfigError → String
  | notFound path => "Config file not found: " ++ path
  | unreadable path reason => "Cannot read config " ++ path ++ ": " ++ reason
  | invalidYaml path detail => "Invalid YAML in " ++ path ++ ": " ++ detail
  | raised e => e.message
  | notMapping path => "YAML must be a mapping: " ++ path
  | malformed origin r => origin ++ ": " ++ r.message
  | emptyAlias origin => origin ++ ": top_level_alias must not be empty"
  | badAlias origin rootAlias =>
    origin ++ ": top_level_alias must not contain '/' or start with '.': " ++ Text.quote rootAlias
  | badExtension origin key extension =>
    origin ++ ": " ++ key ++ " entries must look like '.ts', got " ++ Text.quote extension
  | noParser origin extensions =>
    origin ++ ": no parser for lint_extensions " ++ Value.shown (.list (extensions.map .str))
  | registry e => e.message

end ConfigError

end EntryLint
