import EntryLint.Entry.Classification
import EntryLint.Rule.Basic

/-!
# The rule for entry imports

`no-invalid-entry-imports` reports every import path that the classification finds at fault. The
identifier of a violation is the identifier of its message.
-/

namespace EntryLint.EntryImports

/-- The name that the rule is configured by. -/
def ruleName : String := "no-invalid-entry-imports"

/-- The optional extensions of a file name in a message: nothing, the only one, or a choice. -/
def extensionsHint : List String → String
  | [] => ""
  | [only] => only
  | many => "[" ++ Text.join "|" many ++ "]"

/-- The text for a violation, given the start of top-level imports and the extensions hint. -/
def message (marker extensions : String) : Violation → String
  | .invalidParentImport =>
    "Imports starting with \"..\" can only reference entry..<OPTIONAL-SEGMENTS>.children" ++
      extensions ++ " files"
  | .invalidSubdirectoryImport =>
    "Imports starting with \"./some-directory/\" can only reference entry.<OPTIONAL-SEGMENTS>" ++
      extensions ++ " files (not non-entry files or children-specific entry files)"
  | .tooManyDirectorySegments =>
    "Imports can only reference files one directory level deep " ++
      "(found multiple directory segments)"
  | .invalidTopLevelImport =>
    "Top-level imports must follow pattern " ++ marker ++
      "module-name/entry.<OPTIONAL-SEGMENTS>" ++ extensions
  | .invalidTopLevelImportDepth =>
    "Top-level imports must have exactly 1 directory segment (the module name). Use " ++ marker ++
      "module-name/entry.<SEGMENTS>" ++ extensions ++ " format"
  | .invalidTopLevelImportChildren =>
    "Top-level imports cannot reference entry..<OPTIONAL-SEGMENTS>.children" ++ extensions ++
      " files (children entries are for internal use only)"

/-- The text for a violation under a policy. -/
def policyMessage (policy : PathPolicy) (violation : Violation) : String :=
  message policy.topLevelMarker (extensionsHint policy.extensions) violation

/-- The violations in the order in which their messages are declared. -/
def declared : List Violation :=
  [.invalidParentImport, .invalidSubdirectoryImport, .tooManyDirectorySegments,
    .invalidTopLevelImport, .invalidTopLevelImportDepth, .invalidTopLevelImportChildren]

/-- The declared texts, with place-holders for the parts that depend on the policy. -/
def templates : NameMap String :=
  declared.map fun v => (v.id, message "\x7bprefix\x7d" "\x7bext\x7d" v)

/-- All texts under a policy. -/
def messages (policy : PathPolicy) : NameMap String :=
  declared.map fun v => (v.id, policyMessage policy v)

/-- Reports an import source whose path breaks a rule. -/
def check (policy : PathPolicy) (source : ImportSource) : Option RuleHit :=
  (classify policy source.path).map fun v =>
    { messageId := v.id, message := policyMessage policy v, source }

/-- The rule itself. -/
def rule : Rule where
  definition := "EntryImportsRule"
  info :=
    { name := ruleName
      description := "Enforce modular architecture import rules for entry point files"
      recommended := true
      messages := templates }
  messages := messages
  check := check

end EntryLint.EntryImports
