import EntryLint.Ignore.Library
import EntryLint.Source.Tree
import EntryLint.Yaml.Library

/-!
# Libraries

What the tool leaves to others: ignore patterns, source texts and configuration documents.
-/

namespace EntryLint

/-- The libraries that a run uses. -/
structure Libraries where
  patterns : PatternLibrary
  parser : ParserLibrary
  yaml : YamlReader

end EntryLint
